import CodeEntities.Json.Basic

namespace CodeEntities.Json

def hexDigit (n : Nat) : Char := (Nat.toDigits 16 (n % 16)).headD '0'

-- Only quotes, backslashes and control characters are escaped.
def escapeChar (c : Char) : List Char :=
  if c == '"' then ['\\', '"']
  else if c == '\\' then ['\\', '\\']
  else if c == '\n' then ['\\', 'n']
  else if c == '\r' then ['\\', 'r']
  else if c == '\t' then ['\\', 't']
  else if c == '\x08' then ['\\', 'b']
  else if c == '\x0c' then ['\\', 'f']
  else if c.toNat < 0x20 then
    ['\\', 'u', '0', '0', hexDigit (c.toNat / 16), hexDigit c.toNat]
  else [c]

def quoted (s : String) : String :=
  "\"" ++ String.ofList (s.toList.flatMap escapeChar) ++ "\""

def indentation (depth : Nat) : String := String.ofList (List.replicate (2 * depth) ' ')

mutual

def prettyAt (depth : Nat) : Json → String
  | null => "null"
  | bool value => if value then "true" else "false"
  | int value => toString value
  | decimal text => text
  | string value => quoted value
  | list [] => "[]"
  | list (item :: items) =>
    "[\n" ++ indentation (depth + 1) ++ prettyAt (depth + 1) item ++
      prettyItems (depth + 1) items ++ "\n" ++ indentation depth ++ "]"
  | object [] => "\x7b\x7d"
  | object ((name, value) :: members) =>
    "\x7b\n" ++ indentation (depth + 1) ++ quoted name ++ ": " ++ prettyAt (depth + 1) value ++
      prettyMembers (depth + 1) members ++ "\n" ++ indentation depth ++ "\x7d"

def prettyItems (depth : Nat) : List Json → String
  | [] => ""
  | item :: items =>
    ",\n" ++ indentation depth ++ prettyAt depth item ++ prettyItems depth items

def prettyMembers (depth : Nat) : List (String × Json) → String
  | [] => ""
  | (name, value) :: members =>
    ",\n" ++ indentation depth ++ quoted name ++ ": " ++ prettyAt depth value ++
      prettyMembers depth members

end

def pretty (j : Json) : String := prettyAt 0 j

end CodeEntities.Json
