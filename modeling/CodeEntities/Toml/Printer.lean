import CodeEntities.Toml.Quoted

namespace CodeEntities.Toml

def longestRun (mark : Char) (run : Nat) : List Char → Nat
  | [] => run
  | c :: cs => if c = mark then longestRun mark (run + 1) cs else max run (longestRun mark 0 cs)

-- Control characters other than tab and line feed have no form outside of escapes.
def needsCodes (cs : List Char) : Bool := cs.any fun c => !isPlain c && c != '\n'

def hexDigits (n : Nat) : List Char :=
  [4096, 256, 16, 1].map fun place =>
    ((Nat.toDigits 16 (n / place % 16)).headD '0').toUpper

def escape (c : Char) : List Char :=
  if c = '"' then ['\\', '"']
  else if c = '\\' then ['\\', '\\']
  else if c = '\x08' then ['\\', 'b']
  else if c = '\t' then ['\\', 't']
  else if c = '\n' then ['\\', 'n']
  else if c = '\x0c' then ['\\', 'f']
  else if c = '\r' then ['\\', 'r']
  else if isPlain c then [c]
  else '\\' :: 'u' :: hexDigits c.toNat

-- The body of a string over several lines. `run` counts the quotes directly
-- before; a third one in a row is escaped.
def escapeLines (run : Nat) : List Char → List Char
  | [] => []
  | c :: cs =>
    if c = '"' then
      if run = 2 then '\\' :: '"' :: escapeLines 0 cs else '"' :: escapeLines (run + 1) cs
    else if c = '\n' then '\n' :: escapeLines 0 cs
    else escape c ++ escapeLines 0 cs

-- A string in the form that needs the fewest escapes: between double quotes if
-- that needs none, else between single quotes, else over several lines.
def quoted (s : String) : String :=
  let cs := s.toList
  let hasLines := cs.contains '\n'
  let hasBackslash := cs.contains '\\'
  let codes := needsCodes cs
  let doubles := longestRun '"' 0 cs
  let singles := longestRun '\'' 0 cs
  let lineEnd := if hasLines then "\n" else ""
  let between := fun (mark : String) (body : List Char) => mark ++ String.ofList body ++ mark
  let fenced := fun (mark : String) (body : List Char) => mark ++ lineEnd ++ String.ofList body ++ mark
  if !codes && !hasBackslash && doubles == 0 && !hasLines then between "\"" (cs.flatMap escape)
  else if !codes && singles == 0 && !hasLines then between "'" cs
  else if !codes && !hasBackslash && doubles ≤ 2 then fenced "\"\"\"" (escapeLines 0 cs)
  else if !codes && singles ≤ 2 then fenced "'''" cs
  else if hasLines then fenced "\"\"\"" (escapeLines 0 cs)
  else between "\"" (cs.flatMap escape)

def arrayText (items : List String) : String :=
  match items with
  | [] => "[]"
  | [item] => "[" ++ item ++ "]"
  | _ => "[\n" ++ String.join (items.map fun item => "    " ++ item ++ ",\n") ++ "]"

def sectionText (name : String) (keys : List (String × String)) : String :=
  "[" ++ name ++ "]\n" ++ String.join (keys.map fun (key, value) => key ++ " = " ++ value ++ "\n")

def documentText (sections : List String) : String := Text.join "\n" sections

end CodeEntities.Toml
