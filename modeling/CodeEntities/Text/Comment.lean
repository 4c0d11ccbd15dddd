import CodeEntities.Text.Split

namespace CodeEntities.Text

def isClosingMark (cs : List Char) : Bool :=
  match cs.reverse with
  | '/' :: stars => !stars.isEmpty && stars.all (· == '*')
  | '}' :: dashes => !dashes.isEmpty && dashes.all (· == '-')
  | ']' :: opening =>
    match opening.reverse with
    | ']' :: level => level.all (· == '=')
    | _ => false
  | _ => false

-- Cuts the line before the longest ending that is a closing mark up to white space.
def dropClosingMark : List Char → List Char
  | [] => []
  | c :: cs => if isClosingMark (trimChars (c :: cs)) then [] else c :: dropClosingMark cs

def dropOne (p : Char → Bool) : List Char → List Char
  | [] => []
  | c :: cs => if p c then cs else c :: cs

def afterLongBracket? : List Char → Option (List Char)
  | '[' :: cs =>
    match cs.dropWhile (· == '=') with
    | '[' :: rest => some rest
    | _ => none
  | _ => none

def afterOpeningMark? : List Char → Option (List Char)
  | '/' :: '*' :: cs => some (dropOne (· == '!') (cs.dropWhile (· == '*')))
  | '/' :: '/' :: cs => some (dropOne (fun c => c == '/' || c == '!') cs)
  | '*' :: cs =>
    match cs.dropWhile (· == '*') with
    | '/' :: rest => some rest
    | _ => some cs
  | '#' :: cs => some (dropOne (· == '!') (cs.dropWhile (· == '#')))
  | '-' :: '-' :: cs =>
    let dashes := cs.dropWhile (· == '-')
    let bracket := (afterLongBracket? dashes).getD dashes
    some (dropOne (fun c => c == '|' || c == '^') (bracket.dropWhile isBlank))
  | '{' :: '-' :: cs =>
    some (dropOne (· == '|') ((cs.dropWhile (· == '-')).dropWhile isBlank))
  | ';' :: cs => some (cs.dropWhile (· == ';'))
  | '%' :: cs => some (cs.dropWhile (· == '%'))
  | _ => none

def dropOpeningMark (line : List Char) : List Char :=
  match afterOpeningMark? (line.dropWhile isBlank) with
  | some rest => dropOne isBlank rest
  | none => line

def cleanLine (line : List Char) : List Char :=
  trimEndChars (dropOpeningMark (dropClosingMark line))

def dropOuterBlank (lines : List (List Char)) : List (List Char) :=
  let blank (line : List Char) : Bool := line.all isBlank
  ((lines.dropWhile blank).reverse.dropWhile blank).reverse

def joinLines (lines : List (List Char)) : List Char := ['\n'].intercalate lines

def cleanComment (raw : String) : String :=
  String.ofList (joinLines (dropOuterBlank ((lineChars raw.toList).map cleanLine)))

def unquoted? (quotes : List String) (s : String) : Option String :=
  quotes.findSome? fun quote =>
    if s.length ≥ 2 * quote.length && startsWith s quote && endsWith s quote then
      some (String.ofList ((s.toList.drop quote.length).take (s.length - 2 * quote.length)))
    else none

-- The content of a string literal that serves as documentation: without letters
-- before the quotes, the quotes, and the indentation of its lines.
def cleanDocstring (raw : String) : String :=
  let literal := dropStartWhile "rRuUbBfF".toList.contains (trim raw)
  let inner := (unquoted? ["\"\"\"", "'''", "\"", "'"] literal).getD literal
  String.ofList (joinLines (dropOuterBlank ((lineChars inner.toList).map trimChars)))

def isBlockComment (text : String) : Bool :=
  let t := trimStart text
  ["/*", "\x7b-", "--[", "\"\"\""].any (startsWith t)

def unquote (text : String) : String :=
  let t := trim text
  (unquoted? ["\"\"\"", "'''", "\"", "'", "\x60"] t).getD t

def cleanType (text : String) : String :=
  trim (dropStartWhile (· == '=') (dropPrefixes (dropStartWhile (· == ':') (trim text)) "->"))

end CodeEntities.Text
