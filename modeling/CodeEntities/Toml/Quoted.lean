import CodeEntities.Toml.Scalar

namespace CodeEntities.Toml

def isPlain (c : Char) : Bool := c == '\t' || (0x20 ≤ c.toNat && c.toNat != 0x7F)

def codeChar? (digits : List Char) : Option Char :=
  let n := numberOf 16 digits
  if digits.all isHexDigit && n.isValidChar then some (Char.ofNat n) else none

def escaped? : Char → Option Char
  | 'b' => some '\x08'
  | 't' => some '\t'
  | 'n' => some '\n'
  | 'f' => some '\x0c'
  | 'r' => some '\r'
  | '"' => some '"'
  | '\\' => some '\\'
  | _ => none

def readLiteral (done : List Char) : List Char → Option (List Char × List Char)
  | [] => none
  | '\'' :: cs => some (done.reverse, cs)
  | c :: cs => if isPlain c then readLiteral (c :: done) cs else none

def readBasic (done : List Char) : List Char → Option (List Char × List Char)
  | [] => none
  | '"' :: cs => some (done.reverse, cs)
  | '\\' :: 'u' :: a :: b :: c :: d :: cs =>
    (codeChar? [a, b, c, d]).bind fun ch => readBasic (ch :: done) cs
  | '\\' :: 'U' :: a :: b :: c :: d :: e :: f :: g :: h :: cs =>
    (codeChar? [a, b, c, d, e, f, g, h]).bind fun ch => readBasic (ch :: done) cs
  | '\\' :: c :: cs => (escaped? c).bind fun ch => readBasic (ch :: done) cs
  | c :: cs => if isPlain c && c != '\\' then readBasic (c :: done) cs else none

-- Reads what stands between `'''` and `'''`; line ends become line feeds. Up to two
-- more quotes before the end belong to the text.
def readLiteralLines (done : List Char) : List Char → Option (List Char × List Char)
  | [] => none
  | '\'' :: '\'' :: '\'' :: '\'' :: '\'' :: cs => some (('\'' :: '\'' :: done).reverse, cs)
  | '\'' :: '\'' :: '\'' :: '\'' :: cs => some (('\'' :: done).reverse, cs)
  | '\'' :: '\'' :: '\'' :: cs => some (done.reverse, cs)
  | '\r' :: '\n' :: cs => readLiteralLines ('\n' :: done) cs
  | c :: cs => if isPlain c || c == '\n' then readLiteralLines (c :: done) cs else none

inductive Joining where
  | off
  -- Behind the backslash, before the line end.
  | toLineEnd
  -- Behind the line end.
  | toText
  deriving Repr, DecidableEq

def readBasicLines (mode : Joining) (done : List Char) : List Char → Option (List Char × List Char)
  | [] => none
  | ' ' :: cs => readBasicLines mode (if mode = .off then ' ' :: done else done) cs
  | '\t' :: cs => readBasicLines mode (if mode = .off then '\t' :: done else done) cs
  | '\r' :: '\n' :: cs =>
    if mode = .off then readBasicLines .off ('\n' :: done) cs else readBasicLines .toText done cs
  | '\n' :: cs =>
    if mode = .off then readBasicLines .off ('\n' :: done) cs else readBasicLines .toText done cs
  | '"' :: '"' :: '"' :: '"' :: '"' :: cs =>
    if mode = .toLineEnd then none else some (('"' :: '"' :: done).reverse, cs)
  | '"' :: '"' :: '"' :: '"' :: cs =>
    if mode = .toLineEnd then none else some (('"' :: done).reverse, cs)
  | '"' :: '"' :: '"' :: cs => if mode = .toLineEnd then none else some (done.reverse, cs)
  | '\\' :: 'u' :: a :: b :: c :: d :: cs =>
    if mode = .toLineEnd then none
    else (codeChar? [a, b, c, d]).bind fun ch => readBasicLines .off (ch :: done) cs
  | '\\' :: 'U' :: a :: b :: c :: d :: e :: f :: g :: h :: cs =>
    if mode = .toLineEnd then none
    else (codeChar? [a, b, c, d, e, f, g, h]).bind fun ch => readBasicLines .off (ch :: done) cs
  | '\\' :: '\r' :: '\n' :: cs =>
    if mode = .toLineEnd then none else readBasicLines .toText done cs
  | '\\' :: c :: cs =>
    if mode = .toLineEnd then none
    else if c = '\n' then readBasicLines .toText done cs
    else if c = ' ' || c = '\t' then readBasicLines .toLineEnd done cs
    else (escaped? c).bind fun ch => readBasicLines .off (ch :: done) cs
  | c :: cs =>
    if mode = .toLineEnd || !isPlain c || c = '\\' then none else readBasicLines .off (c :: done) cs

def dropFirstLineEnd : List Char → List Char
  | '\r' :: '\n' :: cs => cs
  | '\n' :: cs => cs
  | cs => cs

def readString? (cs : List Char) : Option (List Char × List Char) :=
  match cs with
  | '"' :: '"' :: '"' :: rest => readBasicLines .off [] (dropFirstLineEnd rest)
  | '\'' :: '\'' :: '\'' :: rest => readLiteralLines [] (dropFirstLineEnd rest)
  | '"' :: rest => readBasic [] rest
  | '\'' :: rest => readLiteral [] rest
  | _ => none

end CodeEntities.Toml
