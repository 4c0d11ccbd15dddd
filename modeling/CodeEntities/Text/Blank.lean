namespace CodeEntities.Text

-- White space of the Unicode standard (property White_Space). The trims and
-- word splits of the library use this class and no other.
def isBlank (c : Char) : Bool :=
  let n := c.toNat
  (9 ≤ n && n ≤ 13) || n == 32 || n == 0x85 || n == 0xA0 || n == 0x1680 ||
    (0x2000 ≤ n && n ≤ 0x200A) || n == 0x2028 || n == 0x2029 || n == 0x202F ||
    n == 0x205F || n == 0x3000

def dropTrailing (p : Char → Bool) : List Char → List Char
  | [] => []
  | c :: cs =>
    match dropTrailing p cs with
    | [] => if p c then [] else [c]
    | rest => c :: rest

def trimStartChars (cs : List Char) : List Char := cs.dropWhile isBlank

def trimEndChars (cs : List Char) : List Char := dropTrailing isBlank cs

def trimChars (cs : List Char) : List Char := trimEndChars (trimStartChars cs)

def trimStart (s : String) : String := String.ofList (trimStartChars s.toList)

def trimEnd (s : String) : String := String.ofList (trimEndChars s.toList)

def trim (s : String) : String := String.ofList (trimChars s.toList)

def dropStartWhile (p : Char → Bool) (s : String) : String := String.ofList (s.toList.dropWhile p)

def dropEndWhile (p : Char → Bool) (s : String) : String := String.ofList (dropTrailing p s.toList)

def trimMatches (p : Char → Bool) (s : String) : String := dropEndWhile p (dropStartWhile p s)

def nonBlank? (s : String) : Option String :=
  let t := trim s
  if t.isEmpty then none else some t

end CodeEntities.Text
