namespace CodeEntities.Glob

-- A part of a pattern for paths. Only the directory parts match a slash, and
-- `oneOf`, which matches any byte in its ranges or any byte outside of them.
inductive Token where
  | literal (c : Char)
  | any
  | star
  -- Any directories at the start.
  | leading
  -- A slash and anything behind it.
  | trailing
  -- A slash, or a slash with directories behind it.
  | between
  | oneOf (negated : Bool) (ranges : List (Char × Char))
  | alternatives (branches : List (List Token))
  deriving Repr, Inhabited

abbrev Pattern := List Token

def slash : UInt8 := 47

def bytes (s : String) : List UInt8 := s.toUTF8.toList

def afterSlashes : List UInt8 → List (List UInt8)
  | [] => []
  | b :: bs => if b = slash then bs :: afterSlashes bs else afterSlashes bs

def afterRun : List UInt8 → List (List UInt8)
  | [] => [[]]
  | b :: bs => if b = slash then [b :: bs] else (b :: bs) :: afterRun bs

def suffixes : List UInt8 → List (List UInt8)
  | [] => [[]]
  | b :: bs => (b :: bs) :: suffixes bs

-- Whether a byte lies in a range. The ends are compared by their bytes; where an
-- end has several, the last of the lower and the first of the upper end count.
def inRange (b : UInt8) (range : Char × Char) : Bool :=
  let low := bytes range.1.toString
  let high := bytes range.2.toString
  if range.1 = range.2 then low.contains b
  else
    low.dropLast.contains b || high.tail.contains b ||
      ((low.getLast?).any (· ≤ b) && (high.head?).any (b ≤ ·))

mutual

def Token.rests : Token → List UInt8 → List (List UInt8)
  | .literal c, s =>
    let mark := bytes c.toString
    if mark.isPrefixOf s then [s.drop mark.length] else []
  | .any, s =>
    match s with
    | b :: bs => if b = slash then [] else [bs]
    | [] => []
  | .star, s => afterRun s
  | .leading, s => s :: afterSlashes s
  | .trailing, s =>
    match s with
    | b :: bs => if b = slash then suffixes bs else []
    | [] => []
  | .between, s =>
    match s with
    | b :: bs => if b = slash then bs :: afterSlashes bs else []
    | [] => []
  | .oneOf negated ranges, s =>
    match s with
    | b :: bs => if ranges.any (inRange b) != negated then [bs] else []
    | [] => []
  | .alternatives branches, s =>
    if branches.all (·.isEmpty) then [s] else restsOfAny branches s

def restsOfAny : List (List Token) → List UInt8 → List (List UInt8)
  | [], _ => []
  | branch :: branches, s =>
    (if branch.isEmpty then [] else restsOfAll branch s) ++ restsOfAny branches s

def restsOfAll : List Token → List UInt8 → List (List UInt8)
  | [], s => [s]
  | t :: ts, s => (t.rests s).flatMap (restsOfAll ts)

end

def Pattern.matches (p : Pattern) (path : String) : Bool :=
  match p with
  | [.leading] => true
  | _ => (restsOfAll p (bytes path)).any (·.isEmpty)

-- A pattern that is half read: the parts of the branch at hand, latest first, the
-- alternatives that are open around it with their finished branches, the
-- character before, and whether brackets stand for themselves.
structure Reading where
  current : List Token := []
  outer : List (List Token × List (List Token)) := []
  previous : Option Char := none
  plainBrackets : Bool := false

namespace Reading

def push (r : Reading) (tokens : List Token) (last : Char) : Reading :=
  { r with current := tokens ++ r.current, previous := some last }

-- Two stars stand for directories where they fill the space between slashes, and
-- for two single stars anywhere else. `next` is the character behind them.
def pushStars (r : Reading) (next : Option Char) : Reading × Bool :=
  let plain := (r.push [.star, .star] '*', false)
  let isEnd := next.isNone || (!r.outer.isEmpty && (next == some ',' || next == some '}'))
  match r.current with
  | [] =>
    if next.isNone then (r.push [.leading] '*', false)
    else if next == some '/' then (r.push [.leading] '/', true)
    else plain
  | before :: earlier =>
    let opens := r.previous == some '/' ||
      (!r.outer.isEmpty && (r.previous == some ',' || r.previous == some '{'))
    if !opens || !(isEnd || next == some '/') then plain
    else
      let token :=
        match before with
        | .leading => .leading
        | .trailing => .trailing
        | _ => if isEnd then .trailing else .between
      let r := { r with current := earlier }
      if isEnd then (r.push [token] '*', false) else (r.push [token] '/', true)

def openBranch (r : Reading) : Reading :=
  { r with current := [], outer := (r.current, []) :: r.outer, previous := some '{' }

def nextBranch (r : Reading) : Reading :=
  match r.outer with
  | [] => r.push [.literal ','] ','
  | (around, branches) :: outer =>
    { r with
      current := []
      outer := (around, branches ++ [r.current.reverse]) :: outer
      previous := some ',' }

def closeBranches (r : Reading) : Option Reading :=
  match r.outer with
  | [] => none
  | (around, branches) :: outer =>
    some { r with
      current := .alternatives (branches ++ [r.current.reverse]) :: around
      outer
      previous := some '}' }

end Reading

-- What an opening bracket starts: a class of ranges, or no class for want of a
-- closing bracket, or one with a range that runs backwards.
inductive ClassReading where
  | closed (ranges : List (Char × Char)) (rest : List Char)
  | unclosed
  | backwards

-- The ranges of a character class up to its closing bracket, latest first. A
-- bracket that comes first and a dash at either end stand for themselves.
def readRanges (isFirst inRange : Bool) (ranges : List (Char × Char)) : List Char → ClassReading
  | [] => .unclosed
  | c :: cs =>
    if c = ']' ∧ ¬isFirst then .closed (if inRange then ('-', '-') :: ranges else ranges) cs
    else if c = '-' ∧ ¬isFirst ∧ ¬inRange then readRanges false true ranges cs
    else
      match inRange, ranges with
      | true, (low, _) :: more =>
        if c < low then .backwards else readRanges false false ((low, c) :: more) cs
      | _, _ => readRanges false false ((c, c) :: ranges) cs

-- Reads what follows an opening bracket. Without a closing one it stands for
-- itself, as do all brackets behind it.
def Reading.bracket (r : Reading) (cs : List Char) : Option (Reading × List Char) :=
  let plain := ({ r with plainBrackets := true }.push [.literal '['] '[', cs)
  if r.plainBrackets then some plain
  else
    let negated := cs.head? == some '!' || cs.head? == some '^'
    match readRanges true false [] (if negated then cs.tail else cs) with
    | .closed ranges rest => some (r.push [.oneOf negated ranges.reverse] ']', rest)
    | .unclosed => some plain
    | .backwards => none

def readFrom : Nat → Reading → List Char → Option Pattern
  | 0, _, _ => none
  | _ + 1, r, [] => if r.outer.isEmpty then some r.current.reverse else none
  | fuel + 1, r, c :: cs =>
    if c = '?' then readFrom fuel (r.push [.any] c) cs
    else if c = '*' then
      match cs with
      | '*' :: rest =>
        let (r, tookSlash) := r.pushStars rest.head?
        readFrom fuel r (if tookSlash then rest.tail else rest)
      | _ => readFrom fuel (r.push [.star] c) cs
    else if c = '[' then
      match r.bracket cs with
      | some (r, rest) => readFrom fuel r rest
      | none => none
    else if c = '{' then readFrom fuel r.openBranch cs
    else if c = '}' then r.closeBranches.bind fun r => readFrom fuel r cs
    else if c = ',' then readFrom fuel r.nextBranch cs
    else if c = '\\' then
      match cs with
      | escaped :: rest => readFrom fuel (r.push [.literal escaped] escaped) rest
      | [] => none
    else readFrom fuel (r.push [.literal c] c) cs

def parse? (text : String) : Option Pattern := readFrom (text.length + 1) {} text.toList

end CodeEntities.Glob
