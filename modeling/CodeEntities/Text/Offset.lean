namespace CodeEntities.Text

def byteLength : List Char → Nat
  | [] => 0
  | c :: cs => c.utf8Size + byteLength cs

def dropBytes : Nat → List Char → Option (List Char)
  | 0, cs => some cs
  | _ + 1, [] => none
  | n + 1, c :: cs => if c.utf8Size ≤ n + 1 then dropBytes (n + 1 - c.utf8Size) cs else none

def takeBytes : Nat → List Char → Option (List Char)
  | 0, _ => some []
  | _ + 1, [] => none
  | n + 1, c :: cs =>
    if c.utf8Size ≤ n + 1 then (takeBytes (n + 1 - c.utf8Size) cs).map (c :: ·) else none

def isBoundary (cs : List Char) (offset : Nat) : Bool := (dropBytes offset cs).isSome

def sliceChars? (start stop : Nat) (cs : List Char) : Option (List Char) :=
  if start ≤ stop then (dropBytes start cs).bind (takeBytes (stop - start)) else none

def slice? (s : String) (start stop : Nat) : Option String :=
  (sliceChars? start stop s.toList).map String.ofList

def slice (s : String) (start stop : Nat) : String :=
  String.ofList ((sliceChars? start stop s.toList).getD [])

-- The last boundary at or before an offset, found by going back one byte at a time; none if the
-- search goes back beyond the start.
def floorBoundary? (cs : List Char) : Nat → Option Nat
  | 0 => if isBoundary cs 0 then some 0 else none
  | n + 1 => if isBoundary cs (n + 1) then some (n + 1) else floorBoundary? cs n

-- A text that is longer than a number of bytes is cut at the last boundary before it exceeds them;
-- none if there is none or the text cannot be cut there.
def truncate? (limit : Nat) (s : String) : Option String :=
  if limit < s.utf8ByteSize then
    (floorBoundary? s.toList limit).bind fun stop => (takeBytes stop s.toList).map String.ofList
  else some s

def truncate (limit : Nat) (s : String) : String := (truncate? limit s).getD ""

end CodeEntities.Text
