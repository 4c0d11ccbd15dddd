import CodeEntities.Text.Blank

namespace CodeEntities.Text

-- Pieces between the separators; joining them with the separators gives the
-- text back, so there is always at least one piece.
def pieces (isSeparator : Char → Bool) : List Char → List (List Char)
  | [] => [[]]
  | c :: cs =>
    if isSeparator c then [] :: pieces isSeparator cs
    else
      match pieces isSeparator cs with
      | [] => [[c]]
      | first :: rest => (c :: first) :: rest

theorem pieces_ne_nil (p : Char → Bool) (cs : List Char) : pieces p cs ≠ [] := by
  cases cs with
  | nil => simp [pieces]
  | cons c cs =>
    unfold pieces
    split
    · simp
    · split <;> simp

def split (isSeparator : Char → Bool) (s : String) : List String :=
  (pieces isSeparator s.toList).map String.ofList

def words (s : String) : List String := (split isBlank s).filter (! ·.isEmpty)

-- A line ends at a line feed, together with one carriage return before it. The
-- text after the last line feed is a line only if it is not empty.
def lineChars (cs : List Char) : List (List Char) :=
  let dropReturn (line : List Char) : List Char :=
    match line.reverse with
    | '\r' :: rest => rest.reverse
    | _ => line
  let parts := pieces (· == '\n') cs
  match parts.getLast? with
  | some [] => parts.dropLast.map dropReturn
  | some last => parts.dropLast.map dropReturn ++ [last]
  | none => []

def lines (s : String) : List String := (lineChars s.toList).map String.ofList

def cutChars (mark : List Char) : List Char → Option (List Char × List Char)
  | [] => if mark.isEmpty then some ([], []) else none
  | c :: cs =>
    if mark.isPrefixOf (c :: cs) then some ([], (c :: cs).drop mark.length)
    else (cutChars mark cs).map fun (before, after) => (c :: before, after)

def cutLastChars (mark : List Char) : List Char → Option (List Char × List Char)
  | [] => if mark.isEmpty then some ([], []) else none
  | c :: cs =>
    match cutLastChars mark cs with
    | some (before, after) => some (c :: before, after)
    | none =>
      if mark.isPrefixOf (c :: cs) then some ([], (c :: cs).drop mark.length) else none

private def ofPair : List Char × List Char → String × String
  | (a, b) => (String.ofList a, String.ofList b)

def cut? (s mark : String) : Option (String × String) :=
  (cutChars mark.toList s.toList).map ofPair

def cutLast? (s mark : String) : Option (String × String) :=
  (cutLastChars mark.toList s.toList).map ofPair

def contains (s mark : String) : Bool := (cutChars mark.toList s.toList).isSome

def before (s mark : String) : String := ((cut? s mark).map (·.1)).getD s

def afterLast (s mark : String) : String := ((cutLast? s mark).map (·.2)).getD s

def startsWith (s start : String) : Bool := start.toList.isPrefixOf s.toList

def endsWith (s stop : String) : Bool := stop.toList.isSuffixOf s.toList

def dropPrefix? (s start : String) : Option String :=
  if startsWith s start then some (String.ofList (s.toList.drop start.length)) else none

def dropSuffix? (s stop : String) : Option String :=
  if endsWith s stop then some (String.ofList (s.toList.take (s.length - stop.length))) else none

def dropCopies (mark : List Char) : Nat → List Char → List Char
  | 0, cs => cs
  | n + 1, cs => if mark.isPrefixOf cs then dropCopies mark n (cs.drop mark.length) else cs

def dropPrefixes (s mark : String) : String :=
  String.ofList (dropCopies mark.toList s.length s.toList)

-- Replaces the occurrences of a mark from left to right; `skip` counts the
-- characters of the occurrence that is being passed over.
def replaceChars (mark new : List Char) (skip : Nat) : List Char → List Char
  | [] => []
  | c :: cs =>
    match skip with
    | k + 1 => replaceChars mark new k cs
    | 0 =>
      if mark.isPrefixOf (c :: cs) then new ++ replaceChars mark new (mark.length - 1) cs
      else c :: replaceChars mark new 0 cs

def replace (s mark new : String) : String :=
  String.ofList (replaceChars mark.toList new.toList 0 s.toList)

def partsChars (mark : List Char) (skip : Nat) : List Char → List (List Char)
  | [] => [[]]
  | c :: cs =>
    match skip with
    | k + 1 => partsChars mark k cs
    | 0 =>
      if mark.isPrefixOf (c :: cs) then [] :: partsChars mark (mark.length - 1) cs
      else
        match partsChars mark 0 cs with
        | [] => [[c]]
        | first :: rest => (c :: first) :: rest

def parts (s mark : String) : List String := (partsChars mark.toList 0 s.toList).map String.ofList

def join (separator : String) (items : List String) : String := separator.intercalate items

end CodeEntities.Text
