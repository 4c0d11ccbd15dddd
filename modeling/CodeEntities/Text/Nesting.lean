import CodeEntities.Text.Split

namespace CodeEntities.Text

-- Nesting depth behind a character. A closing bracket without an opening one
-- makes the depth negative.
def bracketDepth (depth : Int) (c : Char) : Int :=
  if ['(', '[', '{'].contains c then depth + 1
  else if [')', ']', '}'].contains c then depth - 1
  else depth

def itemsFrom (depth : Int) : List Char → List (List Char)
  | [] => [[]]
  | c :: cs =>
    if c = ',' ∧ depth = 0 then [] :: itemsFrom 0 cs
    else
      match itemsFrom (bracketDepth depth c) cs with
      | [] => [[c]]
      | first :: rest => (c :: first) :: rest

def items (s : String) : List String :=
  let found := (itemsFrom 0 s.toList).map fun cs => trim (String.ofList cs)
  if found.getLast? == some "" then found.dropLast else found

-- Cuts at the arrows `->` at depth zero. A double arrow at depth zero ends a
-- context: what stands before it is dropped. `done` and `current` hold what is
-- cut off already, latest first.
def arrowsFrom (depth : Int) (done : List (List Char)) (current : List Char) :
    List Char → List (List Char)
  | [] => (current.reverse :: done).reverse
  | '=' :: '>' :: cs =>
    if depth = 0 then arrowsFrom 0 [] [] cs else arrowsFrom depth done ('>' :: '=' :: current) cs
  | '-' :: '>' :: cs =>
    if depth = 0 then arrowsFrom 0 (current.reverse :: done) [] cs
    else arrowsFrom depth done ('>' :: '-' :: current) cs
  | c :: cs => arrowsFrom (bracketDepth depth c) done (c :: current) cs

def arrowTypes (s : String) : List String :=
  ((arrowsFrom 0 [] [] s.toList).map fun cs => trim (String.ofList cs)).filter (! ·.isEmpty)

end CodeEntities.Text
