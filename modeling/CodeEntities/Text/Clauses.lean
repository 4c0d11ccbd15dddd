import CodeEntities.Text.Offset

namespace CodeEntities.Text

def charOffsets (offset : Nat) : List Char → List (Nat × Char)
  | [] => []
  | c :: cs => (offset, c) :: charOffsets (offset + c.utf8Size) cs

structure ClauseScan where
  found : List String := []
  depth : Nat := 0
  start : Nat := 0

-- A comma outside of braces ends a clause. A closing brace without an opening one is an ordinary
-- character. There is no result when the text cannot be cut.
def ClauseScan.read? (s : String) (scan : ClauseScan) : Nat × Char → Option ClauseScan
  | (offset, c) =>
    if c = '{' then some { scan with depth := scan.depth + 1 }
    else if c = '}' then some { scan with depth := scan.depth - 1 }
    else if c = ',' ∧ scan.depth = 0 then
      (slice? s scan.start offset).map fun clause =>
        { scan with found := scan.found ++ [clause], start := offset + 1 }
    else some scan

def clauses? (s : String) : Option (List String) :=
  ((charOffsets 0 s.toList).foldlM (ClauseScan.read? s) {}).bind fun scan =>
    (slice? s scan.start s.utf8ByteSize).map fun last => scan.found ++ [last]

def clauses (s : String) : List String := (clauses? s).getD []

end CodeEntities.Text
