namespace CodeEntities

-- What the grammar engine says about one node of a syntax tree. Offsets count
-- bytes of the source. A field lookup normally finds the first child that
-- carries the field; `lookups` records the fields where it does not: they lead
-- to a deeper descendant (first child index and the indexes below it) or nowhere.
structure Label where
  kind : String
  named : Bool
  missing : Bool
  error : Bool
  hasError : Bool
  start : Nat
  stop : Nat
  field : Option String
  lookups : List (String × Option (Nat × List Nat))
  deriving Repr, Inhabited

inductive Tree where
  | mk (label : Label) (children : List Tree)
  deriving Repr, Inhabited

namespace Tree

def label : Tree → Label
  | mk label _ => label

def children : Tree → List Tree
  | mk _ children => children

def whole (kind : String) (start stop : Nat) (field : Option String) (children : List Tree) : Tree :=
  .mk
    { kind, start, stop, field, named := true, missing := false, error := false, hasError := false
      lookups := [] }
    children

def token (spelling : String) (start : Nat) : Tree :=
  .mk
    { kind := spelling, start, stop := start + spelling.utf8ByteSize, field := none, named := false
      missing := false, error := false, hasError := false, lookups := [] }
    []

mutual

def size : Tree → Nat
  | mk _ children => 1 + sizeAll children

def sizeAll : List Tree → Nat
  | [] => 0
  | t :: ts => size t + sizeAll ts

end

theorem sizeAll_append (ts us : List Tree) : sizeAll (ts ++ us) = sizeAll ts + sizeAll us := by
  induction ts with
  | nil => simp [sizeAll]
  | cons t ts ih => simp [sizeAll, ih, Nat.add_assoc]

theorem sizeAll_perm {ts us : List Tree} (h : ts.Perm us) : sizeAll ts = sizeAll us := by
  induction h with
  | nil => rfl
  | cons t _ ih => rw [sizeAll, sizeAll, ih]
  | swap t u ts => exact Nat.add_left_comm ..
  | trans _ _ first second => exact first.trans second

theorem sizeAll_sublist {ts us : List Tree} (h : ts.Sublist us) : sizeAll ts ≤ sizeAll us := by
  induction h with
  | slnil => exact Nat.le_refl _
  | cons u _ ih => exact Nat.le_trans ih (Nat.le_add_left ..)
  | cons_cons u _ ih => exact Nat.add_le_add_left ih _

theorem size_eq (t : Tree) : t.size = 1 + sizeAll t.children := by
  cases t
  rfl

theorem size_pos (t : Tree) : 0 < t.size := by
  cases t
  simp only [size]
  omega

theorem size_le_sizeAll {t : Tree} {ts : List Tree} (h : t ∈ ts) : t.size ≤ sizeAll ts := by
  induction ts with
  | nil => cases h
  | cons u us ih =>
    rcases List.mem_cons.mp h with rfl | later
    · simp [sizeAll]
    · have := ih later
      simp [sizeAll]; omega

theorem size_lt_of_mem {t u : Tree} (h : u ∈ t.children) : u.size < t.size := by
  cases t with
  | mk label children =>
    have : u.size ≤ sizeAll children := size_le_sizeAll h
    simp [size]; omega

end Tree

end CodeEntities
