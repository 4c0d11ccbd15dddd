import CodeEntities.Outline.Modifier
import Mathlib.Data.List.Basic
import Mathlib.Data.List.Induction

namespace CodeEntities

variable {α β : Type}

-- An entry of a list with what stands before and behind it.
structure Spot (α : Type) where
  before : List α
  entry : α
  after : List α

def spotsFrom (before : List α) : List α → List (Spot α)
  | [] => []
  | x :: rest => ⟨before, x, rest⟩ :: spotsFrom (before ++ [x]) rest

def spots (xs : List α) : List (Spot α) := spotsFrom [] xs

theorem spotsFrom_entries (before xs : List α) : (spotsFrom before xs).map (·.entry) = xs := by
  induction xs generalizing before with
  | nil => rfl
  | cons x rest ih => rw [spotsFrom, List.map_cons, ih]

theorem spots_entries (xs : List α) : (spots xs).map (·.entry) = xs := spotsFrom_entries [] xs

theorem mem_spotsFrom {before xs : List α} {s : Spot α} :
    s ∈ spotsFrom before xs ↔
      ∃ front, s.before = before ++ front ∧ xs = front ++ s.entry :: s.after := by
  obtain ⟨place, entry, after⟩ := s
  induction xs generalizing before with
  | nil => simp [spotsFrom]
  | cons x rest ih =>
    rw [spotsFrom, List.mem_cons, ih]
    constructor
    · rintro (here | ⟨front, there, rfl⟩)
      · cases here
        exact ⟨[], by simp, rfl⟩
      · exact ⟨x :: front, by simpa using there, rfl⟩
    · rintro ⟨front, there, same⟩
      cases front with
      | nil =>
        cases same
        exact .inl (by simp_all)
      | cons y front =>
        cases same
        exact .inr ⟨front, by simpa using there, rfl⟩

theorem mem_spots {xs : List α} {s : Spot α} :
    s ∈ spots xs ↔ xs = s.before ++ s.entry :: s.after := by
  rw [spots, mem_spotsFrom]
  constructor
  · rintro ⟨front, place, same⟩
    rw [place, List.nil_append]
    exact same
  · exact fun same => ⟨s.before, rfl, same⟩

def Spot.followed (x : α) (s : Spot α) : Spot α := { s with after := s.after ++ [x] }

theorem spotsFrom_concat (before xs : List α) (x : α) :
    spotsFrom before (xs ++ [x]) =
      (spotsFrom before xs).map (.followed x) ++ [⟨before ++ xs, x, []⟩] := by
  induction xs generalizing before with
  | nil => simp [spotsFrom]
  | cons y rest ih => simp [spotsFrom, ih, Spot.followed]

theorem spots_concat (xs : List α) (x : α) :
    spots (xs ++ [x]) = (spots xs).map (.followed x) ++ [⟨xs, x, []⟩] :=
  spotsFrom_concat [] xs x

def lastSaid? (read : α → Option β) (xs : List α) : Option β := (xs.filterMap read).getLast?

theorem lastSaid_concat (read : α → Option β) (xs : List α) (x : α) :
    lastSaid? read (xs ++ [x]) = (read x).or (lastSaid? read xs) := by
  unfold lastSaid?
  rw [List.filterMap_append]
  cases said : read x <;> simp [said]

def Modifiers.nameAccess (s : Modifiers) : Bool :=
  s.contains .isPrivate || s.contains .isProtected || s.contains .isPublic

theorem Visibility.ofModifiers_silent {s : Modifiers} (silent : s.nameAccess = false)
    (default : Visibility) : ofModifiers s default = default := by
  simp only [Modifiers.nameAccess, Bool.or_eq_false_iff] at silent
  simp [ofModifiers, silent]

end CodeEntities
