namespace CodeEntities

inductive Modifier where
  | exported | async | static | abstract | readonly | isPublic | isPrivate | isProtected
  | override | final | const
  deriving Repr, DecidableEq, Inhabited

namespace Modifier

def all : List Modifier := [
  exported, async, static, abstract, readonly, isPublic, isPrivate, isProtected, override, final,
  const]

theorem mem_all (m : Modifier) : m ∈ all := by cases m <;> decide

def name : Modifier → String
  | exported => "export"
  | async => "async"
  | static => "static"
  | abstract => "abstract"
  | readonly => "readonly"
  | isPublic => "public"
  | isPrivate => "private"
  | isProtected => "protected"
  | override => "override"
  | final => "final"
  | const => "const"

def ofName? (s : String) : Option Modifier := all.find? (·.name == s)

-- Keywords of a language without an exact counterpart stand for the closest modifier.
def synonyms : List (String × Modifier) := [
  ("pub", exported), ("suspend", async), ("val", readonly), ("open", isPublic),
  ("fileprivate", isPrivate), ("sealed", final), ("constexpr", const)]

def ofKeyword? (keyword : String) : Option Modifier :=
  (ofName? keyword).or ((synonyms.find? (·.1 == keyword)).map (·.2))

end Modifier

-- A set of modifiers: the list of its members in the fixed order, each once.
structure Modifiers where
  members : List Modifier
  ordered : members = Modifier.all.filter fun m => members.contains m
  deriving DecidableEq, Repr

namespace Modifiers

theorem contains_filter_all (xs : List Modifier) (m : Modifier) :
    (Modifier.all.filter fun k => xs.contains k).contains m = xs.contains m := by
  rw [Bool.eq_iff_iff]
  simp [List.mem_filter, Modifier.mem_all]

def ofList (xs : List Modifier) : Modifiers where
  members := Modifier.all.filter fun m => xs.contains m
  ordered := by simp only [contains_filter_all]

def empty : Modifiers := ofList []

instance : Inhabited Modifiers := ⟨empty⟩

def contains (s : Modifiers) (m : Modifier) : Bool := s.members.contains m

@[simp] theorem contains_ofList (xs : List Modifier) (m : Modifier) :
    (ofList xs).contains m = xs.contains m :=
  contains_filter_all xs m

theorem ext_contains {s t : Modifiers} (h : ∀ m, s.contains m = t.contains m) : s = t := by
  have same : s.members = t.members := by
    rw [s.ordered, t.ordered]
    exact List.filter_congr fun m _ => h m
  cases s; cases t; cases same; rfl

@[simp] theorem ofList_members (s : Modifiers) : ofList s.members = s :=
  ext_contains fun m => contains_ofList s.members m

def insert (s : Modifiers) (m : Modifier) : Modifiers := ofList (m :: s.members)

@[simp] theorem contains_insert (s : Modifiers) (m k : Modifier) :
    (s.insert m).contains k = (k == m || s.contains k) := by
  rw [insert, contains_ofList, List.contains_cons, contains]

def union (s t : Modifiers) : Modifiers := ofList (s.members ++ t.members)

@[simp] theorem contains_union (s t : Modifiers) (k : Modifier) :
    (s.union t).contains k = (s.contains k || t.contains k) := by
  rw [union, contains_ofList]
  simp [contains]

def size (s : Modifiers) : Nat := s.members.length

def isEmpty (s : Modifiers) : Bool := s.members.isEmpty

def insertIf (s : Modifiers) (condition : Bool) (m : Modifier) : Modifiers :=
  if condition then s.insert m else s

end Modifiers

-- Who may use a member. Read off keywords where a language has them and off naming conventions
-- elsewhere.
inductive Visibility where
  | isPublic | isPrivate | isProtected | internal
  deriving Repr, DecidableEq, Inhabited

namespace Visibility

def all : List Visibility := [isPublic, isPrivate, isProtected, internal]

def name : Visibility → String
  | isPublic => "public"
  | isPrivate => "private"
  | isProtected => "protected"
  | internal => "internal"

def ofName? (s : String) : Option Visibility := all.find? (·.name == s)

def synonyms : List (String × Visibility) := [
  ("pub", isPublic), ("open", isPublic), ("fileprivate", isPrivate)]

def ofKeyword? (keyword : String) : Option Visibility :=
  (ofName? keyword).or ((synonyms.find? (·.1 == keyword)).map (·.2))

def modifier? : Visibility → Option Modifier
  | isPublic => some .isPublic
  | isPrivate => some .isPrivate
  | isProtected => some .isProtected
  | internal => none

-- The strictest keyword of a set decides; without one the default holds.
def ofModifiers (s : Modifiers) (default : Visibility) : Visibility :=
  if s.contains .isPrivate then isPrivate
  else if s.contains .isProtected then isProtected
  else if s.contains .isPublic then isPublic
  else default

end Visibility

end CodeEntities
