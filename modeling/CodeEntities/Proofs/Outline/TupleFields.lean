import CodeEntities.Proofs.Outline.Sections
import CodeEntities.Rules.Rust
import Mathlib.Data.List.DropRight
import Mathlib.Data.List.Forall2

namespace CodeEntities.Rust

variable {cx : Context} {n body : Node}

def isFieldType (c : Node) : Bool := c.label.field == some "type"

def typeSpots (body : Node) : List (Spot Node) :=
  (spots body.children).filter fun s => isFieldType s.entry

-- The visibility modifiers between a type and the one before it.
def ownModifiers (s : Spot Node) : List Node :=
  (s.before.rtakeWhile fun c => !isFieldType c).filter (·.kind == "visibility_modifier")

def modifierLevel (cx : Context) (m : Node) : Visibility :=
  if cx.trimmed m == "pub" then .isPublic else .internal

structure DecidedBy (cx : Context) (own : List Node) (v : Visibility) : Prop where
  isPublic : v = .isPublic ↔ ∃ m ∈ own, cx.trimmed m = "pub"
  internal : v = .internal ↔ ∃ m ∈ own, cx.trimmed m ≠ "pub"
  isPrivate : v = .isPrivate ↔ own = []

theorem typeSpots_types (body : Node) :
    (typeSpots body).map (·.entry) = body.childrenByField "type" := by
  have entries := spots_entries body.children
  rw [Node.childrenByField, ← entries, List.filter_map]
  rfl

-- Whatever stands before its type, every field has the visibility of the first modifier of the
-- list, unless its type has a keyword of its own.
theorem fields_visibilities (found : n.field? "body" = some body)
    (isTuple : body.kind = "ordered_field_declaration_list") :
    (fields cx n).map (·.visibility) =
      (typeSpots body).map fun s => .ofModifiers (cx.modifiers s.entry) (visibility cx body) := by
  let level (type : Node) := Visibility.ofModifiers (cx.modifiers type) (visibility cx body)
  have types : (typeSpots body).map (fun s => level s.entry) =
      (body.childrenByField "type").map level := by
    rw [← typeSpots_types, List.map_map]
    rfl
  have indexed : (body.childrenByField "type").zipIdx.map (level ∘ Prod.fst) =
      (body.childrenByField "type").map level := by
    rw [← List.map_map, List.zipIdx_map_fst]
  rw [types, ← indexed, fields, found]
  simp only [isTuple]
  rw [if_neg (by decide), if_pos (by decide), List.map_map]
  rfl

theorem visibility_first (cx : Context) (body : Node) : visibility cx body =
    ((body.children.find? (·.kind == "visibility_modifier")).map (modifierLevel cx)).getD
      .isPrivate := by
  have kinds : (fun c : Node => ["visibility_modifier"].contains c.kind) =
      (·.kind == "visibility_modifier") := by
    funext c
    exact Bool.or_false _
  rw [visibility, Node.childOfKind?, kinds]
  cases body.children.find? (·.kind == "visibility_modifier") with
  | none => rfl
  | some m => rw [Option.map_some, Option.getD_some, modifierLevel]

theorem modifierLevel_public {m : Node} :
    modifierLevel cx m = .isPublic ↔ cx.trimmed m = "pub" := by
  unfold modifierLevel
  split <;> simp_all

theorem modifierLevel_internal {m : Node} :
    modifierLevel cx m = .internal ↔ cx.trimmed m ≠ "pub" := by
  unfold modifierLevel
  split <;> simp_all

theorem modifierLevel_marked (cx : Context) (m : Node) : modifierLevel cx m ≠ .isPrivate := by
  unfold modifierLevel
  split <;> simp

theorem decidedBy_iff {own : List Node} {v : Visibility} : DecidedBy cx own v ↔
    own = [] ∧ v = .isPrivate ∨ own ≠ [] ∧ ∀ m ∈ own, modifierLevel cx m = v := by
  constructor
  · intro decided
    by_cases bare : own = []
    · exact .inl ⟨bare, decided.isPrivate.mpr bare⟩
    · refine .inr ⟨bare, fun m member => ?_⟩
      by_cases isPub : cx.trimmed m = "pub"
      · rw [decided.isPublic.mpr ⟨m, member, isPub⟩, modifierLevel_public]
        exact isPub
      · rw [decided.internal.mpr ⟨m, member, isPub⟩, modifierLevel_internal]
        exact isPub
  · rintro (⟨rfl, rfl⟩ | ⟨filled, level⟩)
    · exact ⟨by simp, by simp, by simp⟩
    · obtain ⟨first, member⟩ := List.exists_mem_of_ne_nil own filled
      have own_iff (w : Visibility) : v = w ↔ ∃ m ∈ own, modifierLevel cx m = w := by
        constructor
        · rintro rfl
          exact ⟨first, member, level first member⟩
        · rintro ⟨m, there, same⟩
          exact (level m there).symm.trans same
      refine ⟨?_, ?_, ?_⟩
      · simp only [own_iff, modifierLevel_public]
      · simp only [own_iff, modifierLevel_internal]
      · refine iff_of_false (fun unmarked => ?_) filled
        exact modifierLevel_marked cx first ((level first member).trans unmarked)

theorem visibility_unmarked : visibility cx body = .isPrivate ↔
    ∀ c ∈ body.children, c.kind ≠ "visibility_modifier" := by
  rw [visibility_first]
  cases found : body.children.find? (·.kind == "visibility_modifier") with
  | none =>
    refine iff_of_true rfl fun c child isModifier => ?_
    exact List.find?_eq_none.mp found c child (beq_iff_eq.mpr isModifier)
  | some m =>
    rw [Option.map_some, Option.getD_some]
    refine iff_of_false (modifierLevel_marked cx m) fun bare => ?_
    have isModifier := List.find?_some found
    exact bare m (List.mem_of_find?_eq_some found) (beq_iff_eq.mp isModifier)

theorem spot_child {s : Spot Node} {c : Node} (member : s ∈ typeSpots body)
    (before : c ∈ s.before) : c ∈ body.children := by
  rw [mem_spots.mp (List.mem_filter.mp member).1]
  exact List.mem_append_left _ before

theorem ownModifiers_before {s : Spot Node} {m : Node} (own : m ∈ ownModifiers s) :
    m ∈ s.before ∧ m.kind = "visibility_modifier" := by
  obtain ⟨near, isModifier⟩ := List.mem_filter.mp own
  exact ⟨(List.rtakeWhile_suffix _ _).subset near, eq_of_beq isModifier⟩

theorem visibility_of_first {v : Visibility} (nonempty : typeSpots body ≠ [])
    (marked : ∀ s ∈ typeSpots body, ownModifiers s ≠ [] ∧
      ∀ m ∈ ownModifiers s, modifierLevel cx m = v) : visibility cx body = v := by
  obtain ⟨s, member⟩ := List.exists_mem_of_ne_nil _ nonempty
  obtain ⟨place, isType⟩ := List.mem_filter.mp member
  have typed : s.entry ∈ body.children := by
    rw [mem_spots.mp place]
    exact List.mem_append_right _ (List.mem_cons_self ..)
  cases found : body.children.find? isFieldType with
  | none => exact absurd isType (List.find?_eq_none.mp found _ typed)
  | some type =>
    obtain ⟨isType, front, after, children, bare⟩ := List.find?_eq_some_iff_append.mp found
    have first : ⟨front, type, after⟩ ∈ typeSpots body :=
      List.mem_filter.mpr ⟨mem_spots.mpr children, isType⟩
    have own : ownModifiers ⟨front, type, after⟩ = front.filter (·.kind == "visibility_modifier") :=
      congrArg _ (List.rtakeWhile_eq_self_iff.mpr bare)
    obtain ⟨filled, level⟩ := marked _ first
    obtain ⟨m, more, read⟩ := List.exists_cons_of_ne_nil filled
    have lead : front.find? (·.kind == "visibility_modifier") = some m := by
      rw [← List.head?_filter, ← own, read, List.head?_cons]
    rw [visibility_first, children, List.find?_append, lead, Option.some_or, Option.map_some,
      Option.getD_some]
    exact level m (read ▸ List.mem_cons_self ..)

-- The fields of a tuple struct have the visibility of the first modifier of the list. This is
-- what their own modifiers say if and only if the list has no modifier, or each field has one and
-- all are of one level.
theorem tuple_fields_decided_iff (found : n.field? "body" = some body)
    (isTuple : body.kind = "ordered_field_declaration_list") :
    (fields cx n).map (·.visibility) =
        (typeSpots body).map (fun s => .ofModifiers (cx.modifiers s.entry) (visibility cx body)) ∧
      ((∀ s ∈ typeSpots body, (cx.modifiers s.entry).nameAccess = false) →
        (List.Forall₂ (fun s f => DecidedBy cx (ownModifiers s) f.visibility)
            (typeSpots body) (fields cx n) ↔
          (∀ c ∈ body.children, c.kind ≠ "visibility_modifier") ∨
          ∃ v, ∀ s ∈ typeSpots body, ownModifiers s ≠ [] ∧
            ∀ m ∈ ownModifiers s, modifierLevel cx m = v)) := by
  have visibilities := @fields_visibilities cx n body found isTuple
  refine ⟨visibilities, fun silent => ?_⟩
  have all_iff : List.Forall₂ (fun s f => DecidedBy cx (ownModifiers s) f.visibility)
      (typeSpots body) (fields cx n) ↔
        ∀ s ∈ typeSpots body, DecidedBy cx (ownModifiers s) (visibility cx body) := by
    rw [← List.forall₂_map_right_iff, visibilities, List.forall₂_map_right_iff, List.forall₂_same]
    refine forall₂_congr fun s member => ?_
    rw [Visibility.ofModifiers_silent (silent s member)]
  rw [all_iff]
  constructor
  · intro decided
    by_cases bare : visibility cx body = .isPrivate
    · exact .inl (visibility_unmarked.mp bare)
    · exact .inr ⟨visibility cx body, fun s member =>
        (decidedBy_iff.mp (decided s member)).resolve_left fun unmarked => bare unmarked.2⟩
  · rintro (bare | ⟨v, marked⟩) s member
    · have unmarked : ownModifiers s = [] := List.eq_nil_iff_forall_not_mem.mpr fun m own => by
        obtain ⟨before, isModifier⟩ := ownModifiers_before own
        exact bare m (spot_child member before) isModifier
      exact decidedBy_iff.mpr (.inl ⟨unmarked, visibility_unmarked.mpr bare⟩)
    · rw [visibility_of_first (List.ne_nil_of_mem member) marked]
      exact decidedBy_iff.mpr (.inr (marked s member))

def pairStruct (stop : Nat) (second : List Tree) : Tree :=
  .whole "struct_item" 0 (stop + 1) none [
    .token "struct" 0,
    .whole "type_identifier" 7 8 (some "name") [],
    .whole "ordered_field_declaration_list" 8 stop (some "body") ([
      .token "(" 8,
      .whole "visibility_modifier" 9 12 none [.token "pub" 9],
      .whole "primitive_type" 13 16 (some "type") [],
      .token "," 16] ++ second ++ [.token ")" (stop - 1)]),
    .token ";" stop]

def listOf (t : Tree) : Node := ((Node.root t).field? "body").getD (.root t)

def openPair : Tree := pairStruct 29 [
  .whole "visibility_modifier" 18 21 none [.token "pub" 18],
  .whole "type_identifier" 22 28 (some "type") []]

theorem open_pair_decided :
    let cx : Context := ⟨"struct P(pub i32, pub String);\n", "m.rs", .rust, {}⟩
    let n : Node := .root openPair
    (n.field? "body" = some (listOf openPair) ∧
        (listOf openPair).kind = "ordered_field_declaration_list") ∧
      (∀ s ∈ typeSpots (listOf openPair), (cx.modifiers s.entry).nameAccess = false) ∧
      (fields cx n).map (·.visibility) = [.isPublic, .isPublic] ∧
      List.Forall₂ (fun s f => DecidedBy cx (ownModifiers s) f.visibility)
        (typeSpots (listOf openPair)) (fields cx n) := by
  intro cx n
  have silent : ∀ s ∈ typeSpots (listOf openPair), (cx.modifiers s.entry).nameAccess = false := by
    decide +kernel
  have marked : ∀ s ∈ typeSpots (listOf openPair), ownModifiers s ≠ [] ∧
      ∀ m ∈ ownModifiers s, modifierLevel cx m = .isPublic := by
    decide +kernel
  have decided := @tuple_fields_decided_iff cx n (listOf openPair) rfl rfl
  refine ⟨⟨rfl, rfl⟩, silent, by decide +kernel, (decided.2 silent).mpr (.inr ⟨_, marked⟩)⟩

def halfOpenPair : Tree := pairStruct 25 [.whole "type_identifier" 18 24 (some "type") []]

-- The second field has no modifier of its own and is public all the same.
theorem half_open_pair_not_decided :
    let cx : Context := ⟨"struct P(pub i32, String);\n", "m.rs", .rust, {}⟩
    let n : Node := .root halfOpenPair
    (fields cx n).map (·.visibility) = [.isPublic, .isPublic] ∧
      (typeSpots (listOf halfOpenPair)).map (fun s => (ownModifiers s).map cx.text) =
        [["pub"], []] ∧
      ¬ List.Forall₂ (fun s f => DecidedBy cx (ownModifiers s) f.visibility)
        (typeSpots (listOf halfOpenPair)) (fields cx n) := by
  intro cx n
  refine ⟨by decide +kernel, by decide +kernel, fun decided => ?_⟩
  have second := decided.get (i := 1) (by decide +kernel) (by decide +kernel)
  have unmarked := second.isPrivate.mpr rfl
  revert unmarked
  decide +kernel

end CodeEntities.Rust
