import CodeEntities.Proofs.Tree.ModuleLevel
import Mathlib.Data.Option.Basic
import Mathlib.Tactic.Choose

namespace CodeEntities

-- How the fields of nodes are looked up. A grammar is free in where a field leads to.
abbrev Lookup := Node → String → Option Node

namespace Node

variable {n m : Node} {p q : List Nat}

theorem size_descendant (below : m ∈ n.descendants) : m.size < n.size := by
  obtain ⟨c, child, deeper⟩ := mem_descendants.mp below
  exact Nat.lt_of_le_of_lt (size_preorder deeper) (size_child child)

theorem descend_append (found : descend p n = some m) : descend (p ++ q) n = descend q m := by
  induction p generalizing n with
  | nil => cases found; rfl
  | cons i p ih =>
    obtain ⟨c, child, below⟩ := Option.bind_eq_some_iff.mp found
    simp only [List.cons_append, descend, child, Option.bind_some, ih below]

theorem preorder_descend (below : m ∈ n.preorder) : ∃ p, descend p n = some m := by
  induction n using Node.induction with
  | step n ih =>
    rcases mem_preorder.mp below with rfl | ⟨c, child, deeper⟩
    · exact ⟨[], rfl⟩
    · obtain ⟨i, place⟩ := List.mem_iff_getElem?.mp child
      obtain ⟨p, found⟩ := ih c child deeper
      exact ⟨i :: p, by simp only [descend, place, Option.bind_some, found]⟩

theorem descendants_descend (below : m ∈ n.descendants) :
    ∃ first rest, descend (first :: rest) n = some m := by
  obtain ⟨p, found⟩ := preorder_descend ((descendants_sublist n).subset below)
  cases p with
  | nil =>
    cases found
    exact absurd (size_descendant below) (Nat.lt_irrefl _)
  | cons first rest => exact ⟨first, rest, found⟩

end Node

namespace Lookup

open Node (root descend)

variable {lookup : Lookup} {n m : Node} {t : Tree} {field : String}

-- Each lookup from a node of the tree yields one of its proper descendants.
def Descends (lookup : Lookup) (root : Node) : Prop :=
  ∀ n ∈ root.preorder, ∀ field m, lookup n field = some m → m ∈ n.descendants

theorem field_descends (root : Node) : Descends Node.field? root := by
  intro n _ field m found
  unfold Node.field? at found
  split at found
  · obtain ⟨c, child, below⟩ := Option.bind_eq_some_iff.mp found
    exact Node.mem_descendants.mpr
      ⟨c, List.mem_of_getElem? child, Node.descend_mem_preorder below⟩
  · cases found
  · exact Node.mem_descendants.mpr
      ⟨m, List.mem_of_find?_eq_some found, Node.self_mem_preorder m⟩

theorem Descends.step {root : Node} (descends : lookup.Descends root) (inside : n ∈ root.preorder)
    (found : lookup n field = some m) : m ∈ root.preorder ∧ m.size < n.size := by
  have below := descends n inside field m found
  have deeper := (Node.descendants_sublist n).subset below
  exact ⟨Node.preorder_trans inside deeper, Node.size_descendant below⟩

def SamePlace (t u : Tree) (n m : Node) : Prop :=
  ∃ p, descend p (root t) = some n ∧ descend p (root u) = some m

-- A tree of the same shape and labels whose own fields are those of a lookup.
structure RealizedBy (lookup : Lookup) (fields : List String) (t u : Tree) : Prop where
  shape : ∀ p n, descend p (root t) = some n → ∃ m, descend p (root u) = some m ∧
    m.label = { n.label with lookups := m.label.lookups } ∧ m.children.length = n.children.length
  lookups : ∀ n m, SamePlace t u n m → ∀ field ∈ fields,
    Option.Rel (SamePlace t u) (lookup n field) (m.field? field)

def relabeled (label : Node → Label) (n : Node) : Tree := n.fold fun m below => .mk (label m) below

theorem relabeled_eq (label : Node → Label) (n : Node) :
    relabeled label n = .mk (label n) (n.children.map (relabeled label)) :=
  Node.fold_eq _ n

theorem descend_relabeled (label : Node → Label) {p : List Nat} (found : descend p n = some m)
    {k : Node} (same : k.focus = relabeled label n) :
    ∃ d, descend p k = some d ∧ d.focus = relabeled label m := by
  induction p generalizing n k with
  | nil => cases found; exact ⟨k, rfl, same⟩
  | cons i p ih =>
    obtain ⟨c, child, below⟩ := Option.bind_eq_some_iff.mp found
    have trees : k.children.map (·.focus) = n.children.map (relabeled label) := by
      rw [Node.children_focus, same, relabeled_eq]
      rfl
    have place := congrArg (·[i]?) trees
    simp only [List.getElem?_map, child, Option.map_some] at place
    obtain ⟨d, there, focus⟩ := Option.map_eq_some_iff.mp place
    obtain ⟨e, reached, last⟩ := ih below focus
    exact ⟨e, by simp only [descend, there, Option.bind_some, reached], last⟩

theorem find_recorded {ways : String → Option (Nat × List Nat)} {fields : List String}
    (member : field ∈ fields) :
    (fields.map fun f => (f, ways f)).find? (·.1 == field) = some (field, ways field) := by
  cases found : (fields.map fun f => (f, ways f)).find? (·.1 == field) with
  | none =>
    have absent := List.find?_eq_none.mp found _ (List.mem_map_of_mem member)
    exact absurd (beq_self_eq_true field) absent
  | some entry =>
    obtain ⟨f, _, rfl⟩ := List.mem_map.mp (List.mem_of_find?_eq_some found)
    have same := List.find?_some found
    cases eq_of_beq same
    rfl

-- Whatever descends can be recorded in the labels: the trees with labels are all the trees whose
-- lookups descend.
theorem Descends.realized (descends : lookup.Descends (root t)) (fields : List String) :
    ∃ u, lookup.RealizedBy fields t u := by
  have recorded (n : Node) (field : String) : ∃ way : Option (Nat × List Nat),
      n ∈ (root t).preorder → Option.Rel (fun d w => descend (w.1 :: w.2) n = some d)
        (lookup n field) way := by
    by_cases inside : n ∈ (root t).preorder
    · cases found : lookup n field with
      | none => exact ⟨none, fun _ => .none⟩
      | some d =>
        obtain ⟨first, rest, way⟩ := Node.descendants_descend (descends n inside field d found)
        exact ⟨some (first, rest), fun _ => .some way⟩
    · exact ⟨none, fun member => absurd member inside⟩
  choose ways leads using recorded
  let label (n : Node) : Label := { n.label with lookups := fields.map fun f => (f, ways n f) }
  have mirrored (p : List Nat) (n : Node) (found : descend p (root t) = some n) :
      ∃ m, descend p (root (relabeled label (root t))) = some m ∧ m.focus = relabeled label n :=
    descend_relabeled label found rfl
  refine ⟨relabeled label (root t), ?_, ?_⟩
  · intro p n found
    obtain ⟨m, there, focus⟩ := mirrored p n found
    refine ⟨m, there, ?_, ?_⟩
    · rw [Node.label, focus, relabeled_eq]
      rfl
    · rw [← List.length_map (f := (·.focus)), Node.children_focus, focus, relabeled_eq]
      exact List.length_map _
  · rintro n m ⟨p, here, there⟩ field member
    obtain ⟨k, same, focus⟩ := mirrored p n here
    cases there.symm.trans same
    have labeled : m.label = label n := by rw [Node.label, focus, relabeled_eq]; rfl
    have found : (label n).lookups.find? (·.1 == field) = some (field, ways n field) :=
      find_recorded member
    have lead := leads n field (Node.descend_mem_preorder here)
    generalize lookup n field = target, ways n field = way at found lead ⊢
    cases lead with
    | none =>
      have nowhere : m.field? field = none := by rw [Node.field?, labeled, found]
      rw [nowhere]
      exact .none
    | @some d way reached =>
      have place : descend (p ++ way.1 :: way.2) (root t) = some d :=
        (Node.descend_append here).trans reached
      obtain ⟨e, mirror, _⟩ := mirrored _ d place
      have own : m.field? field = some e := by
        rw [Node.field?, labeled, found]
        exact (Node.descend_append there).symm.trans mirror
      rw [own]
      exact .some ⟨_, place, mirror⟩

end Lookup

end CodeEntities
