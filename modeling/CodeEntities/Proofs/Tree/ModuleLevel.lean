import CodeEntities.Proofs.Tree.Descent
import Mathlib.Data.List.Pairwise
import Mathlib.Tactic.ByContra

namespace CodeEntities.Node

variable {n m c d root : Node} {visit : Node → Visit} {targets wrappers : List String}
  {kind : String}

-- Parts of what lies below the children of a node keep to document order; so do parts of what
-- lies below the nodes that a search reports.

theorem children_parts {part : Node → List Node}
    (inside : ∀ c ∈ n.children, (part c).Sublist c.preorder) :
    (n.children.flatMap part).Sublist n.preorder := by
  rw [preorder_eq, ← List.flatMap_def]
  exact (List.Sublist.flatMap_right _ inside).cons n

theorem namedChildren_descend (n : Node) : n.namedChildren.Sublist n.descendants :=
  List.filter_sublist.trans (children_descend n)

theorem namedChildren_sublist (n : Node) : n.namedChildren.Sublist n.preorder :=
  (namedChildren_descend n).trans (descendants_sublist n)

theorem namedChildren_parts {part : Node → List Node}
    (inside : ∀ m, (part m).Sublist m.preorder) (n : Node) :
    (n.namedChildren.flatMap part).Sublist n.preorder :=
  (List.filter_sublist.flatMap part).trans (children_parts fun c _ => inside c)

theorem collect_parts {part : Node → List Node} (inside : ∀ m, (part m).Sublist m.preorder)
    (n : Node) : ((n.collect visit).flatMap part).Sublist n.preorder := by
  induction n using Node.induction with
  | step n ih =>
    rw [collect_eq]
    cases visit n with
    | report =>
      rw [List.flatMap_singleton]
      exact inside n
    | enter =>
      rw [← List.flatMap_def, List.flatMap_assoc]
      exact children_parts ih
    | pass => exact List.nil_sublist _

theorem collectBelow_parts {part : Node → List Node} (inside : ∀ m, (part m).Sublist m.preorder)
    (n : Node) : ((n.collectBelow visit).flatMap part).Sublist n.preorder := by
  rw [collectBelow_eq, List.flatMap_assoc]
  exact children_parts fun c _ => collect_parts inside c

theorem preorder_cases (below : m ∈ n.preorder) : m = n ∨ m ∈ n.descendants := by
  rw [preorder_eq] at below
  exact List.mem_cons.mp below

theorem WellPlaced.start_le (placed : n.WellPlaced) (below : m ∈ n.preorder) :
    n.label.start ≤ m.label.start :=
  (placed.inside below).1

def heldIn (kind : String) (n : Node) : Node := (n.parent?.filter (·.kind == kind)).getD n

theorem heldIn_child (member : c ∈ n.children) :
    c.heldIn kind = if n.kind == kind then n else c := by
  unfold heldIn
  rw [parent_child member, Option.filter_some]
  split
  · rfl
  · rfl

theorem heldIn_below (inside : m ∈ n.descendants) : m.heldIn kind ∈ n.preorder := by
  unfold heldIn
  cases held : m.parent?.filter (·.kind == kind) with
  | none =>
    obtain ⟨c, child, below⟩ := mem_descendants.mp inside
    exact preorder_trans (child_below child) below
  | some p => exact parent_below inside (Option.filter_eq_some_iff.mp held).1

theorem heldIn_start (placed : n.WellPlaced) (inside : m ∈ n.descendants) :
    (m.heldIn kind).label.start ≤ m.label.start := by
  induction n using Node.induction with
  | step n ih =>
    obtain ⟨c, child, below⟩ := mem_descendants.mp inside
    rcases preorder_cases below with rfl | deeper
    · rw [heldIn_child child]
      split
      · exact placed.start_le (child_below child)
      · exact Nat.le_refl _
    · exact ih c child (placed.child child) deeper

-- Where no holder has two of the nodes in it, putting the holders in their places keeps the order.
theorem heldIn_inOrder (placed : n.WellPlaced)
    (single : ∀ w ∈ n.preorder, w.kind = kind → (w.moduleLevel targets wrappers).length ≤ 1) :
    (n.moduleLevel targets wrappers).Pairwise fun a b =>
      (a.heldIn kind).label.start ≤ (b.heldIn kind).label.start := by
  induction n using Node.induction with
  | step n ih =>
    by_cases holder : n.kind = kind
    · have one := single n (self_mem_preorder n) holder
      cases found : n.moduleLevel targets wrappers with
      | nil => exact .nil
      | cons a rest =>
        rw [found, List.length_cons] at one
        rw [List.length_eq_zero_iff.mp (by omega : rest.length = 0)]
        exact List.pairwise_singleton _ a
    · rw [moduleLevel, collectBelow_eq, List.pairwise_flatMap]
      refine ⟨?_, placed.children_inOrder.imp_of_mem ?_⟩
      · intro c child
        rw [collect_eq]
        split
        · exact List.pairwise_singleton _ c
        · rw [← List.flatMap_def, ← collectBelow_eq]
          exact ih c child (placed.child child) fun w below =>
            single w (preorder_trans (child_below child) below)
        · exact .nil
      · intro c d first second apart a left b right
        have fromLeft := (collect_sublist _ c).subset left
        have fromRight := (collect_sublist _ d).subset right
        have before : a.label.start ≤ c.label.stop := ((placed.child first).inside fromLeft).2
        have held : (a.heldIn kind).label.start ≤ a.label.start :=
          heldIn_start placed (mem_descendants.mpr ⟨c, first, fromLeft⟩)
        have behind : d.label.start ≤ (b.heldIn kind).label.start := by
          rcases preorder_cases fromRight with rfl | deeper
          · simp [heldIn_child second, holder]
          · exact (placed.child second).start_le (heldIn_below deeper)
        omega

def holderKinds : List String := ["decorated_definition", "template_declaration"]

-- No node of these kinds reaches two definitions.
def HoldsOne (kinds : NodeKinds) (root : Node) : Prop :=
  ∀ w ∈ root.preorder, w.kind ∈ holderKinds →
    (w.moduleLevel kinds.functions kinds.wrappers).length ≤ 1

instance (kinds : NodeKinds) (root : Node) : Decidable (root.HoldsOne kinds) :=
  inferInstanceAs (Decidable (∀ w ∈ root.preorder, w.kind ∈ holderKinds →
    (w.moduleLevel kinds.functions kinds.wrappers).length ≤ 1))

def HoldsOneClass (kinds : NodeKinds) (root : Node) : Prop :=
  ∀ w ∈ root.preorder, w.kind ∈ holderKinds →
    (w.moduleLevel kinds.classes kinds.wrappers).length ≤ 1

instance (kinds : NodeKinds) (root : Node) : Decidable (root.HoldsOneClass kinds) :=
  inferInstanceAs (Decidable (∀ w ∈ root.preorder, w.kind ∈ holderKinds →
    (w.moduleLevel kinds.classes kinds.wrappers).length ≤ 1))

theorem size_preorder (below : m ∈ n.preorder) : m.size ≤ n.size := by
  induction n using Node.induction with
  | step n ih =>
    rcases mem_preorder.mp below with rfl | ⟨c, child, deeper⟩
    · exact Nat.le_refl _
    · exact Nat.le_trans (ih c child deeper) (Nat.le_of_lt (size_child child))

theorem child_unique (first : c ∈ n.children) (second : d ∈ n.children) (left : m ∈ c.preorder)
    (right : m ∈ d.preorder) : c = d := by
  by_contra different
  have apart := (children_apart n).forall first second different
  exact apart m (within_preorder left) (within_preorder right)

-- The nodes on the way down from a root that stops at everything but wrappers.
inductive Reaches (root : Node) (wrappers : List String) : Node → Prop
  | child {n : Node} (member : n ∈ root.children) : Reaches root wrappers n
  | through {w n : Node} (reached : Reaches root wrappers w) (wrapper : w.kind ∈ wrappers)
      (member : n ∈ w.children) : Reaches root wrappers n

theorem collect_reached (reached : root.Reaches wrappers n)
    (member : m ∈ n.collect fun k =>
      if targets.contains k.kind then .report
      else if wrappers.contains k.kind then .enter else .pass) :
    root.Reaches wrappers m ∧ m.kind ∈ targets := by
  induction n using Node.induction with
  | step n ih =>
    rw [collect_eq] at member
    split at member
    · rename_i visit
      cases List.mem_singleton.mp member
      split at visit
      · rename_i wanted
        exact ⟨reached, List.contains_iff_mem.mp wanted⟩
      · split at visit <;> cases visit
    · rename_i visit
      split at visit
      · cases visit
      · split at visit
        · rename_i wrapper
          rw [← List.flatMap_def] at member
          obtain ⟨c, child, found⟩ := List.mem_flatMap.mp member
          exact ih c child (.through reached (List.contains_iff_mem.mp wrapper) child) found
        · cases visit
    · cases member

theorem moduleLevel_reached (member : n ∈ root.moduleLevel targets wrappers) :
    root.Reaches wrappers n ∧ n.kind ∈ targets := by
  rw [moduleLevel, collectBelow_eq] at member
  obtain ⟨c, child, found⟩ := List.mem_flatMap.mp member
  exact collect_reached (.child child) found

theorem Reaches.between (reached : root.Reaches wrappers n) (inside : m ∈ root.descendants)
    (below : n ∈ m.descendants) : m.kind ∈ wrappers := by
  induction reached with
  | child member =>
    obtain ⟨c, child, deeper⟩ := mem_descendants.mp inside
    have above := preorder_trans deeper (parent_below below (parent_child member))
    exact absurd (size_child child) (Nat.not_lt.mpr (size_preorder above))
  | through _ wrapper member ih =>
    rcases preorder_cases (parent_below below (parent_child member)) with rfl | deeper
    · exact wrapper
    · exact ih deeper

end CodeEntities.Node
