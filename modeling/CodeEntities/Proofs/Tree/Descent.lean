import CodeEntities.Proofs.Tree.Order
import CodeEntities.Rules.Basic
import Mathlib.Data.List.Flatten

namespace CodeEntities.Node

variable {n m c k : Node} {kinds stop : List String} {visit : Node → Visit}

theorem preorder_trans (first : m ∈ n.preorder) (second : k ∈ m.preorder) : k ∈ n.preorder :=
  (preorder_sublist first).subset second

theorem WellPlaced.below (placed : n.WellPlaced) (below : m ∈ n.preorder) : m.WellPlaced :=
  fun k deeper => placed k (preorder_trans below deeper)

theorem child_below (member : c ∈ n.children) : c ∈ n.preorder :=
  mem_preorder.mpr (.inr ⟨c, member, self_mem_preorder c⟩)

theorem namedChild_below (member : c ∈ n.namedChildren) : c ∈ n.preorder :=
  child_below (List.mem_filter.mp member).1

theorem childByField_below {field : String} (member : c ∈ n.childrenByField field) :
    c ∈ n.preorder :=
  child_below (List.mem_filter.mp member).1

theorem childOfKind_below (found : n.childOfKind? kinds = some c) : c ∈ n.preorder :=
  child_below (List.mem_of_find?_eq_some found)

theorem field_below {field : String} (found : n.field? field = some m) : m ∈ n.preorder := by
  unfold field? at found
  split at found
  · exact descend_mem_preorder found
  · cases found
  · exact child_below (List.mem_of_find?_eq_some found)

theorem classBody_below (found : n.classBody? = some m) : m ∈ n.preorder := by
  rcases Option.or_eq_some_iff.mp found with field | ⟨_, child⟩
  · exact field_below field
  · exact namedChild_below (List.mem_of_find?_eq_some child)

theorem partChild_below {part : Option Node} (inside : ∀ m ∈ part, m ∈ n.preorder)
    (member : c ∈ (part.map namedChildren).getD []) : c ∈ n.preorder := by
  cases present : part with
  | none =>
    rw [present] at member
    cases member
  | some m =>
    rw [present] at member
    exact preorder_trans (inside m present) (namedChild_below member)

theorem bodyChild_below (member : c ∈ (n.classBody?.map namedChildren).getD []) : c ∈ n.preorder :=
  partChild_below (fun _ => classBody_below) member

theorem descendants_sublist (n : Node) : n.descendants.Sublist n.preorder := by
  rw [preorder_eq]
  exact List.sublist_cons_self n n.descendants

theorem descendant_getD_below (n : Node) (kinds : List String) :
    (n.findDescendant? kinds).getD n ∈ n.preorder := by
  cases found : n.findDescendant? kinds with
  | none => exact self_mem_preorder n
  | some m =>
    rw [findDescendant?, firstOnStack_eq, List.flatMap_singleton] at found
    exact List.mem_of_find?_eq_some found

theorem children_descend (n : Node) : n.children.Sublist n.descendants := by
  have inside : (n.children.flatMap fun c => [c]).Sublist (n.children.flatMap preorder) :=
    List.Sublist.flatMap_right _ fun c _ => List.singleton_sublist.mpr (self_mem_preorder c)
  rw [List.flatMap_singleton'] at inside
  rwa [descendants, ← List.flatMap_def]

theorem collect_sublist (visit : Node → Visit) (n : Node) :
    (n.collect visit).Sublist n.preorder := by
  induction n using Node.induction with
  | step n ih =>
    rw [collect_eq, preorder_eq]
    cases visit n with
    | report => exact List.singleton_sublist.mpr (List.mem_cons_self ..)
    | enter =>
      refine List.Sublist.cons n ?_
      rw [← List.flatMap_def, ← List.flatMap_def]
      exact List.Sublist.flatMap_right _ ih
    | pass => exact List.nil_sublist _

theorem mem_descendants : m ∈ n.descendants ↔ ∃ c ∈ n.children, m ∈ c.preorder := by
  rw [descendants, ← List.flatMap_def, List.mem_flatMap]

theorem attached_preorders (n : Node) :
    (n.children.attach.flatMap fun c => c.1.preorder) = n.descendants := by
  rw [List.flatMap_subtype fun _ _ => rfl, List.unattach_attach, descendants, ← List.flatMap_def]

theorem descendant_sublist (member : m ∈ n.descendants) : m.preorder.Sublist n.descendants := by
  obtain ⟨c, child, below⟩ := mem_descendants.mp member
  exact (preorder_sublist below).trans (List.sublist_flatten_of_mem (List.mem_map_of_mem child))

theorem mem_ancestors (below : m ∈ n.descendants) : n ∈ m.ancestors := by
  obtain ⟨c, child, deeper⟩ := mem_descendants.mp below
  have parent : n ∈ c.ancestors := ancestors_child child ▸ List.mem_cons_self ..
  rcases List.suffix_cons_iff.mp (ancestors_preorder deeper) with same | beyond
  · exact (List.cons.inj same).2 ▸ parent
  · exact beyond.subset (List.mem_cons_of_mem c parent)

theorem collectBelow_descends (visit : Node → Visit) (n : Node) :
    (n.collectBelow visit).Sublist n.descendants := by
  rw [collectBelow_eq, descendants, ← List.flatMap_def]
  exact List.Sublist.flatMap_right _ fun c _ => collect_sublist visit c

theorem collectBelow_sublist (visit : Node → Visit) (n : Node) :
    (n.collectBelow visit).Sublist n.preorder :=
  (collectBelow_descends visit n).trans (descendants_sublist n)

theorem collected_descends (member : m ∈ n.collectBelow visit) : m ∈ n.descendants :=
  (collectBelow_descends visit n).subset member

theorem moduleLevel_sublist (root : Node) (targets wrappers : List String) :
    (root.moduleLevel targets wrappers).Sublist root.preorder :=
  collectBelow_sublist _ root

theorem collected_below (member : m ∈ n.collectBelow visit) : m ∈ n.preorder :=
  (collectBelow_sublist visit n).subset member

theorem parent_child (member : c ∈ n.children) : c.parent? = some n := by
  obtain ⟨frame, above, plug⟩ := child_above member
  simp only [parent?, above, plug]

theorem parent_below (inside : m ∈ n.descendants) (up : m.parent? = some k) : k ∈ n.preorder := by
  induction n using Node.induction with
  | step n ih =>
    obtain ⟨c, child, inside⟩ := mem_descendants.mp inside
    rw [preorder_eq] at inside
    rcases List.mem_cons.mp inside with rfl | deeper
    · rw [parent_child child] at up
      cases up
      exact self_mem_preorder _
    · exact preorder_trans (child_below child) (ih c child deeper)

end CodeEntities.Node
