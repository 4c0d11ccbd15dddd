import CodeEntities.Proofs.Tree.Search

namespace CodeEntities.Node

variable {n p q : Node} {t : Tree} {front back : List Node}

theorem mem_earlierFrom {label : Label} {above : List Frame} {left right : List Tree}
    (member : q ∈ earlierFrom label above left right) : ∃ before between,
      left = between ++ q.focus :: before ∧
        q.above = ⟨label, before, between.reverse ++ right⟩ :: above := by
  induction left generalizing right with
  | nil => cases member
  | cons t left ih =>
    rcases List.mem_cons.mp member with rfl | later
    · exact ⟨left, [], rfl, rfl⟩
    · obtain ⟨before, between, split, frame⟩ := ih later
      exact ⟨before, t :: between, by rw [split]; rfl, by simpa using frame⟩

theorem parent_earlier (member : q ∈ n.earlierSiblings) : q.parent? = n.parent? := by
  obtain ⟨focus, above⟩ := n
  cases above with
  | nil => cases member
  | cons frame above =>
    obtain ⟨before, between, split, place⟩ := mem_earlierFrom member
    simp only [parent?, place, Frame.plug, split]
    simp

theorem earlierSiblings_split (split : n.earlierSiblings = front ++ q :: back) :
    back = q.earlierSiblings := by
  obtain ⟨focus, above⟩ := n
  cases above with
  | nil => exact absurd split.symm (by simp [earlierSiblings])
  | cons frame above =>
    obtain ⟨label, left, right⟩ := frame
    simp only [earlierSiblings] at split
    generalize focus :: right = behind at split
    induction front generalizing left behind with
    | nil =>
      cases left with
      | nil => cases split
      | cons t left =>
        cases split
        rfl
    | cons f front ih =>
      cases left with
      | nil => cases split
      | cons t left => exact ih left _ (List.cons.inj split).2

theorem earlierSiblings_eq (found : n.previousSibling? = some p) :
    n.earlierSiblings = p :: p.earlierSiblings := by
  obtain ⟨back, split⟩ := List.head?_eq_some_iff.mp found
  have first : n.earlierSiblings = [] ++ p :: back := split
  rw [split, earlierSiblings_split first]

theorem mem_parent_earlier (up : n.parent? = some p) (member : q ∈ n.earlierSiblings) :
    q ∈ p.children :=
  child_of_parent ((parent_earlier member).trans up)

theorem earlierFrom_focus (label : Label) (above : List Frame) (left right : List Tree) :
    (earlierFrom label above left right).map (·.focus) = left := by
  induction left generalizing right with
  | nil => rfl
  | cons t left ih => simp [earlierFrom, ih]

theorem parent_in_tree (member : n ∈ (root t).preorder) (up : n.parent? = some p) :
    p ∈ (root t).preorder := by
  rcases mem_preorder.mp member with rfl | ⟨c, child, below⟩
  · cases up
  · exact parent_below (mem_descendants.mpr ⟨c, child, below⟩) up

theorem sibling_in_tree (member : n ∈ (root t).preorder) (sibling : q ∈ n.earlierSiblings) :
    q ∈ (root t).preorder := by
  cases up : n.parent? with
  | none =>
    obtain ⟨focus, above⟩ := n
    cases above with
    | nil => cases sibling
    | cons frame above => cases up
  | some p => exact preorder_trans (parent_in_tree member up) (child_below (mem_parent_earlier up sibling))

-- In a tree whose nodes enclose their children, a node and the siblings before it stand one behind
-- the other.
theorem siblings_inOrder (placed : (root t).WellPlaced) (member : n ∈ (root t).preorder) :
    (n :: n.earlierSiblings).Pairwise fun b a => a.label.stop ≤ b.label.start := by
  obtain ⟨focus, above⟩ := n
  cases above with
  | nil => exact List.pairwise_singleton _ _
  | cons frame above =>
    have encloses := placed ⟨frame.plug focus, above⟩ (parent_in_tree member rfl)
    have inOrder : (frame.left.reverse ++ focus :: frame.right).Pairwise
        fun b c => b.label.stop ≤ c.label.start := encloses.inOrder
    have part : (focus :: frame.left).reverse.Sublist (frame.left.reverse ++ focus :: frame.right) := by
      rw [List.reverse_cons]
      exact (List.Sublist.refl _).append (List.singleton_sublist.mpr (List.mem_cons_self ..))
    have pair := List.pairwise_reverse.mp (inOrder.sublist part)
    have places : (Node.mk focus (frame :: above) ::
        earlierSiblings ⟨focus, frame :: above⟩).map (·.focus) = focus :: frame.left := by
      rw [List.map_cons, earlierSiblings, earlierFrom_focus]
    rwa [← places, List.pairwise_map] at pair

theorem WellPlaced.forward (placed : (root t).WellPlaced) (member : n ∈ (root t).preorder) :
    n.label.start ≤ n.label.stop := (placed n member).forward

end CodeEntities.Node
