import CodeEntities.Proofs.Tree.Ancestry

namespace CodeEntities

namespace Tree

-- A node whose children lie inside it, one behind the other.
structure Encloses (t : Tree) : Prop where
  forward : t.label.start ≤ t.label.stop
  inside : ∀ c ∈ t.children, t.label.start ≤ c.label.start ∧ c.label.stop ≤ t.label.stop
  inOrder : t.children.Pairwise fun b c => b.label.stop ≤ c.label.start

instance (t : Tree) : Decidable t.Encloses :=
  decidable_of_iff
    (t.label.start ≤ t.label.stop ∧
      (∀ c ∈ t.children, t.label.start ≤ c.label.start ∧ c.label.stop ≤ t.label.stop) ∧
      t.children.Pairwise fun b c => b.label.stop ≤ c.label.start)
    ⟨fun ⟨forward, inside, inOrder⟩ => ⟨forward, inside, inOrder⟩,
      fun ⟨forward, inside, inOrder⟩ => ⟨forward, inside, inOrder⟩⟩

end Tree

namespace Node

variable {n m c : Node}

def WellPlaced (n : Node) : Prop := ∀ m ∈ n.preorder, m.focus.Encloses

instance (n : Node) : Decidable n.WellPlaced :=
  inferInstanceAs (Decidable (∀ m ∈ n.preorder, m.focus.Encloses))

theorem WellPlaced.encloses (placed : n.WellPlaced) : n.focus.Encloses :=
  placed n (self_mem_preorder n)

theorem WellPlaced.child (placed : n.WellPlaced) (member : c ∈ n.children) : c.WellPlaced :=
  fun m below => placed m (mem_preorder.mpr (.inr ⟨c, member, below⟩))

theorem focus_child (member : c ∈ n.children) : c.focus ∈ n.focus.children := by
  rw [← children_focus]
  exact List.mem_map_of_mem member

theorem WellPlaced.inside (placed : n.WellPlaced) (below : m ∈ n.preorder) :
    n.label.start ≤ m.label.start ∧ m.label.start ≤ n.label.stop := by
  induction n using Node.induction with
  | step n ih =>
    rcases mem_preorder.mp below with rfl | ⟨c, child, below⟩
    · exact ⟨Nat.le_refl _, placed.encloses.forward⟩
    · obtain ⟨first, last⟩ := ih c child (placed.child child) below
      obtain ⟨start, stop⟩ := placed.encloses.inside c.focus (focus_child child)
      exact ⟨Nat.le_trans start first, Nat.le_trans last stop⟩

theorem WellPlaced.children_inOrder (placed : n.WellPlaced) :
    n.children.Pairwise fun b c => b.label.stop ≤ c.label.start := by
  have inOrder := placed.encloses.inOrder
  rwa [← children_focus, List.pairwise_map] at inOrder

-- Starts never go back along the preorder.
theorem WellPlaced.preorder_starts (placed : n.WellPlaced) :
    n.preorder.Pairwise fun a b => a.label.start ≤ b.label.start := by
  induction n using Node.induction with
  | step n ih =>
    rw [preorder_eq, List.pairwise_cons, ← List.flatMap_def, List.pairwise_flatMap]
    refine ⟨?_, ?_, ?_⟩
    · intro m below
      obtain ⟨c, child, below⟩ := List.mem_flatMap.mp below
      exact (placed.inside (mem_preorder.mpr (.inr ⟨c, child, below⟩))).1
    · intro c child
      exact ih c child (placed.child child)
    · refine placed.children_inOrder.imp_of_mem ?_
      intro b c left right apart x first y second
      have before := ((placed.child left).inside first).2
      have behind := ((placed.child right).inside second).1
      omega

theorem preorder_sublist (member : m ∈ n.preorder) : m.preorder.Sublist n.preorder := by
  induction n using Node.induction with
  | step n ih =>
    rcases mem_preorder.mp member with rfl | ⟨c, child, below⟩
    · exact List.Sublist.refl _
    · rw [preorder_eq n]
      refine List.Sublist.cons _ ((ih c child below).trans ?_)
      exact List.sublist_flatten_of_mem (List.mem_map_of_mem child)

theorem pair_sublist {root : Node} (member : n ∈ root.preorder) (below : m ∈ n.descendants) :
    [n, m].Sublist root.preorder := by
  have pair : [n, m].Sublist n.preorder := by
    rw [preorder_eq]
    exact (List.singleton_sublist.mpr below).cons_cons n
  exact pair.trans (preorder_sublist member)

end Node

end CodeEntities
