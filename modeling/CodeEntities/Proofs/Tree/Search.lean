import CodeEntities.Proofs.Tree.Descent
import Mathlib.Data.List.Find

namespace CodeEntities.Node

variable {n m c d : Node} {visit : Node → Visit} {p : Node → Prop} {kinds stop : List String}

theorem childrenFrom_middle (label : Label) (above : List Frame) (left us ts : List Tree)
    (t : Tree) :
    ⟨t, ⟨label, us.reverse ++ left, ts⟩ :: above⟩ ∈
      childrenFrom label above left (us ++ t :: ts) := by
  induction us generalizing left with
  | nil => exact List.mem_cons_self ..
  | cons u us ih =>
    refine List.mem_cons_of_mem _ ?_
    simpa using ih (u :: left)

theorem child_of_parent (up : m.parent? = some n) : m ∈ n.children := by
  obtain ⟨focus, above⟩ := m
  cases above with
  | nil => cases up
  | cons frame above =>
    cases up
    have middle := childrenFrom_middle frame.label above [] frame.left.reverse frame.right focus
    rw [List.reverse_reverse, List.append_nil] at middle
    exact middle

theorem child_iff : c ∈ n.children ↔ ∃ beyond, c.ancestors = n :: beyond := by
  constructor
  · intro member
    exact ⟨n.ancestors, ancestors_child member⟩
  · rintro ⟨beyond, up⟩
    rw [ancestors_eq] at up
    cases above : c.parent? with
    | none => rw [above] at up; cases up
    | some k =>
      rw [above] at up
      cases up
      exact child_of_parent above

-- A node stands below another, and all the nodes in between are of a sort.
def ReachedThrough (p : Node → Prop) (n m : Node) : Prop :=
  ∃ between beyond, m.ancestors = between ++ n :: beyond ∧ ∀ a ∈ between, p a

theorem reachedThrough_step :
    n.ReachedThrough p m ↔ ∃ c ∈ n.children, m = c ∨ p c ∧ c.ReachedThrough p m := by
  constructor
  · rintro ⟨between, beyond, up, through⟩
    rcases List.eq_nil_or_concat between with rfl | ⟨lower, c, rfl⟩
    · exact ⟨m, child_iff.mpr ⟨beyond, up⟩, .inl rfl⟩
    · rw [List.concat_eq_append, List.append_assoc, List.singleton_append] at up
      refine ⟨c, child_iff.mpr ⟨beyond, (ancestors_split up).symm⟩, .inr ⟨?_, ?_⟩⟩
      · exact through c (by simp)
      · exact ⟨lower, n :: beyond, up, fun a member => through a (by simp [member])⟩
  · rintro ⟨c, child, rfl | ⟨here, between, beyond, up, through⟩⟩
    · exact ⟨[], n.ancestors, ancestors_child child, fun a member => by cases member⟩
    · refine ⟨between ++ [c], n.ancestors, ?_, ?_⟩
      · rw [up, ancestors_split up, ancestors_child child, List.append_assoc, List.singleton_append]
      · intro a member
        rcases List.mem_append.mp member with lower | top
        · exact through a lower
        · exact List.mem_singleton.mp top ▸ here

theorem descendants_exact : m ∈ n.descendants ↔ n ∈ m.ancestors := by
  refine ⟨mem_ancestors, fun above => ?_⟩
  obtain ⟨between, beyond, up⟩ := List.append_of_mem above
  have reached : n.ReachedThrough (fun _ => True) m := ⟨between, beyond, up, fun _ _ => trivial⟩
  clear above up
  -- On the upper node: the path down to the lower one gets shorter at its upper end.
  induction n using Node.induction with
  | step n ih =>
    obtain ⟨c, child, rfl | ⟨_, deeper⟩⟩ := reachedThrough_step.mp reached
    · exact mem_descendants.mpr ⟨m, child, self_mem_preorder m⟩
    · refine mem_descendants.mpr ⟨c, child, ?_⟩
      exact (descendants_sublist c).subset (ih c child deeper)

theorem ReachedThrough.below (reached : n.ReachedThrough p m) : m ∈ n.descendants := by
  obtain ⟨between, beyond, up, _⟩ := reached
  exact descendants_exact.mpr (up ▸ by simp)

theorem not_below_itself : n ∉ n.ancestors := fun above =>
  absurd (ancestors_shorter above) (Nat.lt_irrefl _)

theorem mem_collect :
    m ∈ n.collect visit ↔
      visit m = .report ∧ (m = n ∨ visit n = .enter ∧ n.ReachedThrough (visit · = .enter) m) := by
  induction n using Node.induction with
  | step n ih =>
    rw [collect_eq]
    cases here : visit n with
    | report => simp +contextual [here]
    | enter =>
      -- What the children report is what a step down and the path below it lead to.
      have inner : (∃ c ∈ n.children, m ∈ c.collect visit) ↔
          visit m = .report ∧ n.ReachedThrough (visit · = .enter) m := by
        rw [reachedThrough_step, ← exists_and_left]
        refine exists_congr fun c => ?_
        constructor
        · rintro ⟨child, found⟩
          obtain ⟨wanted, place⟩ := (ih c child).mp found
          exact ⟨wanted, child, place⟩
        · rintro ⟨wanted, child, place⟩
          exact ⟨child, (ih c child).mpr ⟨wanted, place⟩⟩
      rw [← List.flatMap_def, List.mem_flatMap, inner]
      constructor
      · rintro ⟨wanted, reached⟩
        exact ⟨wanted, .inr ⟨rfl, reached⟩⟩
      · rintro ⟨wanted, rfl | ⟨_, reached⟩⟩
        · rw [here] at wanted; cases wanted
        · exact ⟨wanted, reached⟩
    | pass =>
      simp only [List.not_mem_nil, false_iff]
      rintro ⟨wanted, rfl | ⟨entered, _⟩⟩
      · rw [here] at wanted; cases wanted
      · cases entered

-- A search reports what it wants to report and reaches through nodes that it enters.
theorem mem_collectBelow :
    m ∈ n.collectBelow visit ↔
      visit m = .report ∧ n.ReachedThrough (visit · = .enter) m := by
  rw [collectBelow_eq, List.mem_flatMap, reachedThrough_step, ← exists_and_left]
  refine exists_congr fun c => ?_
  rw [mem_collect, and_left_comm]

-- No node that is reported stands above another: the search does not enter it.
theorem reported_apart (first : m ∈ n.collectBelow visit) (second : c ∈ n.collectBelow visit) :
    m ∉ c.ancestors := by
  obtain ⟨reported, reached⟩ := mem_collectBelow.mp first
  obtain ⟨_, between, beyond, up, entered⟩ := mem_collectBelow.mp second
  have above := mem_ancestors reached.below
  rw [up]
  intro member
  rcases List.mem_append.mp member with inner | rest
  · rw [entered m inner] at reported
    cases reported
  · rcases List.mem_cons.mp rest with rfl | outer
    · exact not_below_itself above
    · -- Above the node searched and below it at once: the two chains cannot both be shorter.
      rw [ancestors_split up] at outer
      have := ancestors_shorter outer
      have := ancestors_shorter above
      omega

-- Nodes compare by the child indexes on the way down to them, and a node comes before what is
-- below it.
def Precedes (n m : Node) : Prop := n.path.reverse < m.path.reverse

theorem Precedes.different (before : n.Precedes m) : n ≠ m := by
  rintro rfl
  exact List.lt_irrefl _ before

theorem within_precedes (child : c ∈ n.children) (below : Within c m) : n.Precedes m := by
  obtain ⟨i, here⟩ := path_child child
  obtain ⟨lower, path⟩ := below
  unfold Precedes
  rw [← path, here]
  have longer : n.path.reverse ++ [] < n.path.reverse ++ i :: lower.reverse :=
    List.append_left_lt (List.nil_lt_cons i lower.reverse)
  simpa using longer

theorem branches_precede {i j : Nat} {above : List Nat} (earlier : c.path = i :: above)
    (later : d.path = j :: above) (less : i < j) (first : Within c n) (second : Within d m) :
    n.Precedes m := by
  obtain ⟨lower, left⟩ := first
  obtain ⟨lower', right⟩ := second
  unfold Precedes
  rw [← left, ← right, earlier, later]
  have branch : above.reverse ++ i :: lower.reverse < above.reverse ++ j :: lower'.reverse :=
    List.append_left_lt (List.cons_lt_cons_iff.mpr (.inl less))
  simpa using branch

theorem preorder_precedes (n : Node) : n.preorder.Pairwise Precedes := by
  induction n using Node.induction with
  | step n ih =>
    rw [preorder_eq, List.pairwise_cons, ← List.flatMap_def, List.pairwise_flatMap]
    refine ⟨?_, ih, ?_⟩
    · intro m below
      obtain ⟨c, child, below⟩ := List.mem_flatMap.mp below
      exact within_precedes child (within_preorder below)
    · refine (children_indexed n).imp ?_
      rintro c d ⟨i, j, less, earlier, later⟩ m first k second
      exact branches_precede earlier later less (within_preorder first) (within_preorder second)

theorem reported_head (searching : ∀ m, visit m ≠ .pass) (stack : List Node) :
    (reportedOnStack visit stack).head? = firstOnStack? (visit · == .report) stack := by
  fun_induction reportedOnStack visit stack with
  | case1 => rw [firstOnStack?, List.head?_nil]
  | case2 n stack here ih => rw [firstOnStack?, if_pos (by simp [here]), List.head?_cons]
  | case3 n stack here ih => rw [firstOnStack?, if_neg (by simp [here]), ih]
  | case4 n stack here ih => exact absurd here (searching n)

theorem isSame_descendant (below : m ∈ n.descendants) : m.isSame n = false := by
  obtain ⟨c, child, deeper⟩ := mem_descendants.mp below
  have before := within_precedes child (within_preorder deeper)
  refine beq_false_of_ne fun same => ?_
  rw [Precedes, same] at before
  exact List.lt_irrefl _ before

theorem findDescendant_eq (n : Node) (kinds : List String) :
    n.findDescendant? kinds = firstOnStack? (fun m => kinds.contains m.kind) n.children := by
  rw [findDescendant?, firstOnStack_eq, firstOnStack_eq, List.flatMap_singleton, preorder_eq,
    List.find?_cons_of_neg (by simp [isSame]), ← List.flatMap_def]
  refine List.find?_congr fun m below => ?_
  rw [isSame_descendant (by rwa [descendants, ← List.flatMap_def]), Bool.not_false, Bool.true_and]

theorem descendantsOfKind_head (n : Node) (kinds : List String) :
    (n.descendantsOfKind kinds []).head? = n.findDescendant? kinds := by
  rw [findDescendant_eq, descendantsOfKind, collectBelow, reported_head]
  · congr 1
    funext m
    cases wanted : kinds.contains m.kind <;> simp
  · intro m
    split <;> simp

-- A list of exactly the nodes with a property, in document order and hence without
-- repetition, none of which stands above another.
structure Lists (wanted : Node → Prop) (found : List Node) : Prop where
  exact (m : Node) : m ∈ found ↔ wanted m
  inOrder : found.Pairwise Precedes
  nodup : found.Nodup
  apart : ∀ m ∈ found, ∀ k ∈ found, m ∉ k.ancestors

theorem collectBelow_lists {wanted : Node → Prop}
    (same : ∀ m, visit m = .report ∧ n.ReachedThrough (visit · = .enter) m ↔ wanted m) :
    Lists wanted (n.collectBelow visit) := by
  have inOrder : (n.collectBelow visit).Pairwise Precedes :=
    (preorder_precedes n).sublist (collectBelow_sublist visit n)
  exact {
    exact m := mem_collectBelow.trans (same m)
    inOrder
    nodup := inOrder.imp Precedes.different
    apart m first k second := reported_apart first second }

theorem moduleLevel_lists (n : Node) (targets wrappers : List String) :
    Lists
      (fun m => m.kind ∈ targets ∧
        n.ReachedThrough (fun a => a.kind ∈ wrappers ∧ a.kind ∉ targets) m)
      (n.moduleLevel targets wrappers) := by
  refine collectBelow_lists fun m => ?_
  have reported (k : Node) : (if targets.contains k.kind then Visit.report
      else if wrappers.contains k.kind then .enter else .pass) = .report ↔ k.kind ∈ targets := by
    grind
  have entered (k : Node) : (if targets.contains k.kind then Visit.report
      else if wrappers.contains k.kind then .enter else .pass) = .enter ↔
        k.kind ∈ wrappers ∧ k.kind ∉ targets := by
    grind
  simp only [reported, entered]

theorem descendantsOfKind_lists (n : Node) (kinds stop : List String) :
    Lists
      (fun m => m.kind ∈ kinds ∧
        n.ReachedThrough (fun a => a.kind ∉ kinds ∧ a.kind ∉ stop) m)
      (n.descendantsOfKind kinds stop) := by
  refine collectBelow_lists fun m => ?_
  have reported (k : Node) : (if kinds.contains k.kind then Visit.report
      else if stop.contains k.kind then .pass else .enter) = .report ↔ k.kind ∈ kinds := by
    grind
  have entered (k : Node) : (if kinds.contains k.kind then Visit.report
      else if stop.contains k.kind then .pass else .enter) = .enter ↔
        k.kind ∉ kinds ∧ k.kind ∉ stop := by
    grind
  simp only [reported, entered]

-- The searches keep their place on a stack, yet list what the ancestors of a node decide, in
-- the order of the tree: a search for declarations goes through wrappers only and stops at the
-- declarations, one for kinds stops at those kinds and at the others given, and the search
-- for one node finds the first that a search for all would list.
theorem searches_list_by_ancestry (n : Node) (kinds others : List String) :
    Lists
      (fun m => m.kind ∈ kinds ∧
        n.ReachedThrough (fun a => a.kind ∈ others ∧ a.kind ∉ kinds) m)
      (n.moduleLevel kinds others) ∧
    Lists
      (fun m => m.kind ∈ kinds ∧
        n.ReachedThrough (fun a => a.kind ∉ kinds ∧ a.kind ∉ others) m)
      (n.descendantsOfKind kinds others) ∧
    n.findDescendant? kinds = (n.descendantsOfKind kinds []).head? ∧
    n.preorder.Pairwise Precedes := by
  refine ⟨moduleLevel_lists n kinds others, descendantsOfKind_lists n kinds others, ?_, ?_⟩
  · exact (descendantsOfKind_head n kinds).symm
  · exact preorder_precedes n

end CodeEntities.Node
