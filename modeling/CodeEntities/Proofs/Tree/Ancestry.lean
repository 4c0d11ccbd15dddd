import CodeEntities.Tree.Fold

namespace CodeEntities.Node

variable {n m c d : Node}

theorem childrenFrom_plug (label : Label) (above : List Frame) (left ts : List Tree)
    (member : c ∈ childrenFrom label above left ts) :
    ∃ frame, c.above = frame :: above ∧ frame.plug c.focus = .mk label (left.reverse ++ ts) := by
  induction ts generalizing left with
  | nil => cases member
  | cons t ts ih =>
    rcases List.mem_cons.mp member with rfl | later
    · exact ⟨⟨label, left, ts⟩, rfl, rfl⟩
    · obtain ⟨frame, above, plug⟩ := ih (t :: left) later
      exact ⟨frame, above, by simpa using plug⟩

theorem child_above (member : c ∈ n.children) :
    ∃ frame, c.above = frame :: n.above ∧ frame.plug c.focus = n.focus := by
  obtain ⟨frame, above, plug⟩ := childrenFrom_plug _ _ _ _ member
  refine ⟨frame, above, plug.trans ?_⟩
  cases h : n.focus with
  | mk label children => simp [Node.label, Tree.label, Tree.children, h]

theorem ancestors_child (member : c ∈ n.children) : c.ancestors = n :: n.ancestors := by
  obtain ⟨frame, above, plug⟩ := child_above member
  simp only [ancestors, above, ancestorsFrom, plug]

theorem mem_preorder : m ∈ n.preorder ↔ m = n ∨ ∃ c ∈ n.children, m ∈ c.preorder := by
  rw [preorder_eq, ← List.flatMap_def, List.mem_cons, List.mem_flatMap]

theorem self_mem_preorder (n : Node) : n ∈ n.preorder := mem_preorder.mpr (.inl rfl)

theorem descend_mem_preorder {is : List Nat} (found : descend is n = some m) :
    m ∈ n.preorder := by
  induction is generalizing n with
  | nil =>
    cases found
    exact self_mem_preorder m
  | cons i is ih =>
    obtain ⟨c, child, below⟩ := Option.bind_eq_some_iff.mp found
    exact mem_preorder.mpr (.inr ⟨c, List.mem_of_getElem? child, ih below⟩)

theorem ancestors_preorder (member : m ∈ n.preorder) :
    n :: n.ancestors <:+ m :: m.ancestors := by
  induction n using Node.induction with
  | step n ih =>
    rcases mem_preorder.mp member with rfl | ⟨c, child, below⟩
    · exact List.suffix_rfl
    · have up := ih c child below
      rw [ancestors_child child] at up
      exact (List.suffix_cons c _).trans up

theorem ancestors_eq (n : Node) :
    n.ancestors = (n.parent?.map fun p => p :: p.ancestors).getD [] := by
  obtain ⟨focus, above⟩ := n
  cases above <;> rfl

theorem ancestors_split {inner outer : List Node} (split : n.ancestors = inner ++ d :: outer) :
    outer = d.ancestors := by
  induction inner generalizing n with
  | nil =>
    rw [ancestors_eq] at split
    cases above : n.parent? with
    | none => rw [above] at split; cases split
    | some p => rw [above] at split; cases split; rfl
  | cons a inner ih =>
    rw [ancestors_eq] at split
    cases above : n.parent? with
    | none => rw [above] at split; cases split
    | some p =>
      rw [above] at split
      exact ih (List.cons.inj split).2

theorem ancestors_shorter (member : d ∈ n.ancestors) :
    d.ancestors.length < n.ancestors.length := by
  obtain ⟨inner, outer, split⟩ := List.append_of_mem member
  rw [← ancestors_split split, split]
  simp
  omega

theorem childrenFrom_path (label : Label) (above : List Frame) (left ts : List Tree) :
    (childrenFrom label above left ts).map path =
      (List.range' left.length ts.length).map (· :: above.map (·.left.length)) := by
  induction ts generalizing left with
  | nil => rfl
  | cons t ts ih => simpa [childrenFrom, path, List.range'_succ] using ih (t :: left)

theorem children_path (n : Node) :
    n.children.map path = (List.range' 0 n.focus.children.length).map (· :: n.path) :=
  childrenFrom_path _ _ _ _

theorem path_child (member : c ∈ n.children) : ∃ i, c.path = i :: n.path := by
  have found := List.mem_map_of_mem (f := path) member
  rw [children_path] at found
  obtain ⟨i, _, same⟩ := List.mem_map.mp found
  exact ⟨i, same.symm⟩

-- A node lies at or below another when its path ends in the other's.
def Within (n m : Node) : Prop := n.path <:+ m.path

theorem Within.refl (n : Node) : Within n n := List.suffix_rfl

theorem Within.of_child (member : c ∈ n.children) (below : Within c m) : Within n m := by
  obtain ⟨i, same⟩ := path_child member
  exact (same ▸ List.suffix_cons i n.path : n.path <:+ c.path).trans below

theorem within_child (member : c ∈ n.children) : Within n c := .of_child member (.refl c)

-- Two nodes with nothing at or below both of them.
def Apart (n m : Node) : Prop := ∀ d, Within n d → Within m d → False

theorem Apart.of_child (member : c ∈ n.children) (apart : Apart n m) : Apart c m :=
  fun d left right => apart d (.of_child member left) right

theorem paths_apart {i j : Nat} {above : List Nat} (left : n.path = i :: above)
    (right : m.path = j :: above) (different : i ≠ j) : Apart n m := by
  intro d one two
  unfold Within at one two
  rw [left] at one
  rw [right] at two
  have same := (List.suffix_of_suffix_length_le one two (by simp)).eq_of_length (by simp)
  exact different (List.cons.inj same).1

theorem children_indexed (n : Node) : n.children.Pairwise fun c d =>
    ∃ i j, i < j ∧ c.path = i :: n.path ∧ d.path = j :: n.path := by
  have rising : (n.children.map path).Pairwise fun a b =>
      ∃ i j, i < j ∧ a = i :: n.path ∧ b = j :: n.path := by
    rw [children_path, List.pairwise_map]
    exact (List.pairwise_lt_range' 1).imp fun less => ⟨_, _, less, rfl, rfl⟩
  exact List.pairwise_map.mp rising

theorem children_apart (n : Node) : n.children.Pairwise Apart :=
  (children_indexed n).imp fun ⟨_, _, less, left, right⟩ =>
    paths_apart left right (Nat.ne_of_lt less)

instance : Std.Symm Apart := ⟨fun _ _ apart d left right => apart d right left⟩

theorem Apart.different (apart : Apart n m) : n ≠ m := by
  rintro rfl
  exact apart n (.refl n) (.refl n)

theorem children_nodup (n : Node) : n.children.Nodup := (children_apart n).imp Apart.different

theorem within_preorder (below : m ∈ n.preorder) : Within n m := by
  induction n using Node.induction with
  | step n ih =>
    rcases mem_preorder.mp below with rfl | ⟨c, child, deeper⟩
    · exact .refl _
    · exact .of_child child (ih c child deeper)

end CodeEntities.Node
