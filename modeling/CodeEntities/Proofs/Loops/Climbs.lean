import CodeEntities.Proofs.Loops.Chains
import CodeEntities.Proofs.Outline.DocAssociation

namespace CodeEntities

theorem Tree.length_le_sizeAll (ts : List Tree) : ts.length ≤ sizeAll ts := by
  induction ts with
  | nil => exact Nat.le_refl _
  | cons t ts ih =>
    have := t.size_pos
    rw [List.length_cons, sizeAll]
    omega

namespace Node

variable {n m : Node} {t : Tree}

theorem ancestors_fewer (inside : m ∈ n.preorder) :
    m.ancestors.length + m.size ≤ n.ancestors.length + n.size := by
  induction n using Node.induction with
  | step n ih =>
    rcases mem_preorder.mp inside with rfl | ⟨c, child, below⟩
    · exact Nat.le_refl _
    · have up := ih c child below
      rw [ancestors_child child, List.length_cons] at up
      have := size_child child
      omega

theorem height_less (inside : n ∈ (root t).preorder) : n.ancestors.length < t.size := by
  have fewer : n.ancestors.length + n.size ≤ 0 + t.size := ancestors_fewer inside
  have : 0 < n.size := n.focus.size_pos
  omega

theorem earlier_less (inside : n ∈ (root t).preorder) : n.earlierSiblings.length < t.size := by
  obtain ⟨focus, above⟩ := n
  cases above with
  | nil => exact t.size_pos
  | cons frame above =>
    have children := Tree.length_le_sizeAll (frame.left.reverse ++ focus :: frame.right)
    have parent := size_preorder (parent_in_tree inside rfl)
    have earlier : (earlierSiblings ⟨focus, frame :: above⟩).length = frame.left.length := by
      rw [← List.length_map, earlierSiblings, earlierFrom_focus]
    simp only [size, Frame.plug, Tree.size, Node.root, List.length_append, List.length_reverse,
      List.length_cons] at children parent
    omega

def climbLoop (isWrapper : Node → Bool) : Loop Node Node where
  turn n :=
    match n.parent? with
    | some p => if isWrapper p then .next p else .leave n
    | none => .leave n

def climbed (isWrapper : Node → Bool) (n : Node) : Node :=
  ((n.ancestors.takeWhile isWrapper).getLast?).getD n

theorem climb_lowers (isWrapper : Node → Bool) (n later : Node)
    (turn : (climbLoop isWrapper).turn n = .next later) :
    later.ancestors.length < n.ancestors.length := by
  simp only [climbLoop] at turn
  split at turn
  · next p up =>
    split at turn
    · cases turn
      rw [ancestors_eq n, up]
      exact Nat.lt_succ_self _
    · cases turn
  · cases turn

theorem climb_worth (isWrapper : Node → Bool) (n : Node) :
    ((climbLoop isWrapper).turn n).worth (climbed isWrapper) = climbed isWrapper n := by
  simp only [climbLoop]
  split
  · next p up =>
    have around : n.ancestors = p :: p.ancestors := by rw [ancestors_eq, up]; rfl
    split
    · next wrapper =>
      rw [climbed, around, List.takeWhile_cons_of_pos wrapper, List.getLast?_cons]
      rfl
    · next other =>
      rw [climbed, around, List.takeWhile_cons_of_neg other]
      rfl
  · next top =>
    rw [climbed, ancestors_eq, top]
    rfl

theorem climb_result (isWrapper : Node → Bool) {k : Nat} (enough : n.ancestors.length < k) :
    (climbLoop isWrapper).within k n = some (climbed isWrapper n) :=
  Loop.computes (fun n => n.ancestors.length) (climbed isWrapper) (climb_lowers isWrapper)
    (climb_worth isWrapper) enough

section Comment

variable (source : String)

def siblingsFrom : Option Node → List Node
  | none => []
  | some p => p :: p.earlierSiblings

theorem siblingsFrom_previous (n : Node) : siblingsFrom n.previousSibling? = n.earlierSiblings := by
  cases found : n.previousSibling? with
  | none => exact (List.head?_eq_none_iff.mp found).symm
  | some p => exact (earlierSiblings_eq found).symm

def attributeLoop : Loop (Nat × Option Node) (Nat × Option Node) where
  turn
    | (row, none) => .leave (row, none)
    | (row, some p) =>
      if isAttribute p then .next ((p.startPosition source).row, p.previousSibling?)
      else .leave (row, some p)

def beyondAttributes (s : Nat × Option Node) : Nat × Option Node :=
  let siblings := siblingsFrom s.2
  ((((siblings.takeWhile isAttribute).getLast?).map fun p => (p.startPosition source).row).getD s.1,
    (siblings.dropWhile isAttribute).head?)

theorem beyond_opening (a : Node) :
    beyondAttributes source ((a.startPosition source).row, a.previousSibling?) =
      (openingRow source a (a.earlierSiblings.takeWhile isAttribute),
        (a.earlierSiblings.dropWhile isAttribute).head?) := by
  simp only [beyondAttributes, siblingsFrom_previous, Option.getD_map]
  rfl

theorem attribute_lowers (s later : Nat × Option Node)
    (turn : (attributeLoop source).turn s = .next later) :
    (siblingsFrom later.2).length < (siblingsFrom s.2).length := by
  obtain ⟨row, prev⟩ := s
  cases prev with
  | none => cases turn
  | some p =>
    simp only [attributeLoop] at turn
    split at turn
    · cases turn
      rw [siblingsFrom_previous]
      exact Nat.lt_succ_self _
    · cases turn

theorem attribute_worth (s : Nat × Option Node) :
    ((attributeLoop source).turn s).worth (beyondAttributes source) =
      beyondAttributes source s := by
  obtain ⟨row, prev⟩ := s
  cases prev with
  | none => rfl
  | some p =>
    simp only [attributeLoop, beyondAttributes, siblingsFrom]
    split
    · next passed =>
      rw [List.takeWhile_cons_of_pos passed, List.dropWhile_cons_of_pos passed,
        List.getLast?_cons]
      simp only [Turn.worth, beyondAttributes, siblingsFrom_previous, Option.map_some,
        Option.getD_some, Option.getD_map]
    · next other =>
      rw [List.takeWhile_cons_of_neg other, List.dropWhile_cons_of_neg other]
      rfl

theorem attribute_result (row : Nat) (prev : Option Node) {k : Nat}
    (enough : (siblingsFrom prev).length < k) :
    (attributeLoop source).within k (row, prev) = some (beyondAttributes source (row, prev)) :=
  Loop.computes (fun s => (siblingsFrom s.2).length) (beyondAttributes source)
    (attribute_lowers source) (attribute_worth source) enough

def runLoop : Loop (List Node × Node) (List Node) where
  turn
    | (run, current) =>
      match current.previousSibling? with
      | none => .leave run
      | some p =>
        if !p.isComment || p.isTrailingComment source ||
            p.lastRow source + 1 < (current.startPosition source).row ||
            Text.isBlockComment (p.commentText source) then .leave run
        else .next (run ++ [p], p)

def extendedRun (s : List Node × Node) : List Node :=
  s.1 ++ commentRun source s.2 s.2.earlierSiblings

theorem run_lowers (s later : List Node × Node) (turn : (runLoop source).turn s = .next later) :
    later.2.earlierSiblings.length < s.2.earlierSiblings.length := by
  obtain ⟨run, current⟩ := s
  simp only [runLoop] at turn
  split at turn
  · cases turn
  · next p before =>
    split at turn
    · cases turn
    · cases turn
      rw [earlierSiblings_eq before]
      exact Nat.lt_succ_self _

theorem run_worth (s : List Node × Node) :
    ((runLoop source).turn s).worth (extendedRun source) = extendedRun source s := by
  obtain ⟨run, current⟩ := s
  simp only [runLoop, extendedRun]
  split
  · next first =>
    rw [← siblingsFrom_previous, first]
    exact (List.append_nil run).symm
  · next p before =>
    rw [earlierSiblings_eq before, commentRun]
    split
    · exact (List.append_nil run).symm
    · exact List.append_assoc run [p] _

theorem run_result (run : List Node) (current : Node) {k : Nat}
    (enough : current.earlierSiblings.length < k) :
    (runLoop source).within k (run, current) = some (extendedRun source (run, current)) :=
  Loop.computes (fun s => s.2.earlierSiblings.length) (extendedRun source) (run_lowers source)
    (run_worth source) enough

def readWithin (turns : Nat) (p : Node) : Option (List Node) :=
  if Text.isBlockComment (p.commentText source) then some [p]
  else (runLoop source).within turns ([p], p)

theorem read_result (p : Node) {k : Nat} (enough : p.earlierSiblings.length < k) :
    readWithin source k p = some (readComments source p) := by
  rw [readWithin, readComments, run_result source [p] p enough]
  split <;> rfl

-- The comment before a node, if each of the climbs to it ends within so many turns.
def precedingWithin (turns : Nat) (n : Node) : Option (Option String) := do
  let start ← (climbLoop isWrapper).within turns n
  let (nextRow, before) ← (attributeLoop source).within turns
    ((start.startPosition source).row, start.previousSibling?)
  match before with
  | none => some none
  | some first =>
    if !first.isComment || first.lastRow source + 1 < nextRow || first.isTrailingComment source then
      some none
    else
      (readWithin source turns first).map fun run =>
        let cleaned := Text.cleanComment (runText source run)
        if cleaned.isEmpty then none else some cleaned

theorem preceding_result (inside : n ∈ (root t).preorder) :
    precedingWithin source t.size n = some (precedingComment source n) := by
  have anchored : n.anchor ∈ (root t).preorder := (climbsTo_anchor n).inTree inside
  have climb : (climbLoop isWrapper).within t.size n = some n.anchor :=
    climb_result isWrapper (height_less inside)
  have attributes := attribute_result source (n.anchor.startPosition source).row
    n.anchor.previousSibling? (siblingsFrom_previous n.anchor ▸ earlier_less anchored)
  rw [beyond_opening] at attributes
  simp only [precedingWithin, climb, attributes, Option.bind_eq_bind, Option.bind_some]
  cases nearest : (n.anchor.earlierSiblings.dropWhile isAttribute).head? with
  | none => rw [precedingComment_far (List.head?_eq_none_iff.mp nearest)]
  | some first =>
    have near := nearestBefore_iff.mpr ⟨rfl, nearest⟩
    have before : first ∈ n.anchor.earlierSiblings :=
      (List.dropWhile_sublist _).subset (List.mem_of_mem_head? nearest)
    rw [precedingComment_near near]
    simp only [read_result source first (earlier_less (sibling_in_tree anchored before)),
      Option.map_some]
    split <;> rfl

end Comment

end Node

end CodeEntities
