import CodeEntities.Extract.Callable
import CodeEntities.Proofs.Loops.Basic
import CodeEntities.Proofs.Text.Nesting

namespace CodeEntities

variable {k : Nat}

namespace Text

-- Goes back byte by byte to a boundary. The start of a text is one; before it nothing is left.
def boundaryLoop (cs : List Char) : Loop Nat (Option Nat) where
  turn stop :=
    if isBoundary cs stop then .leave (some stop)
    else
      match stop with
      | 0 => .leave none
      | stop + 1 => .next stop

theorem boundary_result (cs : List Char) {limit : Nat} (enough : limit < k) :
    (boundaryLoop cs).within k limit = some (floorBoundary? cs limit) := by
  refine Loop.computes id (floorBoundary? cs) ?_ ?_ enough
  · intro stop later turn
    simp only [boundaryLoop] at turn
    split at turn
    · cases turn
    · split at turn
      · cases turn
      · cases turn
        exact Nat.lt_succ_self _
  · intro stop
    simp only [boundaryLoop]
    cases stop <;> rw [floorBoundary?] <;> split <;> rfl

structure ArrowScan where
  depth : Int
  done : List (List Char)
  current : List Char
  rest : List Char

def arrowLoop : Loop ArrowScan (List (List Char)) where
  turn s :=
    match s.rest with
    | [] => .leave (s.current.reverse :: s.done).reverse
    | c :: cs =>
      if s.depth = 0 ∧ c = '=' ∧ cs.head? = some '>' then .next ⟨0, [], [], cs.tail⟩
      else if s.depth = 0 ∧ c = '-' ∧ cs.head? = some '>' then
        .next ⟨0, s.current.reverse :: s.done, [], cs.tail⟩
      else .next ⟨bracketDepth s.depth c, s.done, c :: s.current, cs⟩

theorem arrow_lowers (s later : ArrowScan) (turn : arrowLoop.turn s = .next later) :
    later.rest.length < s.rest.length := by
  obtain ⟨depth, done, current, rest⟩ := s
  simp only [arrowLoop] at turn
  split at turn
  · cases turn
  · next c cs =>
    have behind : cs.tail.length ≤ cs.length := by rw [List.length_tail]; omega
    rw [List.length_cons]
    split at turn
    · cases turn
      exact Nat.lt_succ_of_le behind
    · split at turn <;> cases turn
      · exact Nat.lt_succ_of_le behind
      · exact Nat.lt_succ_self _

theorem arrow_worth (s : ArrowScan) :
    (arrowLoop.turn s).worth (fun s => arrowsFrom s.depth s.done s.current s.rest) =
      arrowsFrom s.depth s.done s.current s.rest := by
  obtain ⟨depth, done, current, rest⟩ := s
  cases rest with
  | nil => rw [arrowsFrom]; rfl
  | cons c cs =>
    simp only [arrowLoop]
    split
    · next arrow =>
      obtain ⟨rfl, rfl, next⟩ := arrow
      obtain ⟨behind, rfl⟩ := List.head?_eq_some_iff.mp next
      rw [arrowsFrom, if_pos rfl]
      rfl
    · next single =>
      split
      · next arrow =>
        obtain ⟨rfl, rfl, next⟩ := arrow
        obtain ⟨behind, rfl⟩ := List.head?_eq_some_iff.mp next
        rw [arrowsFrom, if_pos rfl]
        rfl
      · next double =>
        refine (arrowsFrom_cons fun arrow member found => ?_).symm
        obtain ⟨outside, behind, same⟩ := found
        rcases List.mem_pair.mp member with rfl | rfl <;> cases same
        · exact double ⟨outside, rfl, rfl⟩
        · exact single ⟨outside, rfl, rfl⟩

theorem arrow_result (cs : List Char) (enough : cs.length < k) :
    arrowLoop.within k ⟨0, [], [], cs⟩ = some (arrowsFrom 0 [] [] cs) :=
  Loop.computes (fun s : ArrowScan => s.rest.length)
    (fun s => arrowsFrom s.depth s.done s.current s.rest) arrow_lowers arrow_worth enough

end Text

namespace Context

variable (cx : Context)

def parameterLoop : Loop (List Parameter × List Node) (List Parameter) where
  turn
    | (found, []) => .leave found
    | (found, c :: rest) =>
      if !c.isNamed && c.kind == "params" then
        match rest with
        | type :: name :: rest =>
          .next (found ++ [{
            name := cx.trimmed name
            type := some (Text.cleanType (cx.text type))
            isRest := true }], rest)
        | _ => .next (found, [])
      else if c.isNamed && !c.isComment then .next (found ++ cx.parameter c, rest)
      else .next (found, rest)

theorem parameter_lowers (s later : List Parameter × List Node)
    (turn : cx.parameterLoop.turn s = .next later) : later.2.length < s.2.length := by
  obtain ⟨found, kids⟩ := s
  cases kids with
  | nil => cases turn
  | cons c rest =>
    simp only [parameterLoop] at turn
    rw [List.length_cons]
    split at turn
    · split at turn <;> cases turn
      · simp only [List.length_cons]
        omega
      · exact Nat.succ_pos _
    · split at turn <;> cases turn <;> exact Nat.lt_succ_self _

theorem parameter_worth (s : List Parameter × List Node) :
    (cx.parameterLoop.turn s).worth (fun s => s.1 ++ cx.parametersFrom s.2) =
      s.1 ++ cx.parametersFrom s.2 := by
  obtain ⟨found, kids⟩ := s
  cases kids with
  | nil => rw [parametersFrom]; exact (List.append_nil found).symm
  | cons c rest =>
    by_cases marked : (!c.isNamed && c.kind == "params") = true
    · -- the token takes two nodes along, or what is left
      rcases rest with _ | ⟨type, _ | ⟨name, rest⟩⟩ <;>
        simp only [parameterLoop, parametersFrom, marked, if_true, Turn.worth, List.append_assoc,
          List.singleton_append]
    · rw [parametersFrom.eq_def cx (c :: rest)]
      by_cases shown : (c.isNamed && !c.isComment) = true
      · simp only [parameterLoop, if_neg marked, if_pos shown, Turn.worth, List.append_assoc]
      · simp only [parameterLoop, if_neg marked, if_neg shown, Turn.worth]

theorem parameter_result (kids : List Node) (enough : kids.length < k) :
    cx.parameterLoop.within k ([], kids) = some (cx.parametersFrom kids) :=
  Loop.computes (fun s : List Parameter × List Node => s.2.length)
    (fun s => s.1 ++ cx.parametersFrom s.2) cx.parameter_lowers cx.parameter_worth enough

end Context

end CodeEntities
