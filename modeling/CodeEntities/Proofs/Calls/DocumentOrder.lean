import CodeEntities.Proofs.Calls.Walk
import CodeEntities.Proofs.Text.Position
import CodeEntities.Proofs.Tree.Order

namespace CodeEntities.CallSearch

variable {s : CallSearch} {t : Tree} {n m : Node} {a b : FunctionCall}

theorem callOf_position (found : s.callOf? n = some a) :
    a.line = (n.startPosition s.source).row + 1 ∧
      a.column = (n.startPosition s.source).column := by
  obtain ⟨_, _, _, _, found⟩ := callOf_exact.mp found
  obtain ⟨site, _, rfl⟩ := Option.map_eq_some_iff.mp found
  exact ⟨rfl, rfl⟩

theorem startsBy_of_le (before : n.label.start ≤ m.label.start) (first : s.callOf? n = some a)
    (second : s.callOf? m = some b) : startsBy a b = true := by
  have le := Text.Position.le_def.mp (Text.Position.atOffset_mono s.source before)
  obtain ⟨line, column⟩ := callOf_position first
  obtain ⟨line', column'⟩ := callOf_position second
  simp only [startsBy, line, column, line', column', Node.startPosition, Bool.or_eq_true,
    Bool.and_eq_true, decide_eq_true_eq, beq_iff_eq]
  omega

theorem callsWithin_sorted (placed : (Node.root t).WellPlaced) :
    (s.callsWithin (.root t)).Pairwise fun a b => startsBy a b = true := by
  refine List.Pairwise.filterMap _ ?_ (Node.WellPlaced.preorder_starts placed)
  intro n m before a first b second
  exact startsBy_of_le before first second

theorem run_placed (placed : (Node.root t).WellPlaced) :
    s.run (.root t) = s.callsWithin (.root t) := by
  rw [run_eq, List.mergeSort_of_pairwise (callsWithin_sorted placed)]

-- In a tree whose nodes enclose their children in order the calls are found in the
-- order of the document. The final sort moves none, and of two nested calls the outer
-- one comes first, be it at the same place.
theorem run_in_document_order (s : CallSearch) (t : Tree) (placed : (Node.root t).WellPlaced) :
    let found := (s.drain { pending := [{ node := .root t }] }).calls
    found = (Node.root t).preorder.filterMap s.callOf? ∧
    found.mergeSort startsBy = found ∧
    s.run (.root t) = found ∧
    ∀ n ∈ (Node.root t).preorder, ∀ m ∈ n.descendants, ∀ outer inner,
      s.callOf? n = some outer → s.callOf? m = some inner →
      [outer, inner].Sublist (s.run (.root t)) := by
  have sorted : (s.callsWithin (.root t)).mergeSort startsBy = s.callsWithin (.root t) :=
    List.mergeSort_of_pairwise (callsWithin_sorted placed)
  refine ⟨drain_calls s t, ?_, ?_, ?_⟩
  · rw [drain_calls, sorted]
  · rw [run_eq, drain_calls, sorted]
  · intro n inside m below outer inner first second
    rw [run_eq, sorted]
    have pair := (Node.pair_sublist inside below).filterMap s.callOf?
    simp only [List.filterMap_cons, first, second, List.filterMap_nil] at pair
    exact pair

-- The calls `b` of `a().b()` and `a` of its receiver, both at the start of the line.
def chainedCalls : Tree :=
  .whole "program" 0 7 none [
    .whole "call_expression" 0 7 none [
      .whole "member_expression" 0 5 (some "function") [
        .whole "call_expression" 0 3 (some "object") [
          .whole "identifier" 0 1 (some "function") [],
          .whole "arguments" 1 3 (some "arguments") [.token "(" 1, .token ")" 2]],
        .token "." 3,
        .whole "property_identifier" 4 5 (some "property") []],
      .whole "arguments" 5 7 (some "arguments") [.token "(" 5, .token ")" 6]]]

theorem outer_call_before_receiver :
    let s : CallSearch := { source := "a().b()", filePath := "a.js", forms := .of .javascript }
    (Node.root chainedCalls).WellPlaced ∧
    (s.run (.root chainedCalls)).map (fun c => (c.calleeName, c.line, c.column)) =
      [("b", 1, 0), ("a", 1, 0)] ∧
    s.run (.root chainedCalls) = (Node.root chainedCalls).preorder.filterMap s.callOf? := by
  have placed : (Node.root chainedCalls).WellPlaced := by decide +kernel
  obtain ⟨found, _, returned, _⟩ := run_in_document_order
    { source := "a().b()", filePath := "a.js", forms := .of .javascript } chainedCalls placed
  rw [found] at returned
  refine ⟨placed, ?_, returned⟩
  rw [returned]
  decide +kernel

end CodeEntities.CallSearch
