import CodeEntities.Proofs.Calls.Entities

namespace CodeEntities

namespace FunctionCall

-- Two calls that differ in their callers at most.
structure SameSite (a b : FunctionCall) : Prop where
  calleeName : a.calleeName = b.calleeName
  line : a.line = b.line
  column : a.column = b.column
  isDirect : a.isDirect = b.isDirect
  isAwaited : a.isAwaited = b.isAwaited
  isConstructor : a.isConstructor = b.isConstructor
  receiver : a.receiver = b.receiver
  arguments : a.arguments = b.arguments

def anonymous (c : FunctionCall) : FunctionCall := c.withCaller "" ""

theorem sameSite_exact {a b : FunctionCall} : SameSite a b ↔ a.anonymous = b.anonymous := by
  constructor
  · rintro ⟨callee, line, column, direct, awaited, constructor, receiver, arguments⟩
    simp only [anonymous, withCaller, callee, line, column, direct, awaited, constructor, receiver,
      arguments]
  · intro same
    obtain ⟨_, _, callee, line, column, direct, awaited, constructor, receiver, arguments⟩ :=
      FunctionCall.mk.inj same
    exact ⟨callee, line, column, direct, awaited, constructor, receiver, arguments⟩

end FunctionCall

namespace CallSearch

-- Declared names reach the callers only: roles, heads, waiting and call sites are
-- read off the tree alone.
theorem callOf_anonymous (s : CallSearch) (declared : DeclaredNames) (n : Node) :
    (s.callOf? n).map (·.anonymous) =
      (({ s with declared } : CallSearch).callOf? n).map (·.anonymous) := by
  have hidden : ({ s with declared } : CallSearch).isHidden n = s.isHidden n := rfl
  have role : ({ s with declared } : CallSearch).role n = s.role n := rfl
  have waited : ({ s with declared } : CallSearch).isWaitedFor n = s.isWaitedFor n := rfl
  unfold callOf?
  rw [hidden, role, waited]
  cases s.isHidden n with
  | true => rfl
  | false =>
    cases s.role n with
    | call =>
      simp only [Bool.false_eq_true, if_false, callAt?, Option.map_map]
      rfl
    | definition name head => rfl
    | container name => rfl
    | other => rfl

theorem run_anonymous (s : CallSearch) (declared : DeclaredNames) (t : Tree) :
    (s.run (.root t)).map (·.anonymous) =
      (({ s with declared } : CallSearch).run (.root t)).map (·.anonymous) := by
  have sorted : ∀ calls : List FunctionCall,
      (calls.mergeSort startsBy).map (·.anonymous) =
        (calls.map (·.anonymous)).mergeSort startsBy :=
    fun calls => List.map_mergeSort fun a _ b _ => rfl
  rw [run_eq, run_eq, sorted, sorted]
  unfold callsWithin
  simp only [List.map_filterMap, callOf_anonymous s declared]

end CallSearch

namespace Outline

theorem assign_anonymous (o : Outline) (c : FunctionCall) :
    (o.assign c).anonymous = c.anonymous := by
  unfold assign
  split
  · split <;> rfl
  · rfl

-- The entities of a file decide on the callers and on nothing else: the calls are
-- those of the tree by itself, place by place.
theorem calls_sameSite (o : Outline) (source : String) (t : Tree) :
    List.Forall₂ FunctionCall.SameSite (o.calls source (.root t))
      (CallGraph.ofTree (.of o.language) source o.filePath (.root t)).calls := by
  have same : (o.calls source (.root t)).map (·.anonymous) =
      (CallGraph.ofTree (.of o.language) source o.filePath (.root t)).calls.map
        (·.anonymous) := by
    calc (o.calls source (.root t)).map (·.anonymous)
        = ((o.search source).run (.root t)).map (·.anonymous) := by
          simp only [calls, List.map_map, Function.comp_def, assign_anonymous]
      _ = _ := CallSearch.run_anonymous (o.search source) [] t
  rw [← List.forall₂_eq_eq_eq, List.forall₂_map_left_iff, List.forall₂_map_right_iff] at same
  exact same.imp fun _ _ => FunctionCall.sameSite_exact.mpr

end Outline

end CodeEntities
