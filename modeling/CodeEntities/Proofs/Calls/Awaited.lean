import CodeEntities.Proofs.Calls.Fallback
import CodeEntities.Proofs.Tree.Search

namespace CodeEntities

namespace CallForms

-- The forms that files are read by.
def IsUsed (f : CallForms) : Prop := f = union ∨ ∃ l, f = of l

theorem IsUsed.closed {f : CallForms} {kind : String} (used : f.IsUsed)
    (closed : kind ∈ f.calls ++ f.constructors ++ CallSite.argumentLists) :
    kind ∉ f.awaits ∧ kind ∉ CallSearch.parenthesisKinds := by
  have table : ∀ kind ∈ f.calls ++ f.constructors ++ CallSite.argumentLists,
      kind ∉ f.awaits ∧ kind ∉ CallSearch.parenthesisKinds := by
    rcases used with rfl | ⟨l, rfl⟩
    · decide +kernel
    · cases l <;> decide +kernel
  exact table kind closed

theorem IsUsed.mentions {f : CallForms} {source : String} {n : Node} (used : f.IsUsed)
    (called : CallRole.of f source n = .call) : f.mentions n.kind = true := by
  rcases used with rfl | ⟨l, rfl⟩
  · exact union_call_iff.mp called
  · exact mentions_of_call l called

end CallForms

namespace CallSite

variable {n m list : Node}

theorem argument_parent (usual : ∀ c, n.field? "arguments" = some c → c ∈ n.children)
    (argument : m ∈ argumentNodes n) :
    ∃ k, m ∈ k.children ∧ (k = n ∨ k.kind ∈ argumentLists) := by
  unfold argumentNodes at argument
  split at argument
  · next list found =>
    have child : list ∈ n.children := by
      rcases Option.or_eq_some_iff.mp found with field | ⟨_, kind⟩
      · exact usual list field
      · exact List.mem_of_find?_eq_some kind
    extract_lets inner at argument
    split at argument
    · next listed =>
      exact ⟨inner, (List.mem_filter.mp argument).1, .inr (List.contains_iff_mem.mp listed)⟩
    · rw [List.mem_singleton.mp argument]
      by_cases suffix : (list.kind == "call_suffix") = true
      · cases found : list.childOfKind? ["value_arguments"] with
        | none => exact ⟨n, by simpa [inner, suffix, found] using child, .inl rfl⟩
        | some values =>
          have within : values ∈ list.children := List.mem_of_find?_eq_some found
          refine ⟨list, by simpa [inner, suffix, found] using within, .inr ?_⟩
          rw [beq_iff_eq.mp suffix]
          decide
      · exact ⟨n, by simpa [inner, suffix] using child, .inl rfl⟩
  · exact ⟨n, (List.mem_filter.mp argument).1, .inl rfl⟩

end CallSite

namespace CallSearch

variable {s : CallSearch} {n m a : Node} {call : FunctionCall}

-- A node waits for another below it: between them stand only parentheses.
def Awaits (s : CallSearch) (a n : Node) : Prop :=
  a.kind ∈ s.forms.awaits ∧ a.ReachedThrough (·.kind ∈ parenthesisKinds) n

theorem find_stop_exact {α : Type} {stop through : α → Bool} {l : List α} :
    (l.find? fun a => stop a || !through a).any stop = true ↔
      ∃ a between beyond, l = between ++ a :: beyond ∧ stop a = true ∧
        ∀ b ∈ between, through b = true := by
  rw [Option.any_eq_true]
  constructor
  · rintro ⟨a, first, here⟩
    obtain ⟨_, between, beyond, rfl, passed⟩ := List.find?_eq_some_iff_append.mp first
    refine ⟨a, between, beyond, rfl, here, fun b member => ?_⟩
    have goesOn := passed b member
    simp only [Bool.not_or, Bool.not_not, Bool.and_eq_true] at goesOn
    exact goesOn.2
  · rintro ⟨a, between, beyond, rfl, here, inside⟩
    rw [List.find?_append]
    cases first : between.find? fun a => stop a || !through a with
    | some b =>
      -- An earlier one that lets through and ends the search all the same stops it itself.
      have decides := List.find?_some first
      rw [inside b (List.mem_of_find?_eq_some first), Bool.not_true, Bool.or_false] at decides
      exact ⟨b, Option.some_or, decides⟩
    | none => exact ⟨a, by rw [Option.none_or, List.find?_cons_of_pos (by simp [here])], here⟩

theorem isWaitedFor_exact : s.isWaitedFor n = true ↔ ∃ a, s.Awaits a n := by
  unfold isWaitedFor
  rw [find_stop_exact]
  refine exists_congr fun a => ?_
  simp only [Awaits, Node.ReachedThrough, List.contains_iff_mem]
  constructor
  · rintro ⟨between, beyond, up, waits, inside⟩
    exact ⟨waits, between, beyond, up, inside⟩
  · rintro ⟨waits, between, beyond, up, inside⟩
    exact ⟨between, beyond, up, waits, inside⟩

theorem callAt_awaited {caller : String} {waited : Bool}
    (found : s.callAt? caller waited n = some call) : call.isAwaited = waited := by
  obtain ⟨site, _, rfl⟩ := Option.map_eq_some_iff.mp found
  rfl

theorem callOf_awaited (found : s.callOf? n = some call) :
    call.isAwaited = true ↔ ∃ a, s.Awaits a n := by
  obtain ⟨_, _, _, _, found⟩ := callOf_exact.mp found
  rw [callAt_awaited found, isWaitedFor_exact]

theorem Awaits.within (closed : n.kind ∉ s.forms.awaits ∧ n.kind ∉ parenthesisKinds)
    (below : m ∈ n.descendants) (awaits : s.Awaits a m) : a ∈ n.descendants := by
  obtain ⟨waits, between, beyond, up, inside⟩ := awaits
  have above := Node.descendants_exact.mp below
  rw [up] at above
  rcases List.mem_append.mp above with inner | rest
  · exact absurd (inside n inner) closed.2
  · rcases List.mem_cons.mp rest with rfl | outer
    · exact absurd waits closed.1
    · rw [Node.ancestors_split up] at outer
      exact Node.descendants_exact.mpr outer

theorem not_awaited_in (closed : n.kind ∉ s.forms.awaits ∧ n.kind ∉ parenthesisKinds)
    (child : m ∈ n.children) : ¬ s.Awaits a m := by
  rintro ⟨waits, between, beyond, up, inside⟩
  rw [Node.ancestors_child child] at up
  cases between with
  | nil => exact closed.1 ((List.cons.inj up).1 ▸ waits)
  | cons b between => exact closed.2 ((List.cons.inj up).1 ▸ inside b (List.mem_cons_self ..))

-- A recorded call is awaited exactly when something waits for its node, through parentheses
-- alone. So no await around a call reaches what is below the call, and where the argument
-- list is a child of the call, no await at all reaches a call that is an argument.
theorem awaited_through_parentheses (s : CallSearch) (t : Tree) :
    (∀ call, call ∈ s.run (.root t) ↔ ∃ n ∈ (Node.root t).preorder, s.callOf? n = some call) ∧
    (∀ n call, s.callOf? n = some call → (call.isAwaited = true ↔ ∃ a, s.Awaits a n)) ∧
    (s.forms.IsUsed → ∀ n outer, s.callOf? n = some outer →
      (∀ m ∈ n.descendants, ∀ a, s.Awaits a m → a ∈ n.descendants) ∧
      ((∀ c, n.field? "arguments" = some c → c ∈ n.children) →
        ∀ m ∈ CallSite.argumentNodes n, ∀ inner, s.callOf? m = some inner →
          inner.isAwaited = false)) := by
  refine ⟨fun call => mem_run, fun n call => callOf_awaited, ?_⟩
  intro used n outer found
  have called : s.role n = .call := (callOf_exact.mp found).2.1
  have closed := used.closed
    (List.mem_append_left _ (CallForms.mem_of_mentions (used.mentions called)))
  refine ⟨fun m below a => Awaits.within closed below, ?_⟩
  intro usual m argument inner there
  obtain ⟨k, child, place⟩ := CallSite.argument_parent usual argument
  have apart : ¬ inner.isAwaited = true := by
    intro awaited
    obtain ⟨a, awaits⟩ := (callOf_awaited there).mp awaited
    rcases place with rfl | listed
    · exact not_awaited_in closed child awaits
    · exact not_awaited_in (used.closed (List.mem_append_right _ listed)) child awaits
  exact Bool.eq_false_iff.mpr apart

-- `await ((f(g())))`
def awaitedCall : Tree :=
  .whole "program" 0 16 none [
    .whole "await_expression" 0 16 none [
      .token "await" 0,
      .whole "parenthesized_expression" 6 16 none [
        .token "(" 6,
        .whole "parenthesized_expression" 7 15 none [
          .token "(" 7,
          .whole "call_expression" 8 14 none [
            .whole "identifier" 8 9 (some "function") [],
            .whole "arguments" 9 14 (some "arguments") [
              .token "(" 9,
              .whole "call_expression" 10 13 none [
                .whole "identifier" 10 11 (some "function") [],
                .whole "arguments" 11 13 (some "arguments") [.token "(" 11, .token ")" 12]],
              .token ")" 13]],
          .token ")" 14],
        .token ")" 15]]]

def awaitedNode (path : List Nat) : Node :=
  ((Node.root awaitedCall).descend path).getD (.root awaitedCall)

def awaitedSearch : CallSearch where
  source := "await ((f(g())))"
  filePath := "a.js"
  forms := .of .javascript

theorem await_stops_at_arguments :
    awaitedSearch.forms.IsUsed ∧
    (awaitedSearch.run (.root awaitedCall)).map (fun c => (c.calleeName, c.isAwaited)) =
      [("f", true), ("g", false)] ∧
    awaitedNode [0, 1, 1, 1, 1, 1] ∈ CallSite.argumentNodes (awaitedNode [0, 1, 1, 1]) ∧
    ∀ inner, awaitedSearch.callOf? (awaitedNode [0, 1, 1, 1, 1, 1]) = some inner →
      inner.isAwaited = false := by
  have used : awaitedSearch.forms.IsUsed := .inr ⟨.javascript, rfl⟩
  have placed : (Node.root awaitedCall).WellPlaced := by decide +kernel
  have argument :
      awaitedNode [0, 1, 1, 1, 1, 1] ∈ CallSite.argumentNodes (awaitedNode [0, 1, 1, 1]) :=
    List.mem_singleton.mpr rfl
  have usual : ∀ c, (awaitedNode [0, 1, 1, 1]).field? "arguments" = some c →
      c ∈ (awaitedNode [0, 1, 1, 1]).children := by
    intro c found
    have listed : (awaitedNode [0, 1, 1, 1]).field? "arguments" =
        some (awaitedNode [0, 1, 1, 1, 1]) := rfl
    rw [← Option.some.inj (listed.symm.trans found)]
    exact List.mem_of_getElem? (i := 1) rfl
  have called : (awaitedSearch.callOf? (awaitedNode [0, 1, 1, 1])).isSome = true := by
    decide +kernel
  obtain ⟨outer, found⟩ := Option.isSome_iff_exists.mp called
  obtain ⟨_, _, bounded⟩ := awaited_through_parentheses awaitedSearch awaitedCall
  obtain ⟨_, unawaited⟩ := bounded used _ outer found
  refine ⟨used, ?_, argument, unawaited usual _ argument⟩
  rw [run_placed placed]
  decide +kernel

end CallSearch

end CodeEntities
