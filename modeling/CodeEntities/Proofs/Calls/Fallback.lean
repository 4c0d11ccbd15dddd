import CodeEntities.Calls.Attribution
import CodeEntities.Proofs.Calls.DocumentOrder
import CodeEntities.Proofs.Tree.Descent

namespace CodeEntities

namespace CallForms

variable {kind source : String} {n : Node}

def mentions (f : CallForms) (kind : String) : Bool :=
  f.calls.contains kind || f.constructors.contains kind

theorem mem_of_mentions {f : CallForms} (there : f.mentions kind = true) :
    kind ∈ f.calls ++ f.constructors := by
  simpa [mentions] using there

def unknownKinds (f : CallForms) : List String :=
  (f.calls ++ f.constructors).filter fun kind => !union.mentions kind

theorem unknownKinds_of (l : Language) :
    (of l).unknownKinds =
      match l with
      | .bash => ["command"]
      | .haskell => ["apply"]
      | .go => ["composite_literal"]
      | .rust => ["macro_invocation", "struct_expression"]
      | .php => ["nullsafe_member_call_expression"]
      | _ => [] := by
  cases l <;> decide +kernel

theorem constructors_agree (l : Language) (own : (of l).mentions kind = true)
    (shared : union.mentions kind = true) :
    (of l).constructors.contains kind = union.constructors.contains kind := by
  have table : ∀ kind ∈ (of l).calls ++ (of l).constructors, union.mentions kind = true →
      (of l).constructors.contains kind = union.constructors.contains kind := by
    cases l <;> decide +kernel
  exact table kind (mem_of_mentions own) shared

theorem call_mentions {f : CallForms} (called : CallRole.of f source n = .call) :
    (f.macroCalls && n.kind == "call") = true ∨ f.mentions n.kind = true := by
  unfold CallRole.of at called
  split at called
  · next isMacro => exact .inl isMacro
  · dsimp only at called
    split at called
    · cases called
    · cases called
    · split at called
      · next there => exact .inr there
      · cases called

theorem mentions_of_call (l : Language) (called : CallRole.of (of l) source n = .call) :
    (of l).mentions n.kind = true := by
  rcases call_mentions called with isMacro | there
  · obtain ⟨macros, kind⟩ := Bool.and_eq_true_iff.mp isMacro
    have call : (of l).macroCalls = true → (of l).mentions "call" = true := by
      cases l <;> decide +kernel
    rw [beq_iff_eq.mp kind]
    exact call macros
  · exact there

theorem call_of_apart {f : CallForms} (plain : f.macroCalls = false)
    (apart : n.kind ∉ f.functions ++ f.lambdas ++ f.classes) (there : f.mentions n.kind = true) :
    CallRole.of f source n = .call := by
  simp only [List.mem_append, not_or] at apart
  obtain ⟨⟨function, lambda⟩, container⟩ := apart
  unfold CallRole.of
  simp only [plain, Bool.false_and, List.contains_iff_mem, function, lambda, container,
    Bool.false_eq_true, if_false]
  exact if_pos there

theorem union_call_iff : CallRole.of union source n = .call ↔ union.mentions n.kind = true := by
  constructor
  · intro called
    exact (call_mentions called).resolve_left Bool.false_ne_true
  · intro there
    have table : ∀ kind ∈ union.calls ++ union.constructors,
        kind ∉ union.functions ++ union.lambdas ++ union.classes := by
      decide +kernel
    exact call_of_apart rfl (table n.kind (mem_of_mentions there)) there

end CallForms

namespace CallSite

variable {own other : CallForms} {source : String} {n : Node} {site : CallSite}

def callee? (n : Node) : Option Node :=
  match n.firstField? ["object", "receiver", "scope"] with
  | some _ => none
  | none =>
    (n.firstField? ["function", "method", "target", "name", "macro"]).or n.namedChildren.head?

theorem callee_below {c : Node} (called : callee? n = some c) : c ∈ n.preorder := by
  unfold callee? at called
  split at called
  · cases called
  · rcases Option.or_eq_some_iff.mp called with field | ⟨_, child⟩
    · obtain ⟨_, _, field⟩ := List.exists_of_findSome?_eq_some field
      exact Node.field_below field
    · exact Node.namedChild_below (List.mem_of_head? child)

def isCurried (forms : CallForms) (n : Node) : Bool :=
  !forms.constructors.contains n.kind && (callee? n).any fun c => forms.calls.contains c.kind

theorem ofName_callee (c : Node) :
    (ofName? own source n c).map (·.callee) = (ofName? other source n c).map (·.callee) := by
  unfold ofName?
  dsimp only
  split <;> rfl

def ofCallee? (forms : CallForms) (source : String) (n c : Node) : Option CallSite :=
  if memberKinds.contains c.kind then ofMemberAccess? source c else ofName? forms source n c

theorem ofCallee_callee (c : Node) :
    (ofCallee? own source n c).map (·.callee) = (ofCallee? other source n c).map (·.callee) := by
  unfold ofCallee?
  split
  · rfl
  · exact ofName_callee c

theorem of_built (built : own.constructors.contains n.kind = true) :
    of? own source n = ofConstructor? source n := by
  unfold of?
  exact if_pos built

theorem of_unheld (plain : own.constructors.contains n.kind = false)
    (unheld : n.firstField? ["object", "receiver", "scope"] = none) :
    of? own source n = (callee? n).bind fun c =>
      if own.calls.contains c.kind then none else ofCallee? own source n c := by
  unfold of? callee?
  rw [if_neg (by simp only [plain, Bool.false_eq_true, not_false_eq_true]), unheld]
  rfl

theorem of_held {receiver : Node} (plain : own.constructors.contains n.kind = false)
    (held : n.firstField? ["object", "receiver", "scope"] = some receiver) :
    of? own source n = (n.firstField? ["name", "method"]).bind fun name =>
      ofMember? (receiver.text source) (name.text source)
        (if n.kind == "scoped_call_expression" then "::" else ".") := by
  unfold of?
  rw [if_neg (by simp only [plain, Bool.false_eq_true, not_false_eq_true]), held]

-- No grammar reads a call whose callee is one of its own calls.
theorem of_uncurried {c : Node} (plain : own.constructors.contains n.kind = false)
    (found : of? own source n = some site) (called : callee? n = some c) :
    c.kind ∉ own.calls := by
  intro curried
  cases held : n.firstField? ["object", "receiver", "scope"] with
  | some receiver => simp [callee?, held] at called
  | none =>
    rw [of_unheld plain held, called, Option.bind_some, if_pos (by simpa using curried)] at found
    cases found

-- Two grammars that agree on whether a node builds an object read the same name off
-- it, but for what one of them takes for a curried application.
theorem of_callee
    (agree : own.constructors.contains n.kind = other.constructors.contains n.kind)
    (found : of? own source n = some site) :
    (of? other source n).map (·.callee) =
      if isCurried other n then none else some site.callee := by
  unfold isCurried
  cases built : own.constructors.contains n.kind with
  | true =>
    rw [← agree, built, of_built (agree.symm.trans built), ← of_built built, found]
    rfl
  | false =>
    have plain := agree.symm.trans built
    rw [plain, Bool.not_false, Bool.true_and]
    cases held : n.firstField? ["object", "receiver", "scope"] with
    | some receiver =>
      have uncalled : callee? n = none := by unfold callee?; rw [held]
      rw [of_held plain held, ← of_held built held, found, uncalled]
      rfl
    | none =>
      rw [of_unheld built held] at found
      obtain ⟨c, called, found⟩ := Option.bind_eq_some_iff.mp found
      rw [of_unheld plain held, called, Option.bind_some, Option.any_some]
      cases curried : other.calls.contains c.kind with
      | true => rfl
      | false =>
        have read : ofCallee? own source n c = some site := by
          split at found
          · cases found
          · exact found
        have same : (ofCallee? other source n c).map (·.callee) =
            (ofCallee? own source n c).map (·.callee) := ofCallee_callee c
        simp only [Bool.false_eq_true, if_false, same, read, Option.map_some]

def isKnown (n : Node) : Bool := CallForms.union.mentions n.kind && !isCurried .union n

end CallSite

namespace FunctionCall

-- Two calls of one callee at one place.
structure Matches (a b : FunctionCall) : Prop where
  line : a.line = b.line
  column : a.column = b.column
  callee : a.calleeName = b.calleeName

end FunctionCall

namespace CallSearch

variable {s : CallSearch} {n : Node} {call : FunctionCall}

theorem isHidden_plain (plain : s.forms.macroCalls = false) (n : Node) : s.isHidden n = false := by
  have headless : ∀ d, (s.role d).head? = none := by
    intro d
    unfold role CallRole.of
    rw [plain]
    simp only [Bool.false_and, Bool.false_eq_true, if_false]
    split
    · rfl
    · rfl
    · split <;> rfl
  simp [isHidden, isHead, headless]

theorem callOf_site (found : s.callOf? n = some call) :
    s.role n = .call ∧ ∃ site, CallSite.of? s.forms s.source n = some site ∧
      call.calleeName = site.callee := by
  obtain ⟨_, called, _, _, found⟩ := callOf_exact.mp found
  obtain ⟨site, read, rfl⟩ := Option.map_eq_some_iff.mp found
  exact ⟨called, site, read, rfl⟩

variable {l : Language} {path source : String} {c d : FunctionCall}

def reading (forms : CallForms) (source path : String) : CallSearch where
  source := source
  filePath := path
  forms := forms

@[simp]
theorem reading_source (forms : CallForms) : (reading forms source path).source = source := rfl

@[simp]
theorem reading_forms (forms : CallForms) : (reading forms source path).forms = forms := rfl

-- The union finds a call where a grammar does exactly when it knows the call, at the same place
-- and of the same callee.
theorem union_finds (found : (reading (.of l) source path).callOf? n = some c) :
    ((reading .union source path).callOf? n).isSome = CallSite.isKnown n := by
  obtain ⟨called, site, read, _⟩ := callOf_site found
  have own : (CallForms.of l).mentions n.kind = true := CallForms.mentions_of_call l called
  unfold callOf? CallSite.isKnown
  rw [isHidden_plain rfl, if_neg Bool.false_ne_true]
  cases shared : CallForms.union.mentions n.kind with
  | false =>
    have other : (reading .union source path).role n ≠ .call := by
      intro role
      exact absurd (CallForms.union_call_iff.mp role) (by simp [shared])
    cases role : (reading .union source path).role n with
    | call => exact absurd role other
    | definition name head => rfl
    | container name => rfl
    | other => rfl
  | true =>
    have role : (reading .union source path).role n = .call := CallForms.union_call_iff.mpr shared
    have agree := CallForms.constructors_agree l own shared
    have same := congrArg Option.isSome (CallSite.of_callee agree read)
    rw [role]
    simp only [callAt?, Option.isSome_map] at same ⊢
    refine same.trans ?_
    cases CallSite.isCurried .union n <;> rfl

theorem union_matches (own : (reading (.of l) source path).callOf? n = some c)
    (found : (reading .union source path).callOf? n = some d) : d.Matches c := by
  obtain ⟨called, site, read, name⟩ := callOf_site own
  obtain ⟨role, other, reread, rename⟩ := callOf_site found
  obtain ⟨line, column⟩ := callOf_position own
  obtain ⟨line', column'⟩ := callOf_position found
  have agree := CallForms.constructors_agree l (CallForms.mentions_of_call l called)
    (CallForms.union_call_iff.mp role)
  have same := CallSite.of_callee agree read
  refine ⟨line'.trans line.symm, column'.trans column.symm, ?_⟩
  rw [rename, name]
  simp only [reading_source, reading_forms] at same reread
  rw [reread, Option.map_some] at same
  split at same
  · cases same
  · exact Option.some.inj same

-- The union misses a grammar's own kinds of calls and callees that only another
-- grammar takes for calls.
theorem missed_by_union (found : (reading (.of l) source path).callOf? n = some c)
    (missed : CallSite.isKnown n = false) :
    n.kind ∈ (CallForms.of l).unknownKinds ∨
      ∃ called, CallSite.callee? n = some called ∧
        called.kind ∈ CallForms.union.calls ∧ called.kind ∉ (CallForms.of l).calls := by
  obtain ⟨called, site, read, _⟩ := callOf_site found
  have own : (CallForms.of l).mentions n.kind = true := CallForms.mentions_of_call l called
  unfold CallSite.isKnown at missed
  cases shared : CallForms.union.mentions n.kind with
  | false =>
    refine .inl (List.mem_filter.mpr ⟨CallForms.mem_of_mentions own, ?_⟩)
    rw [shared]
    rfl
  | true =>
    have agree := CallForms.constructors_agree l own shared
    rw [shared, Bool.true_and, Bool.not_eq_false', CallSite.isCurried, ← agree,
      Bool.and_eq_true] at missed
    obtain ⟨plain, curried⟩ := missed
    obtain ⟨callee, there, foreign⟩ := (Option.any_eq_true _ _).mp curried
    refine .inr ⟨callee, there, by simpa using foreign, ?_⟩
    have plain : (CallForms.of l).constructors.contains n.kind = false := by simpa using plain
    exact CallSite.of_uncurried plain read there

end CallSearch

namespace CallGraph

open CallSearch

theorem ofTree_calls (forms : CallForms) (source path : String) (t : Tree) :
    (ofTree forms source path (.root t)).calls =
      ((reading forms source path).callsWithin (.root t)).mergeSort startsBy :=
  run_eq _ t

theorem ofPath_undetected {path : String} (undetected : Language.ofPath? path = none) :
    CallForms.ofPath path = .union := by
  unfold CallForms.ofPath
  rw [undetected]
  rfl

section

variable {l : Language} {path source : String} {t : Tree} {n : Node} {c : FunctionCall}

theorem known_call_is_covered (inside : n ∈ (Node.root t).preorder)
    (found : (reading (.of l) source path).callOf? n = some c)
    (known : CallSite.isKnown n = true) :
    ∃ d ∈ (ofTree .union source path (.root t)).calls, d.Matches c := by
  obtain ⟨d, there⟩ := Option.isSome_iff_exists.mp ((union_finds found).trans known)
  exact ⟨d, mem_run.mpr ⟨n, inside, there⟩, union_matches found there⟩

theorem native_calls_are_covered (undetected : Language.ofPath? path = none)
    (listed : l ∉ [.bash, .haskell, .go, .rust, .php])
    (native : ∀ n ∈ (Node.root t).preorder,
      n.kind ∈ CallForms.union.calls → n.kind ∈ (CallForms.of l).calls) :
    ∀ c ∈ (ofTree (.of l) source path (.root t)).calls,
      ∃ d ∈ (ofTree (.ofPath path) source path (.root t)).calls, d.Matches c := by
  rw [ofPath_undetected undetected]
  intro c called
  obtain ⟨n, inside, found⟩ := mem_run.mp called
  refine known_call_is_covered inside found ?_
  have kinds : (CallForms.of l).unknownKinds = [] := by
    rw [CallForms.unknownKinds_of]
    cases l <;> first | rfl | simp at listed
  cases known : CallSite.isKnown n with
  | true => rfl
  | false =>
    rcases missed_by_union found known with own | ⟨callee, called, shared, foreign⟩
    · rw [kinds] at own
      cases own
    · have below := Node.preorder_trans inside (CallSite.callee_below called)
      exact absurd (native callee below shared) foreign

end

-- The union finds a call of a grammar exactly when the kind of the call is one of the
-- union's and what is called is not a call of the union: there it has the same place and
-- the same callee. So all the calls of a grammar have counterparts exactly when each is
-- such a call or has a namesake at the same place. Missing are five grammars' own kinds
-- of calls and callees that only another grammar takes for calls.
theorem fallback_finds_known_calls (l : Language) (path source : String) (t : Tree)
    (undetected : Language.ofPath? path = none) :
    let own := reading (.of l) source path
    let fallback := reading (.ofPath path) source path
    (∀ n c, own.callOf? n = some c →
      ((fallback.callOf? n).isSome = CallSite.isKnown n ∧
        ∀ d, fallback.callOf? n = some d → d.Matches c) ∧
      (CallSite.isKnown n = false →
        n.kind ∈ (CallForms.of l).unknownKinds ∨
          ∃ called, CallSite.callee? n = some called ∧
            called.kind ∈ CallForms.union.calls ∧ called.kind ∉ (CallForms.of l).calls)) ∧
    ((∀ c ∈ (ofTree (.of l) source path (.root t)).calls,
        ∃ d ∈ (ofTree (.ofPath path) source path (.root t)).calls, d.Matches c) ↔
      ∀ n ∈ (Node.root t).preorder, ∀ c, own.callOf? n = some c → CallSite.isKnown n = true ∨
        ∃ m ∈ (Node.root t).preorder, m ≠ n ∧ ∃ d, fallback.callOf? m = some d ∧ d.Matches c) := by
  rw [ofPath_undetected undetected]
  intro own fallback
  refine ⟨fun n c found => ⟨⟨union_finds found, fun d => union_matches found⟩,
    missed_by_union found⟩, ?_⟩
  constructor
  · intro covered n inside c found
    obtain ⟨d, listed, same⟩ := covered c (mem_run.mpr ⟨n, inside, found⟩)
    obtain ⟨m, other, there⟩ := mem_run.mp listed
    cases known : CallSite.isKnown n with
    | true => exact .inl rfl
    | false =>
      refine .inr ⟨m, other, ?_, d, there, same⟩
      rintro rfl
      have missed := union_finds found
      rw [known, show (reading .union source path).callOf? m = some d from there] at missed
      cases missed
  · intro known c listed
    obtain ⟨n, inside, found⟩ := mem_run.mp listed
    rcases known n inside c found with here | ⟨m, other, _, d, there, same⟩
    · exact known_call_is_covered inside found here
    · exact ⟨d, mem_run.mpr ⟨m, other, there⟩, same⟩

theorem chained_calls_are_known :
    Language.ofPath? "script.unknown" = none ∧
    (ofTree (.of .javascript) "a().b()" "script.unknown" (.root chainedCalls)).calls.length = 2 ∧
    ∀ c ∈ (ofTree (.of .javascript) "a().b()" "script.unknown" (.root chainedCalls)).calls,
      ∃ d ∈ (ofTree (.ofPath "script.unknown") "a().b()" "script.unknown"
        (.root chainedCalls)).calls, d.Matches c := by
  have undetected : Language.ofPath? "script.unknown" = none := by decide +kernel
  have known : ∀ n ∈ (Node.root chainedCalls).preorder,
      ((reading (.of .javascript) "a().b()" "script.unknown").callOf? n).isSome = true →
        CallSite.isKnown n = true := by
    decide +kernel
  obtain ⟨_, covered⟩ :=
    fallback_finds_known_calls .javascript "script.unknown" "a().b()" chainedCalls undetected
  refine ⟨undetected, ?_, covered.mpr ?_⟩
  · rw [ofTree_calls, List.length_mergeSort]
    decide +kernel
  · intro n inside c found
    exact .inl (known n inside (Option.isSome_of_eq_some found))

-- `ls` in a shell script is a command, which the union does not know.
def listing : Tree :=
  .whole "program" 0 3 none [
    .whole "command" 0 2 none [
      .whole "command_name" 0 2 (some "name") [.whole "word" 0 2 none []]]]

theorem commands_are_missed :
    ¬ ∀ (l : Language) (path source : String) (t : Tree), l ≠ .elixir →
      Language.ofPath? path = none →
      ∀ c ∈ (ofTree (.of l) source path (.root t)).calls,
        ∃ d ∈ (ofTree (.ofPath path) source path (.root t)).calls, d.Matches c := by
  intro covered
  have covered := covered .bash "script.unknown" "ls\n" listing (by decide) (by decide +kernel)
  have nothing :
      (ofTree (.ofPath "script.unknown") "ls\n" "script.unknown" (.root listing)).calls.length = 0 := by
    rw [ofTree_calls, List.length_mergeSort]
    decide +kernel
  have called :
      0 < (ofTree (.of .bash) "ls\n" "script.unknown" (.root listing)).calls.length := by
    rw [ofTree_calls, List.length_mergeSort]
    decide +kernel
  obtain ⟨c, found⟩ := List.exists_mem_of_length_pos called
  obtain ⟨d, missing, _⟩ := covered c found
  rw [List.eq_nil_of_length_eq_zero nothing] at missing
  cases missing

end CallGraph

end CodeEntities
