import CodeEntities.Proofs.Calls.Classes

namespace CodeEntities

namespace Text

def isNameLetter (c : Char) : Bool := isAlphanumeric c || c == '_'

theorem nameLetter_unblank {c : Char} (letter : isNameLetter c = true) : isBlank c = false := by
  rcases Bool.or_eq_true_iff.mp letter with alphanumeric | line
  · exact alphanumeric_unblank alphanumeric
  · rw [beq_iff_eq.mp line]
    decide

end Text

namespace CallForms

theorem calls_apart {l : Language} {kind : String} (elsewhere : l ≠ .elixir)
    (called : kind ∈ (of l).calls) :
    kind ∉ (of l).functions ++ (of l).lambdas ++ (of l).classes ∧ kind ∉ (of l).constructors ∧
      kind ∉ identifierKinds := by
  have table : ∀ kind ∈ (of l).calls,
      kind ∉ (of l).functions ++ (of l).lambdas ++ (of l).classes ∧ kind ∉ (of l).constructors ∧
        kind ∉ identifierKinds := by
    cases l <;> first | exact absurd rfl elsewhere | decide +kernel
  exact table kind called

theorem of_plain {l : Language} (elsewhere : l ≠ .elixir) : (of l).macroCalls = false := by
  cases l <;> first | exact absurd rfl elsewhere | rfl

end CallForms

namespace CallSite

variable {forms : CallForms} {source : String} {n c : Node}

-- A call whose callee is a plain name.
structure CallsName (forms : CallForms) (source : String) (n c : Node) : Prop where
  called : n.kind ∈ forms.calls
  unheld : n.firstField? ["object", "receiver", "scope"] = none
  callee : (n.firstField? ["function", "method", "target", "name", "macro"]).or
    n.namedChildren.head? = some c
  identifier : c.isIdentifier = true
  leaf : c.children = []
  filled : c.text source ≠ ""
  letters : ∀ ch ∈ (c.text source).toList, Text.isNameLetter ch = true

theorem CallsName.callee_eq (names : CallsName forms source n c) : callee? n = some c := by
  unfold callee?
  rw [names.unheld]
  exact names.callee

theorem CallsName.trimmed (names : CallsName forms source n c) :
    Text.trim (c.text source) = c.text source :=
  Text.trim_unblank fun ch there => Text.nameLetter_unblank (names.letters ch there)

theorem CallsName.simple_iff (names : CallsName forms source n c) :
    isSimple (c.text source) = true ↔ (c.text source).utf8ByteSize ≤ maxReceiverBytes := by
  have letters : (c.text source).toList.all
      (fun ch => Text.isAlphanumeric ch || ['_', '.', ':', '$', '@'].contains ch) = true := by
    refine List.all_eq_true.mpr fun ch there => ?_
    rcases Bool.or_eq_true_iff.mp (names.letters ch there) with alphanumeric | line
    · rw [alphanumeric, Bool.true_or]
    · rw [beq_iff_eq.mp line]
      exact Bool.or_true _
  have filled : (c.text source).isEmpty = false :=
    Bool.eq_false_iff.mpr fun empty => names.filled (String.isEmpty_iff.mp empty)
  unfold isSimple
  rw [letters, filled, Bool.and_true, Bool.not_false, Bool.true_and, decide_eq_true_iff,
    Text.byteLength_toList]

-- Names are read whatever they are made of, but not whatever their length.
theorem CallsName.site_iff (names : CallsName forms source n c)
    (plain : n.kind ∉ forms.constructors) (foreign : c.kind ∉ forms.calls) (site : CallSite) :
    of? forms source n = some site ↔
      (c.text source).utf8ByteSize ≤ maxReceiverBytes ∧
        site =
          { callee := shownName n (c.text source)
            isConstructor := forms.capitalizedConstructors &&
              Text.isCapitalized (shownName n (c.text source)) } := by
  have table : ∀ kind ∈ identifierKinds, kind ∉ memberKinds := by decide +kernel
  have name : c.kind ∉ memberKinds := table _ (List.contains_iff_mem.mp names.identifier)
  rw [of_unheld (by simpa using plain) names.unheld, names.callee_eq, Option.bind_some,
    if_neg (by simpa using foreign), ofCallee?, if_neg (by simpa using name), ofName_exact,
    names.trimmed, names.simple_iff]

end CallSite

namespace CallSearch

variable {s : CallSearch} {l : Language} {t : Tree} {n c : Node}

theorem name_role (forms : s.forms = .of l) (elsewhere : l ≠ .elixir)
    (called : n.kind ∈ s.forms.calls) : s.role n = .call := by
  rw [forms] at called
  have there : (CallForms.of l).mentions n.kind = true :=
    Bool.or_eq_true_iff.mpr (.inl (List.contains_iff_mem.mpr called))
  rw [role, forms]
  exact CallForms.call_of_apart (CallForms.of_plain elsewhere)
    (CallForms.calls_apart elsewhere called).1 there

theorem callOf_called (forms : s.forms = .of l) (elsewhere : l ≠ .elixir)
    (called : n.kind ∈ s.forms.calls) :
    s.callOf? n = s.callAt? (s.callerOf n) (s.isWaitedFor n) n := by
  have shown : s.isHidden n = false :=
    isHidden_plain (by rw [forms]; exact CallForms.of_plain elsewhere) n
  unfold callOf?
  rw [shown, name_role forms elsewhere called]
  rfl

-- The calls of a tree, and among them that of one node.
theorem run_around (inside : n ∈ (Node.root t).preorder) :
    ∃ before after, (Node.root t).preorder = before ++ n :: after ∧
      (s.run (.root t)).Perm
        (before.filterMap s.callOf? ++ (s.callOf? n).toList ++ after.filterMap s.callOf?) := by
  obtain ⟨before, after, split⟩ := List.append_of_mem inside
  refine ⟨before, after, split, ?_⟩
  rw [run_eq, callsWithin, split, List.filterMap_append, List.filterMap_cons]
  refine (List.mergeSort_perm _ _).trans ?_
  cases s.callOf? n <;> simp

-- A call whose callee is a plain name is found at its node, once, exactly when the name is
-- as short as a receiver that is shown: the test for receivers is made of callees too.
theorem named_call_found_iff_short (s : CallSearch) (l : Language) (t : Tree) (n c : Node)
    (elsewhere : l ≠ .elixir) (forms : s.forms = .of l) (inside : n ∈ (Node.root t).preorder)
    (names : CallSite.CallsName s.forms s.source n c) :
    ((s.callOf? n).isSome = true ↔
      (c.text s.source).utf8ByteSize ≤ CallSite.maxReceiverBytes) ∧
    (∀ call, s.callOf? n = some call →
      call.calleeName = CallSite.shownName n (c.text s.source) ∧ call.receiver = none ∧
        (call.line, call.column) = s.startOf n) ∧
    ∃ before after, (Node.root t).preorder = before ++ n :: after ∧
      (s.run (.root t)).Perm
        (before.filterMap s.callOf? ++ (s.callOf? n).toList ++ after.filterMap s.callOf?) := by
  have plain : n.kind ∉ s.forms.constructors ∧ c.kind ∉ s.forms.calls := by
    have called := names.called
    rw [forms] at called ⊢
    refine ⟨(CallForms.calls_apart elsewhere called).2.1, fun curried => ?_⟩
    exact (CallForms.calls_apart elsewhere curried).2.2
      (List.contains_iff_mem.mp names.identifier)
  have read := names.site_iff plain.1 plain.2
  have found := callOf_called forms elsewhere names.called
  refine ⟨?_, ?_, run_around inside⟩
  · rw [found, callAt?, Option.isSome_map, Option.isSome_iff_exists]
    constructor
    · rintro ⟨site, there⟩
      exact ((read site).mp there).1
    · intro short
      exact ⟨_, (read _).mpr ⟨short, rfl⟩⟩
  · intro call there
    rw [found] at there
    obtain ⟨site, here, rfl⟩ := Option.map_eq_some_iff.mp there
    obtain ⟨_, rfl⟩ := (read site).mp here
    exact ⟨rfl, rfl, rfl⟩

def namedCall (size : Nat) : Tree :=
  .whole "program" 0 (size + 4) none [
    .whole "expression_statement" 0 (size + 3) none [
      .whole "call_expression" 0 (size + 2) none [
        .whole "identifier" 0 size (some "function") [],
        .whole "arguments" size (size + 2) (some "arguments") [
          .token "(" size, .token ")" (size + 1)]],
      .token ";" (size + 2)]]

def namedNode (size : Nat) (path : List Nat) : Node :=
  ((Node.root (namedCall size)).descend path).getD (.root (namedCall size))

def letters (size : Nat) : String := String.ofList (List.replicate size 'a')

def namedSearch (size : Nat) : CallSearch where
  source := letters size ++ "();\n"
  filePath := "a.js"
  forms := .of .javascript

theorem letters_size (size : Nat) : (letters size).utf8ByteSize = size := by
  rw [letters, Text.byteLength_ofList]
  induction size with
  | zero => rfl
  | succ size ih =>
    rw [List.replicate_succ, Text.byteLength, ih, Nat.add_comm]
    rfl

theorem namedNode_text (size : Nat) :
    (namedNode size [0, 0, 0]).text (namedSearch size).source = letters size := by
  have front := Text.slice_front (letters size) "();\n"
  rwa [letters_size] at front

theorem namedNode_names (size : Nat) :
    CallSite.CallsName (namedSearch (size + 1)).forms (namedSearch (size + 1)).source
      (namedNode (size + 1) [0, 0]) (namedNode (size + 1) [0, 0, 0]) where
  called := List.mem_singleton.mpr rfl
  unheld := rfl
  callee := rfl
  identifier := rfl
  leaf := rfl
  filled := by
    rw [namedNode_text]
    intro empty
    have size := letters_size (size + 1)
    rw [empty] at size
    cases size
  letters := by
    rw [namedNode_text, letters, String.toList_ofList]
    intro ch there
    rw [List.eq_of_mem_replicate there]
    decide +kernel

theorem namedNode_mem (size : Nat) (path : List Nat) :
    namedNode size path ∈ (Node.root (namedCall size)).preorder := by
  unfold namedNode
  cases found : (Node.root (namedCall size)).descend path with
  | none => exact Node.self_mem_preorder _
  | some n => exact Node.descend_mem_preorder found

theorem longest_name_is_found :
    CallSite.CallsName (namedSearch 64).forms (namedSearch 64).source (namedNode 64 [0, 0])
      (namedNode 64 [0, 0, 0]) ∧
    ((namedSearch 64).callOf? (namedNode 64 [0, 0])).isSome = true := by
  have names := namedNode_names 63
  obtain ⟨short, _⟩ := named_call_found_iff_short (namedSearch 64) .javascript (namedCall 64) _ _
    (by decide) rfl (namedNode_mem 64 [0, 0]) names
  refine ⟨names, short.mpr ?_⟩
  rw [namedNode_text, letters_size]
  decide

theorem longer_name_is_lost :
    ¬ ∀ (s : CallSearch) (l : Language) (t : Tree) (n c : Node), l ≠ .elixir →
      s.forms = .of l → n ∈ (Node.root t).preorder →
      CallSite.CallsName s.forms s.source n c →
      ∃ call ∈ s.run (.root t), (call.line, call.column) = s.startOf n := by
  intro kept
  obtain ⟨call, found, _⟩ := kept (namedSearch 65) .javascript (namedCall 65) _ _
    (by decide) rfl (namedNode_mem 65 [0, 0]) (namedNode_names 64)
  have nothing : ((namedSearch 65).run (.root (namedCall 65))).length = 0 := by
    rw [run_eq, List.length_mergeSort]
    decide +kernel
  rw [List.eq_nil_of_length_eq_zero nothing] at found
  cases found

end CallSearch

end CodeEntities
