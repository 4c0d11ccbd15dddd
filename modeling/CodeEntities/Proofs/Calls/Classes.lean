import CodeEntities.Proofs.Calls.Fallback
import CodeEntities.Proofs.Text.Trim

namespace CodeEntities

-- A call is made directly, builds an object, or is made on a receiver.
inductive CallClass where
  | direct
  | constructor
  | member
  deriving Repr, DecidableEq

namespace FunctionCall

variable {c : FunctionCall} {k l : CallClass}

def Is (c : FunctionCall) : CallClass → Prop
  | .direct => c.isDirect = true ∧ c.receiver = none ∧ c.isConstructor = false
  | .constructor => c.isConstructor = true ∧ c.receiver = none
  | .member => c.receiver.isSome = true ∧ c.isDirect = false ∧ c.isConstructor = false

theorem Is.unique (one : c.Is k) (other : c.Is l) : k = l := by
  cases k <;> cases l <;> simp_all [Is]

theorem classified (direct : c.isDirect = (c.receiver.isNone && !c.isConstructor))
    (built : c.isConstructor = true → c.receiver = none) : ∃! k, c.Is k := by
  have classed : ∃ k, c.Is k := by
    cases builds : c.isConstructor with
    | true => exact ⟨.constructor, builds, built builds⟩
    | false =>
      cases held : c.receiver with
      | none => exact ⟨.direct, by simp [direct, held, builds], held, builds⟩
      | some r => exact ⟨.member, by simp [held], by simp [direct, held], builds⟩
  obtain ⟨k, here⟩ := classed
  exact ⟨k, here, fun l other => other.unique here⟩

end FunctionCall

namespace CallSite

variable {source object member separator text name : String} {forms : CallForms} {n : Node}
  {site : CallSite} {ch : Char}

def openingMarks : List Char := ['<', '(', '{', '[']

theorem simple_unmarked (simple : isSimple text = true) (there : ch ∈ text.toList) :
    ch ∉ openingMarks := by
  have table : (openingMarks.all fun ch =>
      !(Text.isAlphanumeric ch || ['_', '.', ':', '$', '@'].contains ch)) = true := by
    decide +kernel
  intro marked
  have letters := List.all_eq_true.mp (Bool.and_eq_true_iff.mp simple).2 ch there
  have mark := List.all_eq_true.mp table ch marked
  rw [letters] at mark
  cases mark

theorem baseName_unmarked (there : ch ∈ (baseName text).toList) : ch ∉ openingMarks := by
  rw [baseName, Text.trim_toList, String.toList_ofList] at there
  have kept := List.mem_takeWhile_imp ((Text.trimChars_cut _).subset there)
  simpa [openingMarks] using kept

theorem mem_replaceChars {mark new cs : List Char} {skip : Nat}
    (there : ch ∈ Text.replaceChars mark new skip cs) : ch ∈ cs ∨ ch ∈ new := by
  fun_induction Text.replaceChars mark new skip cs with
  | case1 => cases there
  | case2 c cs k ih => exact (ih there).imp_left (List.mem_cons_of_mem c)
  | case3 c cs found ih =>
    rcases List.mem_append.mp there with here | later
    · exact .inr here
    · exact (ih later).imp_left (List.mem_cons_of_mem c)
  | case4 c cs other ih =>
    rcases List.mem_cons.mp there with rfl | later
    · exact .inl (List.mem_cons_self ..)
    · exact (ih later).imp_left (List.mem_cons_of_mem c)

theorem dotted_unmarked (clean : ∀ ch ∈ text.toList, ch ∉ openingMarks)
    (there : ch ∈ (dotted text).toList) : ch ∉ openingMarks := by
  rw [dotted, Text.replace, String.toList_ofList] at there
  rcases mem_replaceChars there with old | new
  · exact clean ch old
  · rw [List.mem_singleton.mp new]
    decide

theorem dotted_filled (capital : Text.isCapitalized text = true) : dotted text ≠ "" := by
  unfold Text.isCapitalized at capital
  split at capital
  · cases capital
  · next c cs chars =>
    have letter : c ≠ ':' := by
      rintro rfl
      exact absurd capital (by decide +kernel)
    intro empty
    have replaced := congrArg String.toList empty
    rw [dotted, Text.replace, String.toList_ofList, chars, Text.replaceChars] at replaced
    simp [letter.symm] at replaced

def bareMember (text : String) : String :=
  Text.trim (Text.dropStartWhile ['?', '.', ':'].contains (Text.trim text))

-- How a member is called: by itself on the own instance and on objects that are no name.
def memberCallee (object member separator : String) : String :=
  if selfReceivers.contains object then bareMember member
  else if isSimple object then object ++ separator ++ bareMember member
  else bareMember member

theorem memberCallee_self (own : object ∈ selfReceivers) :
    memberCallee object member separator = bareMember member :=
  if_pos (List.contains_iff_mem.mpr own)

theorem memberCallee_filled (filled : bareMember member ≠ "") :
    memberCallee object member separator ≠ "" := by
  unfold memberCallee
  split
  · exact filled
  · split
    · exact fun empty => filled (String.append_eq_empty_iff.mp empty).2
    · exact filled

theorem ofMember_cases (found : ofMember? object member separator = some site) :
    bareMember member ≠ "" ∧
      ((Text.isCapitalized (Text.trim object) = true ∧ isSimple (Text.trim object) = true ∧
          site = { callee := dotted (Text.trim object), isConstructor := true }) ∨
        site = { callee := memberCallee (Text.trim object) member separator
                 receiver := some (Text.trim object) }) := by
  unfold ofMember? at found
  extract_lets receiver bare at found
  have bare_eq : bareMember member = bare := rfl
  rw [bare_eq]
  split at found
  · cases found
  · next filled =>
    refine ⟨fun empty => filled (String.isEmpty_iff.mpr empty), ?_⟩
    split at found
    · next own =>
      refine .inr ((Option.some.inj found).symm.trans ?_)
      rw [memberCallee_self (List.contains_iff_mem.mp own), bare_eq]
    · next foreign =>
      split at found
      · next new =>
        simp only [Bool.and_eq_true] at new
        exact .inl ⟨new.1.2, new.2, (Option.some.inj found).symm⟩
      · refine .inr ((Option.some.inj found).symm.trans ?_)
        rw [memberCallee, if_neg foreign, bare_eq]

inductive MemberOf (n : Node) : Node → Node → String → Prop where
  | held {object member : Node}
      (onObject : n.firstField? ["object", "receiver", "scope"] = some object)
      (called : n.firstField? ["name", "method"] = some member) :
      MemberOf n object member (if n.kind == "scoped_call_expression" then "::" else ".")
  | accessed {callee object member : Node} (called : callee? n = some callee)
      (access : callee.kind ∈ memberKinds)
      (onObject : (callee.firstField? receiverFields).or callee.namedChildren.head? = some object)
      (ofObject : (callee.firstField? memberFields).or callee.namedChildren.getLast? = some member)
      (different : member.isSame object = false) :
      MemberOf n object member
        (if ["scoped_identifier", "qualified_identifier"].contains callee.kind then "::"
         else if callee.kind == "method_index_expression" then ":"
         else ".")

structure WellRead (source : String) (n : Node) (site : CallSite) : Prop where
  named : site.callee ≠ ""
  built : site.isConstructor = true →
    site.receiver = none ∧ ∀ ch ∈ site.callee.toList, ch ∉ openingMarks
  onReceiver : ∀ r, site.receiver = some r → ∃ object member separator,
    MemberOf n object member separator ∧ r = Text.trim (object.text source) ∧
      site.callee = memberCallee r (member.text source) separator

theorem ofConstructor_read (found : ofConstructor? source n = some site) :
    WellRead source n site := by
  obtain ⟨type, _, read⟩ := Option.bind_eq_some_iff.mp found
  extract_lets base at read
  split at read
  · cases read
  · next filled =>
    have same := Option.some.inj read
    subst same
    refine ⟨fun empty => filled (String.isEmpty_iff.mpr empty), ?_, ?_⟩
    · exact fun _ => ⟨rfl, fun ch => baseName_unmarked⟩
    · intro r held
      cases held

theorem WellRead.onMember {r callee : String} (named : callee ≠ "")
    (origin : ∃ object member separator, MemberOf n object member separator ∧
      r = Text.trim (object.text source) ∧
      callee = memberCallee r (member.text source) separator) :
    WellRead source n { callee, receiver := some r } where
  named := named
  built := by
    intro built
    cases built
  onReceiver := by
    intro r' held
    obtain rfl := Option.some.inj held
    exact origin

theorem ofMember_read {object member : Node} (access : MemberOf n object member separator)
    (found : ofMember? (object.text source) (member.text source) separator = some site) :
    WellRead source n site := by
  obtain ⟨filled, ⟨capital, simple, rfl⟩ | rfl⟩ := ofMember_cases found
  · refine ⟨dotted_filled capital, fun _ => ⟨rfl, fun ch => ?_⟩, ?_⟩
    · exact dotted_unmarked fun ch => simple_unmarked simple
    · intro r held
      cases held
  · exact .onMember (memberCallee_filled filled) ⟨object, member, separator, access, rfl, rfl⟩

def shownName (n : Node) (name : String) : String :=
  if n.kind == "macro_invocation" then name ++ "!" else name

theorem ofName_exact {callee : Node} :
    ofName? forms source n callee = some site ↔
      isSimple (Text.trim (callee.text source)) = true ∧
        site =
          { callee := shownName n (Text.trim (callee.text source))
            isConstructor := forms.capitalizedConstructors &&
              Text.isCapitalized (shownName n (Text.trim (callee.text source))) } := by
  unfold ofName?
  dsimp only
  generalize Text.trim (callee.text source) = name
  cases isSimple name with
  | true =>
    constructor
    · intro found
      exact ⟨rfl, (Option.some.inj found).symm⟩
    · rintro ⟨_, rfl⟩
      rfl
  | false => simp

theorem shownName_filled (simple : isSimple text = true) : shownName n text ≠ "" := by
  have filled : text ≠ "" := by
    rintro rfl
    exact absurd simple (by decide)
  unfold shownName
  split
  · exact fun empty => filled (String.append_eq_empty_iff.mp empty).1
  · exact filled

theorem shownName_unmarked (simple : isSimple text = true)
    (there : ch ∈ (shownName n text).toList) : ch ∉ openingMarks := by
  unfold shownName at there
  split at there
  · rw [String.toList_append] at there
    rcases List.mem_append.mp there with name | mark
    · exact simple_unmarked simple name
    · rw [List.mem_singleton.mp mark]
      decide
  · exact simple_unmarked simple there

theorem ofName_read {callee : Node} (found : ofName? forms source n callee = some site) :
    WellRead source n site := by
  obtain ⟨simple, rfl⟩ := ofName_exact.mp found
  refine ⟨shownName_filled simple, fun _ => ⟨rfl, fun ch => shownName_unmarked simple⟩, ?_⟩
  intro r held
  cases held

theorem ofMemberAccess_read {callee : Node} (called : callee? n = some callee)
    (access : callee.kind ∈ memberKinds) (found : ofMemberAccess? source callee = some site) :
    WellRead source n site := by
  unfold ofMemberAccess? at found
  obtain ⟨object, onObject, found⟩ := Option.bind_eq_some_iff.mp found
  obtain ⟨member, ofObject, found⟩ := Option.bind_eq_some_iff.mp found
  split at found
  · cases found
  · next different =>
    exact ofMember_read (.accessed called access onObject ofObject (by simpa using different)) found

theorem of_read (found : of? forms source n = some site) : WellRead source n site := by
  cases built : forms.constructors.contains n.kind with
  | true =>
    rw [of_built built] at found
    exact ofConstructor_read found
  | false =>
    cases held : n.firstField? ["object", "receiver", "scope"] with
    | some object =>
      rw [of_held built held] at found
      obtain ⟨member, called, read⟩ := Option.bind_eq_some_iff.mp found
      exact ofMember_read (.held held called) read
    | none =>
      rw [of_unheld built held] at found
      obtain ⟨callee, called, read⟩ := Option.bind_eq_some_iff.mp found
      split at read
      · -- A curried call is left to the call that is its callee.
        cases read
      · unfold ofCallee? at read
        split at read
        · next access =>
          exact ofMemberAccess_read called (List.contains_iff_mem.mp access) read
        · exact ofName_read read

theorem arguments_cut {text : String} (argument : text ∈ arguments source n) :
    text ≠ "" ∧ Text.trim text = text ∧ Text.IsPiece text source := by
  obtain ⟨listed, filled⟩ := List.mem_filter.mp argument
  obtain ⟨m, _, rfl⟩ := List.mem_map.mp listed
  refine ⟨?_, Text.trim_trim _, (Text.slice_piece source _ _).trim⟩
  intro empty
  rw [empty] at filled
  exact absurd filled (by decide)

end CallSite

namespace CallSearch

variable {s : CallSearch} {n : Node} {call : FunctionCall}

structure RecordedAt (s : CallSearch) (n : Node) (call : FunctionCall) : Prop where
  read : ∃ site, CallSite.WellRead s.source n site ∧ call.calleeName = site.callee ∧
    call.receiver = site.receiver ∧ call.isConstructor = site.isConstructor
  direct : call.isDirect = (call.receiver.isNone && !call.isConstructor)
  arguments : call.arguments = CallSite.arguments s.source n

theorem callOf_recorded (found : s.callOf? n = some call) : s.RecordedAt n call := by
  obtain ⟨_, _, _, _, found⟩ := callOf_exact.mp found
  obtain ⟨site, read, rfl⟩ := Option.map_eq_some_iff.mp found
  exact ⟨⟨site, CallSite.of_read read, rfl, rfl, rfl⟩, rfl, rfl⟩

-- Every call is of exactly one class. It has a callee, which in a constructor call is a bare
-- type name; a member call names its member, alone where the receiver is the own instance;
-- and every argument is cut out of the source.
theorem calls_are_classified (s : CallSearch) (t : Tree) :
    ∀ call ∈ s.run (.root t), ∃ n ∈ (Node.root t).preorder, s.callOf? n = some call ∧
      (∃! k, call.Is k) ∧
      call.calleeName ≠ "" ∧
      (call.Is .constructor → ∀ ch ∈ call.calleeName.toList, ch ∉ CallSite.openingMarks) ∧
      (∀ r, call.receiver = some r → ∃ object member separator,
        CallSite.MemberOf n object member separator ∧ r = Text.trim (object.text s.source) ∧
        call.calleeName = CallSite.memberCallee r (member.text s.source) separator ∧
        (r ∈ CallSite.selfReceivers →
          call.calleeName = CallSite.bareMember (member.text s.source))) ∧
      ∀ text ∈ call.arguments,
        text ≠ "" ∧ Text.trim text = text ∧ Text.IsPiece text s.source := by
  intro call member
  obtain ⟨n, inside, found⟩ := mem_run.mp member
  obtain ⟨⟨site, read, callee, receiver, built⟩, direct, arguments⟩ := callOf_recorded found
  refine ⟨n, inside, found, FunctionCall.classified direct ?_, ?_, ?_, ?_, ?_⟩
  · rw [built, receiver]
    exact fun builds => (read.built builds).1
  · rw [callee]
    exact read.named
  · rintro ⟨builds, _⟩
    rw [callee]
    exact (read.built (built ▸ builds)).2
  · intro r held
    obtain ⟨object, member, separator, access, same, named⟩ :=
      read.onReceiver r (receiver ▸ held)
    rw [callee]
    refine ⟨object, member, separator, access, same, named, fun own => ?_⟩
    rw [named, CallSite.memberCallee_self own]
  · rw [arguments]
    exact fun text => CallSite.arguments_cut

-- `f(new A(x), this.m())`
def mixedCalls : Tree :=
  .whole "program" 0 21 none [
    .whole "call_expression" 0 21 none [
      .whole "identifier" 0 1 (some "function") [],
      .whole "arguments" 1 21 (some "arguments") [
        .token "(" 1,
        .whole "new_expression" 2 10 none [
          .token "new" 2,
          .whole "identifier" 6 7 (some "constructor") [],
          .whole "arguments" 7 10 (some "arguments") [
            .token "(" 7, .whole "identifier" 8 9 none [], .token ")" 9]],
        .token "," 10,
        .whole "call_expression" 12 20 none [
          .whole "member_expression" 12 18 (some "function") [
            .whole "this" 12 16 (some "object") [],
            .token "." 16,
            .whole "property_identifier" 17 18 (some "property") []],
          .whole "arguments" 18 20 (some "arguments") [.token "(" 18, .token ")" 19]],
        .token ")" 20]]]

theorem mixed_calls_are_told_apart :
    let s : CallSearch :=
      { source := "f(new A(x), this.m())", filePath := "a.js", forms := .of .javascript }
    (s.run (.root mixedCalls)).map (fun c => (c.calleeName, c.receiver, c.arguments)) =
      [("f", none, ["new A(x)", "this.m()"]), ("A", none, ["x"]), ("m", some "this", [])] ∧
    ∀ call ∈ s.run (.root mixedCalls), (∃! k, call.Is k) ∧ call.calleeName ≠ "" := by
  have placed : (Node.root mixedCalls).WellPlaced := by decide +kernel
  refine ⟨?_, fun call member => ?_⟩
  · rw [run_placed placed]
    decide +kernel
  · obtain ⟨_, _, _, one, named, _⟩ := calls_are_classified _ mixedCalls call member
    exact ⟨one, named⟩

end CallSearch

end CodeEntities
