import CodeEntities.Proofs.Rules.Callables
import CodeEntities.Rules.All

namespace CodeEntities

namespace Java

variable (cx : Context) (default : Visibility) (inInterface : Bool)

def callables : CallableKinds where
  methods := ["method_declaration"]
  constructors := ["constructor_declaration", "compact_constructor_declaration"]
  inner := ["enum_body_declarations"]
  body n := n.field? "body"

theorem callables_distinct : callables.Distinct where
  inner := by decide
  comment := by decide +kernel
  constructors := by decide

def build : Node → Option MethodDecl := CallableKinds.buildMember (method? cx default) inInterface

theorem builds : callables.Builds cx (build cx default inInterface) := by
  refine ⟨fun n => { cx.callable n with returnType := cx.fieldText? n "type" }, fun m _ => ?_⟩
  rw [build, CallableKinds.buildMember_function, CallableKinds.name_own rfl, method?,
    Option.map_map]
  rfl

theorem collects :
    callables.Collects (build cx default inInterface) (addMember cx default inInterface) where
  method members m kind := by
    have kind : (m.kind == "method_declaration") = true := by simpa [callables] using kind
    rw [addMember, build, CallableKinds.buildMember, if_pos kind, if_pos kind]
    cases method? cx default m <;> rfl
  constructor members m kind := by
    have noMethod : ¬ (m.kind == "method_declaration") = true := by
      intro isMethod
      rw [eq_of_beq isMethod] at kind
      exact absurd kind (by decide)
    have kind : (m.kind == "constructor_declaration" ||
        m.kind == "compact_constructor_declaration") = true := by simpa [callables] using kind
    rw [addMember, build, CallableKinds.buildMember, if_neg noMethod, if_pos kind, if_neg noMethod]
    cases method? cx default m <;> rfl
  other members m noMethod noConstructor := by
    simp only [callables, List.mem_cons, List.not_mem_nil, or_false,
      not_or] at noMethod noConstructor
    simp only [addMember, noMethod, noConstructor, beq_iff_eq, Bool.or_eq_true, if_false, or_false]
    split
    · exact ⟨_, rfl⟩
    split
    · exact ⟨_, rfl⟩
    · exact ⟨[], members.addProperties_nil.symm⟩

theorem members_folded (n : Node) : members cx n default inInterface =
    (callables.nodes n).foldl (addMember cx default inInterface) {} := by
  have same : memberNodes = CallableKinds.memberNodes callables.inner := by
    funext body
    simp [memberNodes, CallableKinds.memberNodes, callables]
  have nodes : callables.nodes n = ((n.field? "body").map memberNodes).getD [] := by
    rw [same]
    rfl
  rw [members, nodes]
  cases n.field? "body" <;> rfl

theorem members_collected (n : Node) : ∃ found, callables.Callables cx n found ∧
    (members cx n default inInterface).Holds found := by
  rw [members_folded]
  exact (collects cx default inInterface).collected callables_distinct
    (builds cx default inInterface) n

end Java

namespace CSharp

variable (cx : Context) (default : Visibility) (inInterface : Bool)

def callables : CallableKinds where
  methods := ["method_declaration"]
  constructors := ["constructor_declaration"]
  body n := n.field? "body"

theorem callables_distinct : callables.Distinct where
  inner := by decide
  comment := by decide +kernel
  constructors := by decide

def build : Node → Option MethodDecl := CallableKinds.buildMember (method? cx default) inInterface

theorem builds : callables.Builds cx (build cx default inInterface) := by
  refine ⟨cx.callable, fun m _ => ?_⟩
  rw [build, CallableKinds.buildMember_function, CallableKinds.name_own rfl, method?,
    Option.map_map]
  rfl

theorem collects :
    callables.Collects (build cx default inInterface) (addMember cx default inInterface) where
  method members m kind := by
    have kind : (m.kind == "method_declaration") = true := by simpa [callables] using kind
    rw [addMember, build, CallableKinds.buildMember, if_pos kind, if_pos kind]
    cases method? cx default m <;> rfl
  constructor members m kind := by
    have kind : m.kind = "constructor_declaration" := by simpa [callables] using kind
    have noMethod : ¬ (m.kind == "method_declaration") = true := by simp [kind]
    rw [addMember, build, CallableKinds.buildMember, if_neg noMethod, if_pos (by simp [kind]),
      if_neg noMethod]
    cases method? cx default m <;> rfl
  other members m noMethod noConstructor := by
    simp only [callables, List.mem_singleton] at noMethod noConstructor
    simp only [addMember, noMethod, noConstructor, beq_iff_eq, Bool.or_eq_true, if_false]
    split
    · exact ⟨_, rfl⟩
    split
    · exact ⟨_, rfl⟩
    split
    · exact ⟨_, rfl⟩
    · exact ⟨[], members.addProperties_nil.symm⟩

theorem members_folded (n : Node) : members cx n default inInterface =
    (callables.nodes n).foldl (addMember cx default inInterface) {} := by
  rw [members, CallableKinds.nodes, callables, funext CallableKinds.memberNodes_flat]

theorem members_collected (n : Node) : ∃ found, callables.Callables cx n found ∧
    (members cx n default inInterface).Holds found := by
  rw [members_folded]
  exact (collects cx default inInterface).collected callables_distinct
    (builds cx default inInterface) n

end CSharp

namespace Swift

variable (cx : Context) (inProtocol : Bool)

def callables : CallableKinds where
  methods := ["function_declaration", "protocol_function_declaration"]
  constructors := ["init_declaration"]
  body := Node.classBody?
  constructorName := some "init"

theorem callables_distinct : callables.Distinct where
  inner := by decide
  comment := by decide +kernel
  constructors := by decide

def build (n : Node) : Option MethodDecl :=
  if n.kind == "init_declaration" then
    some (.ofFunction (cx.function n "init" (callable cx n)) (visibility cx n))
  else (functionOf cx n).map fun f =>
    let m := MethodDecl.ofFunction f (if inProtocol then .isPublic else visibility cx n)
    { m with isAbstract := m.isAbstract || n.kind == "protocol_function_declaration" }

theorem builds : callables.Builds cx (build cx inProtocol) := by
  refine ⟨callable cx, fun m _ => ?_⟩
  unfold build functionOf
  split
  · next kind =>
    have name : callables.name? cx m = some "init" := by
      simp [CallableKinds.name?, callables, eq_of_beq kind]
    rw [name]
    rfl
  · next kind =>
    have other : m.kind ≠ "init_declaration" := by simpa using kind
    have name : callables.name? cx m = cx.name? m := by
      simp [CallableKinds.name?, callables, other]
    rw [name, Option.map_map, Option.map_map]
    rfl

theorem collects : callables.Collects (build cx inProtocol) (addMember cx inProtocol) where
  method members m kind := by
    have noConstructor : ¬ (m.kind == "init_declaration") = true := by
      intro isConstructor
      rw [eq_of_beq isConstructor] at kind
      exact absurd kind (by decide)
    have kind : (m.kind == "function_declaration" ||
        m.kind == "protocol_function_declaration") = true := by simpa [callables] using kind
    rw [addMember, build, if_pos kind, if_neg noConstructor]
    cases functionOf cx m <;> rfl
  constructor members m kind := by
    have kind : m.kind = "init_declaration" := by simpa [callables] using kind
    rw [addMember, build, if_neg (by simp [kind]), if_pos (by simp [kind]), if_pos (by simp [kind])]
    rfl
  other members m noMethod noConstructor := by
    simp only [callables, List.mem_cons, List.not_mem_nil, or_false,
      not_or] at noMethod noConstructor
    simp only [addMember, noMethod, noConstructor, beq_iff_eq, Bool.or_eq_true, if_false, or_false]
    split
    · exact ⟨_, rfl⟩
    split
    · exact ⟨_, rfl⟩
    · exact ⟨[], members.addProperties_nil.symm⟩

theorem members_folded (n : Node) : members cx n inProtocol =
    (callables.nodes n).foldl (addMember cx inProtocol) {} := by
  rw [members, CallableKinds.nodes, callables, funext CallableKinds.memberNodes_flat]

theorem members_collected (n : Node) : ∃ found, callables.Callables cx n found ∧
    (members cx n inProtocol).Holds found := by
  rw [members_folded]
  exact (collects cx inProtocol).collected callables_distinct (builds cx inProtocol) n

end Swift

namespace CallableKinds

variable {kinds : CallableKinds} {cx : Context} {n : Node}

-- The rules of a language collect the callables of a type in a slot and a list, and leave
-- out the slot where the type is an interface.
structure Kept (kinds : CallableKinds) (rules : Rules) : Prop where
  classes (cx : Context) (n : Node) : ∀ c, rules.classOf cx n = some c →
    ∃ members found, kinds.Callables cx n found ∧ Members.Holds members found ∧
      c.constructor = members.constructor ∧ c.methods = members.methods
  interfaces (cx : Context) (n : Node) : ∀ i, rules.interfaceOf cx n = some i →
    ∃ members found, kinds.Callables cx n found ∧ Members.Holds members found ∧
      i.methods = members.methods

theorem kept_java : Java.callables.Kept Java.rules where
  classes cx n c read := by
    obtain ⟨name, _, rfl⟩ := Option.map_eq_some_iff.mp read
    obtain ⟨found, callables, holds⟩ := Java.members_collected cx .internal false n
    exact ⟨_, found, callables, holds, rfl, rfl⟩
  interfaces cx n i read := by
    obtain ⟨name, _, rfl⟩ := Option.map_eq_some_iff.mp read
    obtain ⟨found, callables, holds⟩ := Java.members_collected cx .isPublic true n
    exact ⟨_, found, callables, holds, rfl⟩

theorem kept_csharp : CSharp.callables.Kept CSharp.rules where
  classes cx n c read := by
    obtain ⟨name, _, rfl⟩ := Option.map_eq_some_iff.mp read
    obtain ⟨found, callables, holds⟩ := CSharp.members_collected cx .isPrivate false n
    exact ⟨_, found, callables, holds, rfl, rfl⟩
  interfaces cx n i read := by
    obtain ⟨name, _, rfl⟩ := Option.map_eq_some_iff.mp read
    obtain ⟨found, callables, holds⟩ := CSharp.members_collected cx .isPublic true n
    exact ⟨_, found, callables, holds, rfl⟩

theorem kept_swift : Swift.callables.Kept Swift.rules where
  classes cx n c read := by
    obtain ⟨name, _, rfl⟩ := Option.map_eq_some_iff.mp read
    obtain ⟨found, callables, holds⟩ := Swift.members_collected cx false n
    exact ⟨_, found, callables, holds, rfl, rfl⟩
  interfaces cx n i read := by
    obtain ⟨name, _, rfl⟩ := Option.map_eq_some_iff.mp read
    obtain ⟨found, callables, holds⟩ := Swift.members_collected cx true n
    exact ⟨_, found, callables, holds, rfl⟩

def of : Language → Option CallableKinds
  | .java => some Java.callables
  | .csharp => some CSharp.callables
  | .swift => some Swift.callables
  | _ => none

theorem of_kept {language : Language} (known : of language = some kinds) :
    kinds.Kept (Rules.of language) := by
  cases language <;> cases known
  · exact kept_java
  · exact kept_csharp
  · exact kept_swift

theorem Callables.constructors_iff {found : List CallableMember}
    (callables : kinds.Callables cx n found) :
    (∀ e ∈ found, e.isConstructor = false) ↔
      ∀ m, kinds.Declares cx n m → m.kind ∉ kinds.constructors := by
  simp only [← callables.declared.exact, List.mem_map, forall_exists_index, and_imp,
    forall_apply_eq_imp_iff₂]
  refine forall₂_congr fun e member => ?_
  rw [← (callables.read e member).1, Bool.not_eq_true]

end CallableKinds

-- A class holds each of its callables once: the first constructor in the slot, all others as
-- methods in document order. An interface has the methods of the same list but no slot, so that
-- it holds all if and only if it declares no constructor.
theorem callables_conserved_iff {language : Language} {kinds : CallableKinds}
    (known : CallableKinds.of language = some kinds) (cx : Context) (n : Node) :
    (∀ c, (Rules.of language).classOf cx n = some c →
      ∃ found, kinds.Callables cx n found ∧
        c.constructor = (found.find? (·.isConstructor)).map (·.method) ∧
        c.methods = (found.eraseP (·.isConstructor)).map (·.method) ∧
        (c.constructor.toList ++ c.methods).Perm (found.map (·.method))) ∧
    ∀ i, (Rules.of language).interfaceOf cx n = some i →
      ∃ found, kinds.Callables cx n found ∧
        i.methods = (found.eraseP (·.isConstructor)).map (·.method) ∧
        (i.methods.Perm (found.map (·.method)) ↔
          ∀ m, kinds.Declares cx n m → m.kind ∉ kinds.constructors) := by
  have kept := CallableKinds.of_kept known
  constructor
  · intro c read
    obtain ⟨members, found, callables, holds, slot, methods⟩ := kept.classes cx n c read
    refine ⟨found, callables, slot.trans holds.slot, methods.trans holds.methods, ?_⟩
    rw [slot, methods]
    exact holds.conserved
  · intro i read
    obtain ⟨members, found, callables, holds, methods⟩ := kept.interfaces cx n i read
    refine ⟨found, callables, methods.trans holds.methods, ?_⟩
    rw [methods, holds.methods_conserved_iff, callables.constructors_iff]

-- `class A { A() {} void m() {} A(int x) {} }`
def twiceConstructed : Tree :=
  .whole "class_declaration" 0 42 none [
    .token "class" 0,
    .whole "identifier" 6 7 (some "name") [],
    .whole "class_body" 8 42 (some "body") [
      .token "\x7b" 8,
      .whole "constructor_declaration" 10 16 none [
        .whole "identifier" 10 11 (some "name") [],
        .whole "formal_parameters" 11 13 (some "parameters") [.token "(" 11, .token ")" 12],
        .whole "constructor_body" 14 16 (some "body") [.token "\x7b" 14, .token "\x7d" 15]],
      .whole "method_declaration" 17 28 none [
        .whole "void_type" 17 21 (some "type") [],
        .whole "identifier" 22 23 (some "name") [],
        .whole "formal_parameters" 23 25 (some "parameters") [.token "(" 23, .token ")" 24],
        .whole "block" 26 28 (some "body") [.token "\x7b" 26, .token "\x7d" 27]],
      .whole "constructor_declaration" 29 40 none [
        .whole "identifier" 29 30 (some "name") [],
        .whole "formal_parameters" 30 37 (some "parameters") [
          .token "(" 30,
          .whole "formal_parameter" 31 36 none [
            .whole "integral_type" 31 34 (some "type") [.token "int" 31],
            .whole "identifier" 35 36 (some "name") []],
          .token ")" 36],
        .whole "constructor_body" 38 40 (some "body") [.token "\x7b" 38, .token "\x7d" 39]],
      .token "\x7d" 41]]

theorem both_constructors_kept :
    let cx : Context := ⟨"class A \x7b A() \x7b\x7d void m() \x7b\x7d A(int x) \x7b\x7d \x7d", "A.java", .java, {}⟩
    let n : Node := .root twiceConstructed
    CallableKinds.of .java = some Java.callables ∧
    ∃ c, (Rules.of .java).classOf cx n = some c ∧
      c.constructor.map (·.function.location.startColumn) = some 10 ∧
      c.methods.map (·.name) = ["m", "A"] ∧
      ∃ found, Java.callables.Callables cx n found ∧
        (c.constructor.toList ++ c.methods).Perm (found.map (·.method)) := by
  intro cx n
  have slot : ((Rules.of .java).classOf cx n).map
      (·.constructor.map (·.function.location.startColumn)) = some (some 10) := by decide +kernel
  have methods : ((Rules.of .java).classOf cx n).map (·.methods.map (·.name)) =
      some ["m", "A"] := by decide +kernel
  obtain ⟨c, read, first⟩ := Option.map_eq_some_iff.mp slot
  rw [read] at methods
  obtain ⟨found, callables, _, _, conserved⟩ := (callables_conserved_iff rfl cx n).1 c read
  exact ⟨rfl, c, read, first, Option.some.inj methods, found, callables, conserved⟩

-- `protocol P { init(x: Int); func m() }` over several lines
def protocolInit : Tree :=
  .whole "protocol_declaration" 0 40 none [
    .token "protocol" 0,
    .whole "type_identifier" 9 10 (some "name") [],
    .whole "protocol_body" 11 40 (some "body") [
      .token "\x7b" 11,
      .whole "init_declaration" 15 27 none [
        .token "init" 15,
        .token "(" 19,
        .whole "parameter" 20 26 none [
          .whole "simple_identifier" 20 21 (some "name") [],
          .token ":" 21,
          .whole "user_type" 23 26 (some "type") []],
        .token ")" 26],
      .whole "protocol_function_declaration" 30 38 none [
        .token "func" 30,
        .whole "simple_identifier" 35 36 (some "name") [],
        .token "(" 36,
        .token ")" 37],
      .token "\x7d" 39]]

theorem protocol_init_lost :
    let cx : Context := ⟨"protocol P \x7b\n  init(x: Int)\n  func m()\n\x7d\n", "m.swift", .swift, {}⟩
    let n : Node := .root protocolInit
    (Swift.interfaceOf cx n).map (·.methods.map (·.name)) = some ["m"] ∧
      ∃ m, Swift.callables.Declares cx n m ∧ m.kind = "init_declaration" ∧
        ¬ ∃ i method, Swift.interfaceOf cx n = some i ∧ method ∈ i.methods ∧
          method.function.location = cx.location m := by
  intro cx n
  let declared := (Swift.callables.nodes n).filter (Swift.callables.calls cx)
  have lists : Node.Lists (Swift.callables.Declares cx n) declared :=
    CallableKinds.nodes_list Swift.callables_distinct
  have first : declared.head?.map (fun m => (m.kind, cx.location m)) =
      some ("init_declaration", ⟨"m.swift", 2, 2, 2, 14⟩) := by decide +kernel
  have places : (Swift.interfaceOf cx n).map (·.methods.map (·.function.location)) =
      some [⟨"m.swift", 3, 3, 2, 10⟩] := by decide +kernel
  obtain ⟨m, head, shown⟩ := Option.map_eq_some_iff.mp first
  obtain ⟨kind, here⟩ := Prod.mk.inj shown
  have declares := (lists.exact m).mp (List.mem_of_head? head)
  refine ⟨by decide +kernel, m, declares, kind, ?_⟩
  rintro ⟨i, method, read, member, place⟩
  have listed : method.function.location ∈ i.methods.map (·.function.location) :=
    List.mem_map_of_mem member
  rw [read, Option.map_some, Option.some.injEq] at places
  rw [places, place, here] at listed
  exact absurd listed (by decide)

end CodeEntities
