import CodeEntities.Extract.Callable
import CodeEntities.Proofs.Tree.Search
import CodeEntities.Rules.Members
import Mathlib.Data.List.Basic

namespace CodeEntities

namespace Node

variable {wanted others : Node → Prop} {found : List Node}

theorem Lists.congr (listed : Lists wanted found) (same : ∀ m, wanted m ↔ others m) :
    Lists others found :=
  funext (fun m => propext (same m)) ▸ listed

theorem Lists.filter (listed : Lists wanted found) (p : Node → Bool) :
    Lists (fun m => wanted m ∧ p m) (found.filter p) where
  exact m := by rw [List.mem_filter, listed.exact]
  inOrder := listed.inOrder.filter p
  nodup := listed.nodup.filter p
  apart m first k second :=
    listed.apart m (List.mem_filter.mp first).1 k (List.mem_filter.mp second).1

end Node

structure CallableMember where
  node : Node
  isConstructor : Bool
  method : MethodDecl

namespace Members

variable {m : Members} {found : List CallableMember} {e : CallableMember}

-- The first constructor has the slot, and all others are methods in their order.
structure Holds (m : Members) (found : List CallableMember) : Prop where
  slot : m.constructor = (found.find? (·.isConstructor)).map (·.method)
  methods : m.methods = (found.eraseP (·.isConstructor)).map (·.method)

theorem addProperties_nil (m : Members) : m.addProperties [] = m := by
  simp [Members.addProperties]

theorem Holds.addProperties (holds : m.Holds found) (properties : List PropertyDecl) :
    (m.addProperties properties).Holds found :=
  ⟨holds.slot, holds.methods⟩

theorem Holds.addMethod (holds : m.Holds found) (plain : e.isConstructor = false) :
    (m.addMethod e.method).Holds (found ++ [e]) := by
  constructor
  · have slot : (m.addMethod e.method).constructor = m.constructor := rfl
    simp [slot, holds.slot, List.find?_append, plain]
  · have methods : (m.addMethod e.method).methods = m.methods ++ [e.method] := rfl
    rw [methods, holds.methods, List.eraseP_append]
    split
    · simp
    · next ordinary =>
      have others : ∀ k ∈ found, ¬ k.isConstructor := by simpa using ordinary
      simp [List.eraseP_of_forall_not others, plain]

theorem Holds.addConstructor (holds : m.Holds found) (special : e.isConstructor = true) :
    (m.addConstructor e.method).Holds (found ++ [e]) := by
  unfold Members.addConstructor
  cases first : found.find? (·.isConstructor) with
  | none =>
    have others : ∀ k ∈ found, ¬ k.isConstructor := List.find?_eq_none.mp first
    have empty : m.constructor = none := by rw [holds.slot, first, Option.map_none]
    rw [empty]
    constructor
    · simp [List.find?_append, first, special]
    · rw [List.eraseP_append_right _ others]
      simp [holds.methods, List.eraseP_of_forall_not others, special]
  | some c =>
    have taken : m.constructor = some c.method := by rw [holds.slot, first, Option.map_some]
    rw [taken]
    constructor
    · simp [Members.addMethod, taken, List.find?_append, first]
    · rw [List.eraseP_append_left (List.find?_some first) _ (List.mem_of_find?_eq_some first)]
      simp [Members.addMethod, holds.methods]

-- What holds of the members so far is kept by every node, with the callable that it is read as.
theorem foldl_holds {add : Members → Node → Members} {read : Node → Option CallableMember}
    (step : ∀ {m found} n, m.Holds found → (add m n).Holds (found ++ (read n).toList))
    (nodes : List Node) (holds : m.Holds found) :
    (nodes.foldl add m).Holds (found ++ nodes.filterMap read) := by
  induction nodes generalizing m found with
  | nil => simpa using holds
  | cons n nodes ih =>
    have next := ih (step n holds)
    rw [List.append_assoc] at next
    cases here : read n with
    | none => simpa [List.filterMap_cons_none here, here] using next
    | some e => simpa [List.filterMap_cons_some here, here] using next

theorem Holds.conserved (holds : m.Holds found) :
    (m.constructor.toList ++ m.methods).Perm (found.map (·.method)) := by
  rw [holds.slot, holds.methods]
  cases first : found.find? (·.isConstructor) with
  | none => simp [List.eraseP_of_forall_not (List.find?_eq_none.mp first)]
  | some c =>
    obtain ⟨special, front, back, rfl, others⟩ := List.find?_eq_some_iff_append.mp first
    have others : ∀ k ∈ front, ¬ k.isConstructor := by simpa using others
    rw [List.eraseP_append_right _ others, List.eraseP_cons_of_pos special]
    simp only [Option.map_some, Option.toList_some, List.map_append, List.map_cons,
      List.singleton_append]
    exact List.perm_middle.symm

theorem Holds.methods_conserved_iff (holds : m.Holds found) :
    m.methods.Perm (found.map (·.method)) ↔ ∀ e ∈ found, e.isConstructor = false := by
  rw [holds.methods]
  constructor
  · intro perm e member
    have length := perm.length_eq
    rw [List.length_map, List.length_map, List.length_eraseP] at length
    by_contra special
    have any : found.any (·.isConstructor) :=
      List.any_eq_true.mpr ⟨e, member, by simpa using special⟩
    have filled := List.length_pos_of_mem member
    rw [if_pos any] at length
    omega
  · intro ordinary
    rw [List.eraseP_of_forall_not fun e member => by simp [ordinary e member]]

end Members

-- How the callables of a type are declared in a language: their kinds, the kinds of inner blocks
-- that count as the body, and the name of constructors that have none of their own.
structure CallableKinds where
  methods : List String
  constructors : List String
  inner : List String := []
  body : Node → Option Node
  constructorName : Option String := none

namespace CallableKinds

variable {kinds : CallableKinds} {cx : Context} {n m : Node}

def name? (kinds : CallableKinds) (cx : Context) (m : Node) : Option String :=
  if kinds.constructors.contains m.kind then kinds.constructorName.or (cx.name? m) else cx.name? m

def Declares (kinds : CallableKinds) (cx : Context) (n m : Node) : Prop :=
  m.isNamed ∧ m.kind ∈ kinds.methods ++ kinds.constructors ∧ (kinds.name? cx m).isSome ∧
    ∃ body, kinds.body n = some body ∧
      body.ReachedThrough (fun a => a.isNamed ∧ a.kind ∈ kinds.inner) m

def ReadFrom (kinds : CallableKinds) (cx : Context) (e : CallableMember) : Prop :=
  (e.isConstructor = true ↔ e.node.kind ∈ kinds.constructors) ∧
    ∃ name parts, kinds.name? cx e.node = some name ∧
      e.method.function = cx.function e.node name parts

-- The callables that a type declares, each once and in document order.
structure Callables (kinds : CallableKinds) (cx : Context) (n : Node)
    (found : List CallableMember) : Prop where
  declared : Node.Lists (kinds.Declares cx n) (found.map (·.node))
  read : ∀ e ∈ found, kinds.ReadFrom cx e

def memberNodes (inner : List String) (body : Node) : List Node :=
  body.collectBelow fun m =>
    if !m.isNamed || m.isComment then .pass
    else if inner.contains m.kind then .enter
    else .report

theorem memberNodes_flat (body : Node) : memberNodes [] body = body.namedChildren := by
  rw [memberNodes, Node.collectBelow_eq, Node.namedChildren]
  induction body.children with
  | nil => rfl
  | cons c children ih =>
    rw [List.flatMap_cons, ih, Node.collect_eq]
    by_cases kept : c.isNamed && !c.isComment
    · simp_all
    · grind

structure Distinct (kinds : CallableKinds) : Prop where
  inner : ∀ kind ∈ kinds.methods ++ kinds.constructors, kind ∉ kinds.inner
  comment : ∀ kind ∈ kinds.methods ++ kinds.constructors ++ kinds.inner,
    Text.contains kind "comment" = false ∧ kind ≠ "haddock"
  constructors : ∀ kind ∈ kinds.methods, kind ∉ kinds.constructors

def isCallable (kinds : CallableKinds) (m : Node) : Bool :=
  (kinds.methods ++ kinds.constructors).contains m.kind

def calls (kinds : CallableKinds) (cx : Context) (m : Node) : Bool :=
  kinds.isCallable m && (kinds.name? cx m).isSome

def nodes (kinds : CallableKinds) (n : Node) : List Node :=
  ((kinds.body n).map (memberNodes kinds.inner)).getD []

theorem memberNodes_list (inner : List String) (body : Node) :
    Node.Lists
      (fun m => (m.isNamed ∧ ¬ m.isComment ∧ m.kind ∉ inner) ∧
        body.ReachedThrough (fun a => a.isNamed ∧ ¬ a.isComment ∧ a.kind ∈ inner) m)
      (memberNodes inner body) := by
  refine Node.collectBelow_lists fun m => ?_
  have reported (k : Node) : (if !k.isNamed || k.isComment then Node.Visit.pass
      else if inner.contains k.kind then .enter else .report) = .report ↔
        k.isNamed ∧ ¬ k.isComment ∧ k.kind ∉ inner := by
    grind
  have entered (k : Node) : (if !k.isNamed || k.isComment then Node.Visit.pass
      else if inner.contains k.kind then .enter else .report) = .enter ↔
        k.isNamed ∧ ¬ k.isComment ∧ k.kind ∈ inner := by
    grind
  simp only [reported, entered]

theorem Distinct.plain (distinct : kinds.Distinct)
    (kind : m.kind ∈ kinds.methods ++ kinds.constructors ++ kinds.inner) : ¬ m.isComment := by
  obtain ⟨other, different⟩ := distinct.comment m.kind kind
  simp [Node.isComment, other, different]

theorem nodes_list (distinct : kinds.Distinct) :
    Node.Lists (kinds.Declares cx n) ((kinds.nodes n).filter (kinds.calls cx)) := by
  unfold nodes
  cases shown : kinds.body n with
  | none =>
    have nothing (m : Node) : ¬ kinds.Declares cx n m := by
      rintro ⟨_, _, _, body, found, _⟩
      rw [shown] at found
      cases found
    constructor <;> simp [nothing]
  | some body =>
    refine ((memberNodes_list kinds.inner body).filter (kinds.calls cx)).congr fun m => ?_
    -- An inner block is no comment, so the condition on the way down may leave that out.
    have between : (fun a : Node => a.isNamed ∧ ¬ a.isComment ∧ a.kind ∈ kinds.inner) =
        fun a => a.isNamed ∧ a.kind ∈ kinds.inner := by
      funext a
      refine propext (and_congr_right fun _ => and_iff_right_of_imp fun kind => ?_)
      exact distinct.plain (List.mem_append_right _ kind)
    rw [between]
    simp only [Declares, calls, isCallable, shown, Option.some.injEq, exists_eq_left',
      Bool.and_eq_true, List.contains_iff_mem]
    constructor
    · rintro ⟨⟨⟨named, _, _⟩, reached⟩, callable, name⟩
      exact ⟨named, callable, name, reached⟩
    · rintro ⟨named, callable, name, reached⟩
      have plain := distinct.plain (List.mem_append_left _ callable)
      exact ⟨⟨⟨named, plain, distinct.inner _ callable⟩, reached⟩, callable, name⟩

def read (kinds : CallableKinds) (build : Node → Option MethodDecl) (m : Node) :
    Option CallableMember :=
  if kinds.isCallable m then
    (build m).map fun method => ⟨m, kinds.constructors.contains m.kind, method⟩
  else none

theorem read_method (distinct : kinds.Distinct) (build : Node → Option MethodDecl)
    (kind : m.kind ∈ kinds.methods) : kinds.read build m = (build m).map (⟨m, false, ·⟩) := by
  have other := distinct.constructors m.kind kind
  simp [read, isCallable, kind, other]

theorem read_constructor (build : Node → Option MethodDecl) (kind : m.kind ∈ kinds.constructors) :
    kinds.read build m = (build m).map (⟨m, true, ·⟩) := by
  simp [read, isCallable, kind]

theorem read_other (build : Node → Option MethodDecl)
    (kind : m.kind ∉ kinds.methods ++ kinds.constructors) : kinds.read build m = none := by
  rw [read, if_neg]
  exact mt List.contains_iff_mem.mp kind

def Builds (kinds : CallableKinds) (cx : Context) (build : Node → Option MethodDecl) : Prop :=
  ∃ parts : Node → Callable, ∀ m, kinds.isCallable m →
    (build m).map (·.function) = (kinds.name? cx m).map fun name => cx.function m name (parts m)

variable {build : Node → Option MethodDecl}

theorem read_calls (builds : kinds.Builds cx build) (m : Node) :
    (kinds.read build m).map (·.node) = Option.guard (kinds.calls cx) m := by
  obtain ⟨parts, builds⟩ := builds
  cases callable : kinds.isCallable m with
  | false => simp [read, calls, Option.guard, callable]
  | true =>
    have same : (build m).isSome = (kinds.name? cx m).isSome := by
      simpa using congrArg Option.isSome (builds m callable)
    cases made : build m <;> simp_all [read, calls, Option.guard]

theorem callables (distinct : kinds.Distinct) (builds : kinds.Builds cx build) :
    kinds.Callables cx n ((kinds.nodes n).filterMap (kinds.read build)) where
  declared := by
    have listed : Node.Lists (kinds.Declares cx n) _ := nodes_list distinct
    rwa [List.map_filterMap, funext (read_calls builds), List.filterMap_eq_filter]
  read := by
    obtain ⟨parts, builds⟩ := builds
    intro e member
    obtain ⟨m, _, found⟩ := List.mem_filterMap.mp member
    unfold read at found
    split at found
    · next callable =>
      obtain ⟨method, built, rfl⟩ := Option.map_eq_some_iff.mp found
      have read := builds m callable
      rw [built, Option.map_some] at read
      obtain ⟨name, named, same⟩ := Option.map_eq_some_iff.mp read.symm
      exact ⟨List.contains_iff_mem, name, parts m, named, same.symm⟩
    · cases found

theorem name_own (own : kinds.constructorName = none) : kinds.name? cx m = cx.name? m := by
  rw [name?, own, Option.none_or, ite_self]

def buildMember (method? : Node → Option MethodDecl) (inInterface : Bool) (n : Node) :
    Option MethodDecl :=
  if n.kind == "method_declaration" then
    (method? n).map fun m =>
      let implicit := inInterface && (n.field? "body").isNone && !m.isStatic
      { m with isAbstract := m.isAbstract || implicit }
  else method? n

theorem buildMember_function (method? : Node → Option MethodDecl) (inInterface : Bool) (n : Node) :
    (buildMember method? inInterface n).map (·.function) = (method? n).map (·.function) := by
  unfold buildMember
  split
  · rw [Option.map_map]
    rfl
  · rfl

structure Collects (kinds : CallableKinds) (build : Node → Option MethodDecl)
    (add : Members → Node → Members) : Prop where
  method (members : Members) (m : Node) : m.kind ∈ kinds.methods →
    add members m = (build m).elim members members.addMethod
  constructor (members : Members) (m : Node) : m.kind ∈ kinds.constructors →
    add members m = (build m).elim members members.addConstructor
  other (members : Members) (m : Node) : m.kind ∉ kinds.methods → m.kind ∉ kinds.constructors →
    ∃ properties, add members m = members.addProperties properties

variable {add : Members → Node → Members} {members : Members} {found : List CallableMember}

theorem Collects.step (collects : kinds.Collects build add) (distinct : kinds.Distinct) (m : Node)
    (holds : members.Holds found) :
    (add members m).Holds (found ++ (kinds.read build m).toList) := by
  by_cases isMethod : m.kind ∈ kinds.methods
  · rw [collects.method members m isMethod, read_method distinct build isMethod]
    cases build m with
    | none => simpa using holds
    | some method => exact holds.addMethod (e := ⟨m, false, method⟩) rfl
  by_cases isConstructor : m.kind ∈ kinds.constructors
  · rw [collects.constructor members m isConstructor, read_constructor build isConstructor]
    cases build m with
    | none => simpa using holds
    | some method => exact holds.addConstructor (e := ⟨m, true, method⟩) rfl
  obtain ⟨properties, added⟩ := collects.other members m isMethod isConstructor
  have other : m.kind ∉ kinds.methods ++ kinds.constructors := by simp [isMethod, isConstructor]
  rw [added, read_other build other, Option.toList_none, List.append_nil]
  exact holds.addProperties properties

theorem Collects.run (collects : kinds.Collects build add) (distinct : kinds.Distinct) (n : Node) :
    ((kinds.nodes n).foldl add {}).Holds ((kinds.nodes n).filterMap (kinds.read build)) := by
  have start : Members.Holds {} [] := ⟨rfl, rfl⟩
  have held := Members.foldl_holds (fun m => collects.step distinct m) (kinds.nodes n) start
  rwa [List.nil_append] at held

theorem Collects.collected (collects : kinds.Collects build add) (distinct : kinds.Distinct)
    (builds : kinds.Builds cx build) (n : Node) :
    ∃ found, kinds.Callables cx n found ∧ ((kinds.nodes n).foldl add {}).Holds found :=
  ⟨_, callables distinct builds, collects.run distinct n⟩

end CallableKinds

end CodeEntities
