import CodeEntities.Proofs.Outline.Sections
import CodeEntities.Proofs.Rules.CFamily
import Mathlib.Data.List.Forall2

namespace CodeEntities.CFamily

variable {cx : Context} {start : Visibility}

def memberSequence (spec : Node) : List Node :=
  ((spec.field? "body").map fun body => body.namedChildren.filterMap untemplated?).getD []

def opened? (cx : Context) (n : Node) : Option Visibility :=
  if n.kind == "access_specifier" then accessKeyword? cx n else none

def sectionAt (cx : Context) (start : Visibility) (before : List Node) : Visibility :=
  (lastSaid? (opened? cx) before).getD start

def declaratorChain (n : Node) : List Node :=
  if n.kind == "qualified_identifier" || isPlainName n then [n]
  else
    match _found : inner? n with
    | some m => n :: declaratorChain m
    | none => [n]
termination_by n.size
decreasing_by exact size_inner (by assumption)

def isFunction (n : Node) : Bool := (declaratorChain n).any (·.kind == "function_declarator")

inductive SiteKind where
  | function | field | enumerator
  deriving DecidableEq

structure MemberSite where
  before : List Node
  member : Node
  kind : SiteKind
  name : String

def declares (n : Node) : Bool :=
  ["function_definition", "field_declaration", "declaration"].contains n.kind

def declaratorSite (before : List Node) (n : Node) (entry : Declarator × Node) : MemberSite :=
  ⟨before, n, if isFunction entry.2 then .function else .field, entry.1.name⟩

def sitesAt (cx : Context) (before : List Node) (n : Node) : List MemberSite :=
  if declares n then (declarators cx n).map (declaratorSite before n)
  else if n.kind == "enumerator" then
    (cx.fieldText? n "name").toList.map (⟨before, n, .enumerator, ·⟩)
  else []

def memberSites (cx : Context) (members : List Node) : List MemberSite :=
  (spots members).flatMap fun s => sitesAt cx s.before s.entry

def functionSites (sites : List MemberSite) : List MemberSite := sites.filter (·.kind = .function)

def propertySites (sites : List MemberSite) : List MemberSite := sites.filter (·.kind ≠ .function)

structure ReadsMethod (cx : Context) (start : Visibility) (s : MemberSite) (m : MethodDecl) :
    Prop where
  name : m.name = s.name
  location : m.function.location = cx.location s.member
  visibility : m.visibility = sectionAt cx start s.before

-- Fields belong to the section that they stand in, enumerators to none.
structure ReadsProperty (cx : Context) (start : Visibility) (s : MemberSite) (p : PropertyDecl) :
    Prop where
  name : p.name = s.name
  location : p.location = cx.location s.member
  visibility : (cx.modifiers s.member).nameAccess = false →
    p.visibility = if s.kind = .enumerator then .isPublic else sectionAt cx start s.before

-- Functions are read as the constructor and the methods, each once, and the others as properties.
structure Collected (cx : Context) (start : Visibility) (sites : List MemberSite) (m : Members) :
    Prop where
  callables : ∃ built, (m.constructor.toList ++ m.methods).Perm built ∧
    List.Forall₂ (ReadsMethod cx start) (functionSites sites) built
  properties : List.Forall₂ (ReadsProperty cx start) (propertySites sites) m.properties

theorem isFunction_named {n : Node} (named : n.kind = "qualified_identifier" ∨ isPlainName n) :
    isFunction n = false := by
  have last : declaratorChain n = [n] := by
    rw [declaratorChain, if_pos (by simpa using named)]
  have other : n.kind ≠ "function_declarator" := by
    rintro same
    simp [isPlainName, same] at named
  simp [isFunction, last, other]

theorem isFunction_step {n m : Node} (unnamed : ¬ (n.kind == "qualified_identifier"))
    (notPlain : ¬ isPlainName n) (step : inner? n = some m) :
    isFunction n = (n.kind == "function_declarator" || isFunction m) := by
  rw [isFunction, declaratorChain, if_neg (by simp_all)]
  split
  · next other found =>
    cases step.symm.trans found
    rfl
  · next absent => cases step.symm.trans absent

theorem resolveFrom_function {function : Option Node} {pointers : Nat} {n : Node} {d : Declarator}
    (found : resolveFrom cx function pointers n = some d) :
    d.function.isSome = (function.isSome || isFunction n) := by
  fun_induction resolveFrom cx function pointers n with
  | case1 => cases found
  | case2 function pointers n isQualified name field deeper ih =>
    rw [ih found, isFunction_named (.inl (eq_of_beq isQualified)),
      isFunction_named (.inl (eq_of_beq deeper))]
  | case3 function pointers n isQualified name field last =>
    obtain ⟨text, _, rfl⟩ := Option.map_eq_some_iff.mp found
    rw [isFunction_named (.inl (eq_of_beq isQualified)), Bool.or_false]
  | case4 function pointers n notQualified isPlain =>
    obtain ⟨text, _, rfl⟩ := Option.map_eq_some_iff.mp found
    rw [isFunction_named (.inr isPlain), Bool.or_false]
  | case5 function pointers n notQualified notPlain inner isPointer m step ih =>
    rw [ih found, isFunction_step notQualified notPlain step]
    cases isDeclarator : n.kind == "function_declarator" <;> simp [inner, isDeclarator]
  | case6 => cases found

theorem declarators_function {n : Node} {entry : Declarator × Node}
    (member : entry ∈ declarators cx n) : entry.1.function.isSome = isFunction entry.2 := by
  obtain ⟨d, _, read⟩ := List.mem_filterMap.mp member
  obtain ⟨r, found, rfl⟩ := Option.map_eq_some_iff.mp read
  exact resolveFrom_function found

theorem memberSites_concat (members : List Node) (n : Node) :
    memberSites cx (members ++ [n]) = memberSites cx members ++ sitesAt cx members n := by
  rw [memberSites, spots_concat, List.flatMap_append, List.flatMap_map, List.flatMap_singleton]
  rfl

theorem sectionAt_concat (before : List Node) (n : Node) :
    sectionAt cx start (before ++ [n]) = (opened? cx n).getD (sectionAt cx start before) := by
  rw [sectionAt, lastSaid_concat]
  cases opened? cx n <;> rfl

namespace Collected

variable {s : MemberSite} {sites : List MemberSite} {members : Members}

theorem functionSites_concat (sites : List MemberSite) (isFunction : s.kind = .function) :
    functionSites (sites ++ [s]) = functionSites sites ++ [s] ∧
      propertySites (sites ++ [s]) = propertySites sites := by
  simp [functionSites, propertySites, isFunction]

theorem propertySites_concat (sites : List MemberSite) (other : s.kind ≠ .function) :
    functionSites (sites ++ [s]) = functionSites sites ∧
      propertySites (sites ++ [s]) = propertySites sites ++ [s] := by
  simp [functionSites, propertySites, other]

theorem addMethod {m : MethodDecl} (collected : Collected cx start sites members)
    (isFunction : s.kind = .function) (read : ReadsMethod cx start s m) :
    Collected cx start (sites ++ [s]) (members.addMethod m) := by
  obtain ⟨⟨built, order, pairs⟩, properties⟩ := collected
  obtain ⟨functions, others⟩ := functionSites_concat sites isFunction
  refine ⟨⟨built ++ [m], ?_, ?_⟩, others ▸ properties⟩
  · rw [Members.addMethod, ← List.append_assoc]
    exact order.append_right [m]
  · rw [functions]
    exact List.rel_append pairs (.cons read .nil)

theorem addConstructor {m : MethodDecl} (collected : Collected cx start sites members)
    (isFunction : s.kind = .function) (read : ReadsMethod cx start s m) :
    Collected cx start (sites ++ [s]) (members.addConstructor m) := by
  unfold Members.addConstructor
  cases slot : members.constructor with
  | some first => exact collected.addMethod isFunction read
  | none =>
    obtain ⟨⟨built, order, pairs⟩, properties⟩ := collected.addMethod isFunction read
    refine ⟨⟨built, .trans ?_ order, pairs⟩, properties⟩
    rw [Members.addMethod, slot]
    exact List.perm_append_comm

theorem addProperty {p : PropertyDecl} (collected : Collected cx start sites members)
    (other : s.kind ≠ .function) (read : ReadsProperty cx start s p) :
    Collected cx start (sites ++ [s]) (members.addProperties [p]) := by
  obtain ⟨⟨built, order, pairs⟩, properties⟩ := collected
  obtain ⟨functions, others⟩ := propertySites_concat sites other
  refine ⟨⟨built, order, functions ▸ pairs⟩, ?_⟩
  rw [others]
  exact List.rel_append properties (.cons read .nil)

theorem addDeclarator {before : List Node} {n : Node} {entry : Declarator × Node}
    (name : String) (collected : Collected cx start sites members)
    (listed : entry ∈ declarators cx n) :
    Collected cx start (sites ++ [declaratorSite before n entry])
      (addDeclarator cx name n (sectionAt cx start before) members entry) := by
  have same := declarators_function listed
  unfold CFamily.addDeclarator declaratorSite
  simp only [same]
  split
  · next isFunction =>
    split
    · exact collected.addConstructor rfl ⟨rfl, rfl, rfl⟩
    · exact collected.addMethod rfl ⟨rfl, rfl, rfl⟩
  · next other =>
    refine collected.addProperty nofun ⟨rfl, rfl, fun silent => ?_⟩
    exact Visibility.ofModifiers_silent silent _

theorem addDeclarators {before : List Node} {n : Node} {entries : List (Declarator × Node)}
    (name : String) (listed : ∀ entry ∈ entries, entry ∈ declarators cx n)
    (collected : Collected cx start sites members) :
    Collected cx start (sites ++ entries.map (declaratorSite before n))
      (entries.foldl (CFamily.addDeclarator cx name n (sectionAt cx start before)) members) := by
  induction entries generalizing sites members with
  | nil => simpa using collected
  | cons entry rest ih =>
    obtain ⟨first, rest⟩ := List.forall_mem_cons.mp listed
    rw [List.map_cons, List.append_cons, List.foldl_cons]
    exact ih rest (collected.addDeclarator name first)

end Collected

theorem addMember_access (name : String) (s : Section) (n : Node) :
    (addMember cx name s n).access = (opened? cx n).getD s.access := by
  unfold addMember opened?
  by_cases isSpecifier : n.kind == "access_specifier"
  · rw [if_pos isSpecifier, if_pos isSpecifier]
  rw [if_neg isSpecifier, if_neg isSpecifier, Option.getD_none]
  split
  · rfl
  · split
    · cases cx.fieldText? n "name" <;> rfl
    · rfl

theorem addMember_collected {before : List Node} {s : Section} (name : String) (n : Node)
    (access : s.access = sectionAt cx start before)
    (collected : Collected cx start (memberSites cx before) s.members) :
    Collected cx start (memberSites cx (before ++ [n])) (addMember cx name s n).members := by
  rw [memberSites_concat]
  unfold addMember sitesAt
  by_cases isSpecifier : n.kind == "access_specifier"
  · have kind := eq_of_beq isSpecifier
    have bare : declares n = false := by simp [declares, kind]
    simpa [isSpecifier, bare, kind] using collected
  rw [if_neg isSpecifier]
  by_cases isDeclaration : declares n
  · rw [if_pos isDeclaration, if_pos (show List.contains _ _ = true from isDeclaration), access]
    exact collected.addDeclarators name fun _ => id
  rw [if_neg isDeclaration, if_neg (show ¬ List.contains _ _ = true from isDeclaration)]
  split
  · cases cx.fieldText? n "name" with
    | none => simpa using collected
    | some name =>
      refine collected.addProperty nofun ⟨rfl, rfl, fun silent => ?_⟩
      exact Visibility.ofModifiers_silent silent _
  · simpa using collected

theorem members_collected (name : String) (members : List Node) :
    (members.foldl (addMember cx name) ⟨start, {}⟩).access = sectionAt cx start members ∧
      Collected cx start (memberSites cx members)
        (members.foldl (addMember cx name) ⟨start, {}⟩).members := by
  induction members using List.reverseRecOn with
  | nil => exact ⟨rfl, ⟨[], .refl _, .nil⟩, .nil⟩
  | append_singleton before n ih =>
    obtain ⟨access, collected⟩ := ih
    rw [List.foldl_append, List.foldl_cons, List.foldl_nil]
    refine ⟨?_, addMember_collected name n access collected⟩
    rw [addMember_access, sectionAt_concat, access]

theorem classDecl_members (cx : Context) (spec : Node) (name : String) (whole : Node) :
    let c := classDecl cx spec name whole
    ⟨c.methods, c.properties, c.constructor⟩ =
      ((memberSequence spec).foldl (addMember cx name) ⟨defaultAccess spec, {}⟩).members := by
  unfold classDecl memberSequence
  cases spec.field? "body" with
  | none => rfl
  | some body => exact members_eq cx name body (defaultAccess spec)

theorem unrecognised_section (name : String) (s : Section) {n : Node}
    (isSpecifier : n.kind = "access_specifier") (unknown : accessKeyword? cx n = none) :
    addMember cx name s n = s := by
  rw [addMember, if_pos (beq_iff_eq.mpr isSpecifier), unknown]
  rfl

-- Each function declarator of a body is read once, as the constructor or as a method, and the other
-- declarators are properties. The last access specifier in front that is recognised is their
-- section; a specifier of another word leaves everything as it is.
theorem members_follow_sections (cx : Context) (spec : Node) (name : String) (whole : Node) :
    let c := classDecl cx spec name whole
    let sites := memberSites cx (memberSequence spec)
    (∃ built, c.callables.Perm built ∧
      List.Forall₂ (ReadsMethod cx (defaultAccess spec)) (functionSites sites) built) ∧
    List.Forall₂ (ReadsProperty cx (defaultAccess spec)) (propertySites sites) c.properties ∧
    ∀ s n, n.kind = "access_specifier" → accessKeyword? cx n = none →
      addMember cx name s n = s := by
  intro c sites
  have collected : Collected cx (defaultAccess spec) sites _ :=
    (members_collected name (memberSequence spec)).2
  rw [← classDecl_members cx spec name whole] at collected
  exact ⟨collected.callables, collected.properties, fun s n => unrecognised_section name s⟩

-- `f` stands in front of the section, the template of the constructor and `x` behind it.
def sampleClass : Tree :=
  .whole "class_specifier" 0 60 none [
    .whole "type_identifier" 6 7 (some "name") [],
    .whole "field_declaration_list" 8 60 (some "body") [
      .whole "field_declaration" 10 18 none [
        .whole "primitive_type" 10 13 (some "type") [],
        .whole "function_declarator" 14 17 (some "declarator") [
          .whole "field_identifier" 14 15 (some "declarator") []]],
      .whole "access_specifier" 19 25 none [],
      .whole "template_declaration" 27 51 none [
        .whole "template_parameter_list" 36 45 (some "parameters") [],
        .whole "declaration" 46 51 none [
          .whole "function_declarator" 46 50 (some "declarator") [
            .whole "identifier" 46 47 (some "declarator") []]]],
      .whole "field_declaration" 52 58 none [
        .whole "primitive_type" 52 55 (some "type") [],
        .whole "field_identifier" 56 57 (some "declarator") []]]]

example :
    let cx : Context :=
      ⟨"class A { int f(); public: template <class T> A(T); int x; };", "m.cpp", .cpp, {}⟩
    let c := classDecl cx (.root sampleClass) "A" (.root sampleClass)
    c.callables.map (fun m => (m.name, m.visibility)) = [("A", .isPublic), ("f", .isPrivate)] ∧
      c.properties.map (fun p => (p.name, p.visibility)) = [("x", .isPublic)] := by
  decide +kernel

end CodeEntities.CFamily
