import CodeEntities.Proofs.Outline.MethodGroups
import CodeEntities.Proofs.Rules.Go
import CodeEntities.Proofs.Tree.Search

namespace CodeEntities

inductive TypeDecl where
  | ofClass (c : ClassDecl)
  | ofInterface (i : InterfaceDecl)
  | ofAlias (a : TypeAliasDecl)
  deriving Repr, DecidableEq

namespace TypeDecl

def name : TypeDecl → String
  | ofClass c => c.name
  | ofInterface i => i.name
  | ofAlias a => a.name

def location : TypeDecl → Location
  | ofClass c => c.location
  | ofInterface i => i.location
  | ofAlias a => a.location

def class? : TypeDecl → Option ClassDecl
  | ofClass c => some c
  | _ => none

def interface? : TypeDecl → Option InterfaceDecl
  | ofInterface i => some i
  | _ => none

def alias? : TypeDecl → Option TypeAliasDecl
  | ofAlias a => some a
  | _ => none

end TypeDecl

namespace Go

variable {cx : Context} {root spec : Node} {t : TypeDecl} {name : String}

-- `type A T` and `type A = T`.
def specKinds : List String := ["type_spec", "type_alias"]

-- `type A = struct {..}` or `type A = interface {..}`.
def isAliasOfLiteral (spec : Node) : Bool :=
  spec.kind == "type_alias" && (isStruct spec || isInterface spec)

def declaredType? (cx : Context) (spec : Node) : Option TypeDecl :=
  if isAliasOfLiteral spec then none
  else if isStruct spec then
    (cx.name? spec).map fun name => .ofClass (structClass cx spec name)
  else if isInterface spec then (interface? cx spec).map .ofInterface
  else (typeAlias? cx spec).map .ofAlias

def reported (cx : Context) (root : Node) : List (Node × TypeDecl) :=
  (typeSpecs root specKinds).filterMap fun spec => (declaredType? cx spec).map fun t => (spec, t)

theorem typeSpecs_filter (root : Node) :
    typeSpecs root ["type_spec"] = (typeSpecs root specKinds).filter (·.kind == "type_spec") := by
  unfold typeSpecs
  rw [List.filter_flatMap]
  refine congrArg (List.flatMap · _) (funext fun decl => ?_)
  rw [List.filter_filter]
  refine List.filter_congr fun s _ => ?_
  by_cases plain : s.kind = "type_spec"
  · simp [plain, specKinds]
  · simp [plain]

theorem typeSpecs_kind (listed : spec ∈ typeSpecs root specKinds) : spec.kind ∈ specKinds := by
  obtain ⟨decl, _, child⟩ := List.mem_flatMap.mp listed
  exact List.contains_iff_mem.mp (List.mem_filter.mp child).2

-- The forms that a specification can have, and what is found in each of them.
inductive Finds (cx : Context) (spec : Node) : Option TypeDecl → Prop
  | struct (plain : spec.kind = "type_spec") (struct : isStruct spec = true)
      (other : isInterface spec = false) :
      Finds cx spec ((cx.name? spec).map fun name => .ofClass (structClass cx spec name))
  | interface (plain : spec.kind = "type_spec") (other : isStruct spec = false)
      (interface : isInterface spec = true) :
      Finds cx spec ((interface? cx spec).map .ofInterface)
  | named (noStruct : isStruct spec = false) (noInterface : isInterface spec = false) :
      Finds cx spec ((typeAlias? cx spec).map .ofAlias)
  | dropped (equated : spec.kind = "type_alias")
      (literal : isStruct spec = true ∨ isInterface spec = true) : Finds cx spec none

theorem declaredType_finds (cx : Context) (listed : spec ∈ typeSpecs root specKinds) :
    Finds cx spec (declaredType? cx spec) := by
  unfold declaredType? isAliasOfLiteral
  cases struct : isStruct spec with
  | true =>
    have other : isInterface spec = false := by simpa using struct_not_interface struct
    rcases List.mem_pair.mp (typeSpecs_kind listed) with plain | equated
    · simpa [plain] using Finds.struct plain struct other
    · simpa [equated] using Finds.dropped equated (.inl struct)
  | false =>
    cases interface : isInterface spec with
    | true =>
      rcases List.mem_pair.mp (typeSpecs_kind listed) with plain | equated
      · simpa [plain] using Finds.interface plain struct interface
      · simpa [equated] using Finds.dropped equated (.inr interface)
    | false => simpa using Finds.named struct interface

theorem reported_select {α : Type} (select : TypeDecl → Option α) :
    (reported cx root).filterMap (fun r => select r.2) =
      (typeSpecs root specKinds).filterMap fun spec => (declaredType? cx spec).bind select := by
  unfold reported
  rw [List.filterMap_filterMap]
  refine List.filterMap_congr fun spec _ => ?_
  rw [Option.bind_map]
  rfl

theorem structs_reported : structs cx root = (reported cx root).filterMap (·.2.class?) := by
  rw [reported_select, structs, typeSpecs_filter, List.filter_filter, List.filterMap_filter]
  refine List.filterMap_congr fun spec listed => ?_
  have finds := declaredType_finds cx listed
  generalize declaredType? cx spec = found at finds
  cases finds with
  | struct plain struct _ => cases cx.name? spec <;> simp [plain, struct, TypeDecl.class?]
  | interface _ other _ => cases interface? cx spec <;> simp [other, TypeDecl.class?]
  | named other _ => cases typeAlias? cx spec <;> simp [other, TypeDecl.class?]
  | dropped equated _ => simp [equated]

theorem interfaces_reported :
    rules.interfaces cx root = (reported cx root).filterMap (·.2.interface?) := by
  simp only [rules]
  rw [reported_select, typeSpecs_filter, List.filter_filter, List.filterMap_filter]
  refine List.filterMap_congr fun spec listed => ?_
  have finds := declaredType_finds cx listed
  generalize declaredType? cx spec = found at finds
  cases finds with
  | struct _ _ other => cases cx.name? spec <;> simp [other, TypeDecl.interface?]
  | interface plain _ interface =>
    cases interface? cx spec <;> simp [plain, interface, TypeDecl.interface?]
  | named _ other => cases typeAlias? cx spec <;> simp [other, TypeDecl.interface?]
  | dropped equated _ => simp [equated]

theorem typeAliases_reported :
    rules.typeAliases cx root = (reported cx root).filterMap (·.2.alias?) := by
  simp only [rules]
  rw [reported_select, List.filterMap_filter]
  refine List.filterMap_congr fun spec listed => ?_
  have finds := declaredType_finds cx listed
  generalize declaredType? cx spec = found at finds
  cases finds with
  | struct _ struct _ => cases cx.name? spec <;> simp [struct, TypeDecl.alias?]
  | interface _ _ interface => cases interface? cx spec <;> simp [interface, TypeDecl.alias?]
  | named noStruct noInterface =>
    cases typeAlias? cx spec <;> simp [noStruct, noInterface, TypeDecl.alias?]
  | dropped _ literal => rcases literal with struct | interface <;> simp [*]

theorem classes_reported :
    Rules.Extends (rules.classes cx root) ((reported cx root).filterMap (·.2.class?)) := by
  have same : rules.classes cx root = (ownedMethods cx root).foldl attachOwned (structs cx root) :=
    classes_eq cx root
  rw [same, ← structs_reported]
  exact Rules.foldl_extends (fun found (m : String × MethodDecl) => attach_extends found m.1 m.2) _ _

theorem interface_named {i : InterfaceDecl} (found : interface? cx spec = some i) :
    cx.name? spec = some i.name := by
  obtain ⟨name, named, found⟩ := Option.bind_eq_some_iff.mp found
  obtain ⟨body, _, same⟩ := Option.bind_eq_some_iff.mp found
  cases same
  exact named

theorem declaredType_own (listed : spec ∈ typeSpecs root specKinds)
    (found : declaredType? cx spec = some t) :
    cx.name? spec = some t.name ∧ t.location = cx.location spec := by
  have finds := declaredType_finds cx listed
  rw [found] at finds
  generalize read : some t = result at finds
  cases finds with
  | struct =>
    obtain ⟨name, named, rfl⟩ := Option.map_eq_some_iff.mp read.symm
    exact ⟨named, rfl⟩
  | interface =>
    obtain ⟨i, declared, rfl⟩ := Option.map_eq_some_iff.mp read.symm
    exact ⟨interface_named declared, interface_location declared⟩
  | named =>
    obtain ⟨a, declared, rfl⟩ := Option.map_eq_some_iff.mp read.symm
    obtain ⟨name, named, rfl⟩ := Option.map_eq_some_iff.mp declared
    exact ⟨named, rfl⟩
  | dropped => cases read

theorem interface_found (interface : isInterface spec = true) (named : cx.name? spec = some name) :
    (interface? cx spec).isSome := by
  obtain ⟨body, typed, _⟩ := Option.map_eq_some_iff.mp (eq_of_beq interface)
  simp [interface?, named, typed]

theorem declaredType_isSome_iff (listed : spec ∈ typeSpecs root specKinds)
    (named : cx.name? spec = some name) :
    (declaredType? cx spec).isSome ↔ isAliasOfLiteral spec = false := by
  have finds := declaredType_finds cx listed
  generalize declaredType? cx spec = found at finds
  unfold isAliasOfLiteral
  cases finds with
  | struct plain => simp [named, plain]
  | interface plain _ interface => simp [plain, interface_found interface named]
  | named noStruct noInterface => simp [typeAlias?, named, noStruct, noInterface]
  | dropped equated literal => rcases literal with struct | interface <;> simp [*]

theorem mem_reported : (spec, t) ∈ reported cx root ↔
    spec ∈ typeSpecs root specKinds ∧ declaredType? cx spec = some t := by
  simp only [reported, List.mem_filterMap, Option.map_eq_some_iff, Prod.mk.injEq]
  constructor
  · rintro ⟨s, listed, u, found, rfl, rfl⟩
    exact ⟨listed, found⟩
  · rintro ⟨listed, found⟩
    exact ⟨spec, listed, t, found, rfl, rfl⟩

theorem typeSpecs_nodup (root : Node) (kinds : List String) : (typeSpecs root kinds).Nodup :=
  ((Node.preorder_precedes root).sublist (typeSpecs_sublist root kinds)).imp Node.Precedes.different

theorem reported_nodup : ((reported cx root).map (·.1)).Nodup := by
  refine List.Nodup.sublist ?_ (typeSpecs_nodup root specKinds)
  refine sites_sublist (fun {spec r} found => ?_) _
  obtain ⟨t, _, rfl⟩ := Option.map_eq_some_iff.mp found
  rfl

-- The declared types of an outline are those that are reported of the specifications, and
-- every specification with a name is reported as exactly one type unless it is an alias of a
-- struct or an interface that is written out; then it is reported as none.
theorem named_types_are_reported_iff (cx : Context) (root : Node) :
    let found := reported cx root
    Rules.Extends (rules.classes cx root) (found.filterMap (·.2.class?)) ∧
    rules.interfaces cx root = found.filterMap (·.2.interface?) ∧
    rules.typeAliases cx root = found.filterMap (·.2.alias?) ∧
    (found.map (·.1)).Nodup ∧
    (∀ r ∈ found, cx.name? r.1 = some r.2.name ∧ r.2.location = cx.location r.1) ∧
    ∀ spec ∈ typeSpecs root specKinds, ∀ name, cx.name? spec = some name →
      ((∃! t, (spec, t) ∈ found) ↔ isAliasOfLiteral spec = false) := by
  intro found
  refine ⟨classes_reported, interfaces_reported, typeAliases_reported, reported_nodup, ?_, ?_⟩
  · intro r member
    obtain ⟨listed, declared⟩ := mem_reported.mp member
    exact declaredType_own listed declared
  · intro spec listed name named
    rw [← declaredType_isSome_iff listed named, Option.isSome_iff_exists]
    constructor
    · rintro ⟨t, member, _⟩
      exact ⟨t, (mem_reported.mp member).2⟩
    · rintro ⟨t, declared⟩
      refine ⟨t, mem_reported.mpr ⟨listed, declared⟩, fun u member => ?_⟩
      exact Option.some.inj ((mem_reported.mp member).2.symm.trans declared)

def aliasFile (stop : Nat) (type : Tree) : Tree :=
  .whole "source_file" 0 stop none [
    .whole "type_declaration" 0 stop none [
      .token "type" 0,
      .whole "type_alias" 5 stop none [
        .whole "type_identifier" 5 6 (some "name") [],
        .token "=" 7,
        type]]]

theorem plain_alias_is_reported :
    let cx : Context := ⟨"type A = int\n", "t.go", .go, {}⟩
    let root : Node := .root (aliasFile 12 (.whole "type_identifier" 9 12 (some "type") []))
    typeSpecs root specKinds ≠ [] ∧
      ∀ spec ∈ typeSpecs root specKinds, cx.name? spec = some "A" ∧
        ∃! t, (spec, t) ∈ reported cx root := by
  intro cx root
  have one : (typeSpecs root specKinds).length = 1 := by decide +kernel
  have plain : ∀ spec ∈ typeSpecs root specKinds,
      cx.name? spec = some "A" ∧ isAliasOfLiteral spec = false := by decide +kernel
  refine ⟨List.ne_nil_of_length_pos (one ▸ Nat.one_pos), fun spec listed => ?_⟩
  obtain ⟨named, other⟩ := plain spec listed
  obtain ⟨_, _, _, _, _, each⟩ := named_types_are_reported_iff cx root
  exact ⟨named, (each spec listed "A" named).mpr other⟩

def emptyStruct : Tree :=
  .whole "struct_type" 9 17 (some "type") [
    .token "struct" 9,
    .whole "field_declaration_list" 15 17 none [.token "\x7b" 15, .token "\x7d" 16]]

theorem struct_alias_is_dropped :
    ¬ ∀ (cx : Context) (root : Node), ∀ spec ∈ typeSpecs root specKinds, ∀ name,
      cx.name? spec = some name →
        name ∈ (rules.classes cx root).map (·.name) ∨
        name ∈ (rules.interfaces cx root).map (·.name) ∨
        name ∈ (rules.typeAliases cx root).map (·.name) := by
  intro reported
  let cx : Context := ⟨"type A = struct\x7b\x7d\n", "t.go", .go, {}⟩
  let root : Node := .root (aliasFile 17 emptyStruct)
  have one : (typeSpecs root specKinds).length = 1 := by decide +kernel
  have named : ∀ spec ∈ typeSpecs root specKinds, cx.name? spec = some "A" := by decide +kernel
  have dropped : ¬ ("A" ∈ (rules.classes cx root).map (·.name) ∨
      "A" ∈ (rules.interfaces cx root).map (·.name) ∨
      "A" ∈ (rules.typeAliases cx root).map (·.name)) := by decide +kernel
  obtain ⟨spec, listed⟩ := List.exists_mem_of_length_pos (one ▸ Nat.one_pos)
  exact dropped (reported cx root spec listed "A" (named spec listed))

end Go

end CodeEntities
