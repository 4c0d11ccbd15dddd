import CodeEntities.Proofs.Rules.Attached
import CodeEntities.Proofs.Rules.Declarations
import CodeEntities.Rules.Go

namespace CodeEntities.Go

section Under

variable (cx : Context) (n : Node)

@[simp]
theorem receiverType_full : receiverType? cx.full = receiverType? cx := rfl

theorem functionOf_under : functionOf cx n = (functionOf cx.full n).map (·.under cx.options) := by
  unfold functionOf callable
  rw [Option.map_map, Context.callable_full]
  exact Option.map_congr fun name _ => Context.function_under cx n name _

theorem methodOf_under : methodOf cx n = (methodOf cx.full n).map (·.under cx.options) := by
  unfold methodOf
  rw [functionOf_under cx, Option.map_map, Option.map_map]
  rfl

theorem fieldProperties_under :
    fieldProperties cx n = (fieldProperties cx.full n).map (·.under cx.options) := by
  unfold fieldProperties
  cases n.childrenByField "name" with
  | nil =>
    rw [Context.fieldText_full]
    cases cx.fieldText? n "type" with
    | none => rfl
    | some t => rfl
  | cons first rest =>
    rw [List.map_map]
    rfl

theorem structClass_under (name : String) :
    structClass cx n name = (structClass cx.full n name).under cx.options := by
  unfold structClass
  simp only [ClassDecl.under, ClassDecl.membersUnder, Options.docOf_or, ← Context.doc_under]
  rw [flatMap_under (fieldProperties_under cx)]
  rfl

theorem attach_under (o : Options) (classes : List ClassDecl) (owner : String) (m : MethodDecl) :
    attach (classes.map (·.under o)) owner (m.under o) =
      (attach classes owner m).map (·.under o) := by
  induction classes with
  | nil =>
    simp only [List.map_nil, attach, List.map_cons, ClassDecl.under, ClassDecl.membersUnder,
      Options.docOf_none]
    rfl
  | cons c rest ih =>
    have name : (c.under o).name = c.name := rfl
    simp only [List.map_cons, attach, name]
    split
    · simp [ClassDecl.under, ClassDecl.membersUnder]
    · simp [ih]

theorem classes_under : classes cx n = (classes cx.full n).map (·.under cx.options) := by
  have structs : ((typeSpecs n ["type_spec"]).filter isStruct).filterMap (fun spec =>
      (cx.name? spec).map (structClass cx spec)) =
        (((typeSpecs n ["type_spec"]).filter isStruct).filterMap fun spec =>
          (cx.full.name? spec).map (structClass cx.full spec)).map (·.under cx.options) := by
    refine filterMap_under (fun spec => ?_) _
    rw [Option.map_map]
    exact Option.map_congr fun name _ => structClass_under cx spec name
  unfold classes
  rw [structs]
  refine List.foldl_hom (List.map (ClassDecl.under cx.options)) fun found decl => ?_
  rw [methodOf_under cx, receiverType_full]
  cases methodOf cx.full decl with
  | none => rfl
  | some m =>
    cases receiverType? cx decl with
    | none => rfl
    | some owner => exact attach_under cx.options found owner m

theorem interface_under : interface? cx n = (interface? cx.full n).map (·.under cx.options) := by
  unfold interface?
  rw [Context.name_full]
  cases cx.name? n with
  | none => rfl
  | some name =>
    cases n.field? "type" with
    | none => rfl
    | some body =>
      refine congrArg some ?_
      simp only [InterfaceDecl.under, InterfaceDecl.membersUnder, Options.docOf_or,
        ← Context.doc_under]
      rw [filterMap_under (methodOf_under cx)]
      rfl

theorem typeAlias_under : typeAlias? cx n = (typeAlias? cx.full n).map (·.under cx.options) := by
  unfold typeAlias?
  rw [Option.map_map]
  rfl

theorem specVariables_under (kind : VariableKind) (spec : Node) :
    specVariables cx n kind spec =
      (specVariables cx.full n kind spec).map (·.under cx.options) := by
  unfold specVariables
  rw [List.map_map]
  refine List.map_congr_left fun entry _ => ?_
  simp only [Function.comp, VariableDecl.under, Options.docOf_or, ← Context.doc_under]
  rfl

theorem variablesOf_under :
    variablesOf cx n = (variablesOf cx.full n).map (·.under cx.options) :=
  flatMap_under (specVariables_under cx n _) _

theorem import_full : import? cx.full = import? cx := by
  funext n
  unfold import?
  rw [Context.fieldText_full, Context.location_full]

theorem obeys : rules.Obeys where
  functions cx _ := filterMap_under (functionOf_under cx) _
  classes := classes_under
  interfaces cx _ := filterMap_under (interface_under cx) _
  typeAliases cx _ := filterMap_under (typeAlias_under cx) _
  bindings cx _ := flatMap_under (variablesOf_under cx) _
  imports cx _ := by
    simp only [rules]
    rw [import_full]
  exports _ _ := rfl

end Under

section Located

variable {cx : Context} {n k root : Node}

theorem typeSpecs_sublist (root : Node) (kinds : List String) :
    (typeSpecs root kinds).Sublist root.preorder :=
  Node.collectBelow_parts
    (fun decl => List.filter_sublist.trans (Node.namedChildren_sublist decl)) root

theorem specs_sublist (root : Node) (targets wrappers kinds : List String) :
    ((root.moduleLevel targets wrappers).flatMap fun decl =>
      decl.descendantsOfKind kinds []).Sublist root.preorder :=
  Node.collectBelow_parts (fun decl => Node.collectBelow_sublist _ decl) root

theorem functionOf_located {f : FunctionDecl} (found : functionOf cx n = some f) :
    f.location = cx.location n := by
  obtain ⟨name, _, rfl⟩ := Option.map_eq_some_iff.mp found
  rfl

theorem functionOf_built {f : FunctionDecl} (found : functionOf cx n = some f) :
    f.BuiltFrom cx n [] :=
  Context.function_read (Node.around_self n) found

theorem methodOf_built {m : MethodDecl} (found : methodOf cx n = some m) :
    m.function.BuiltFrom cx n [] := by
  obtain ⟨f, read, rfl⟩ := Option.map_eq_some_iff.mp found
  exact functionOf_built read

theorem methodOf_located {m : MethodDecl} (found : methodOf cx n = some m) :
    m.function.location = cx.location n := by
  obtain ⟨f, read, rfl⟩ := Option.map_eq_some_iff.mp found
  exact functionOf_located read

theorem fieldProperties_located : ∀ p ∈ fieldProperties cx n, p.location = cx.location n := by
  intro p member
  unfold fieldProperties at member
  simp only at member
  split at member
  · split at member
    · rw [List.mem_singleton.mp member]
      rfl
    · cases member
  · obtain ⟨name, _, rfl⟩ := List.mem_map.mp member
    rfl

theorem structClass_located (cx : Context) (n : Node) (name : String) :
    (structClass cx n name).Located (cx.DeclaredBy n.preorder) (cx.Spanned n) := by
  refine ⟨Context.spanned_self cx n, ?_, ?_, ?_⟩
  · simp [structClass]
  · intro p member
    obtain ⟨field, declared, member⟩ := List.mem_flatMap.mp member
    rw [fieldProperties_located p member]
    refine Context.spanned_below (Node.partChild_below ?_ (List.mem_filter.mp declared).1)
    intro list found
    obtain ⟨type, typed, list⟩ := Option.bind_eq_some_iff.mp found
    exact Node.preorder_trans (Node.field_below typed)
      (Node.namedChild_below (List.mem_of_find?_eq_some list))
  · simp [structClass]

def extension (owner : String) (m : MethodDecl) : ClassDecl where
  name := owner
  kind := .extension
  methods := [m]
  location := m.function.location
  modifiers := exportModifiers owner

theorem attach_attaches (classes : List ClassDecl) (owner : String) (m : MethodDecl) :
    Rules.Attaches owner (fun c => { c with methods := c.methods ++ [m] }) (extension owner m)
      classes (attach classes owner m) := by
  induction classes with
  | nil => exact .new
  | cons c rest ih =>
    unfold attach
    split
    · next own => exact .owner (beq_iff_eq.mp own)
    · next other => exact .past (fun own => other (beq_iff_eq.mpr own)) ih

theorem attach_located {F : FunctionDecl → Prop} {P : Location → Prop}
    {classes : List ClassDecl} {owner : String} {m : MethodDecl}
    (located : ∀ c ∈ classes, c.Located F P) (declared : F m.function)
    (place : P m.function.location) : ∀ c ∈ attach classes owner m, c.Located F P :=
  (attach_attaches classes owner m).forall located (fun _ => id)
    (fun _ here => ⟨here.place, here.members.addMethod declared⟩)
    ⟨place, Members.empty_located.addMethod declared⟩

-- Methods stand by themselves, and those of an interface in its specification.
def sites : Rules.Sites :=
  { Rules.Sites.module .go with
    homes := fun _ root =>
      typeSpecs root ["type_spec"] ++ root.moduleLevel NodeKinds.go.methods [] }

theorem classes_located : ∀ c ∈ classes cx root,
    c.Located (cx.Homed (sites.homes cx root)) (cx.Placed root) := by
  refine List.foldlRecOn (motive := fun found : List ClassDecl => ∀ c ∈ found,
    c.Located (cx.Homed (sites.homes cx root)) (cx.Placed root)) _ _ ?_ ?_
  · refine Rules.classes_located
      (fun _ member => List.mem_append_left _ (List.mem_filter.mp member).1)
      (fun _ member => (typeSpecs_sublist root _).subset (List.mem_filter.mp member).1)
      fun found => ?_
    obtain ⟨name, _, rfl⟩ := Option.map_eq_some_iff.mp found
    exact structClass_located cx _ name
  · intro found located decl member
    cases method : methodOf cx decl with
    | none => exact located
    | some m =>
      cases receiverType? cx decl with
      | none => exact located
      | some owner =>
        have own := Node.self_mem_preorder decl
        have declared := Context.declared_below own (methodOf_built method)
        refine attach_located located ⟨decl, List.mem_append_right _ member, declared⟩ fun _ => ?_
        exact methodOf_located method ▸ Context.spanned_below (Node.collected_below member)

theorem interface_located {i : InterfaceDecl} (found : interface? cx n = some i) :
    i.Located (cx.DeclaredBy n.preorder) (cx.Spanned n) := by
  obtain ⟨name, _, found⟩ := Option.bind_eq_some_iff.mp found
  obtain ⟨body, typed, same⟩ := Option.bind_eq_some_iff.mp found
  cases same
  refine ⟨Context.spanned_self cx n, ?_, by simp, by simp⟩
  intro m member
  obtain ⟨element, child, read⟩ := List.mem_filterMap.mp member
  have below := Node.namedChild_below (List.mem_filter.mp child).1
  exact Context.declared_below (Node.preorder_trans (Node.field_below typed) below)
    (methodOf_built read)

theorem interface_location {i : InterfaceDecl} (found : interface? cx n = some i) :
    i.location = cx.location n := by
  obtain ⟨name, _, found⟩ := Option.bind_eq_some_iff.mp found
  obtain ⟨body, _, same⟩ := Option.bind_eq_some_iff.mp found
  cases same
  rfl

theorem specVariables_located {decl : Node} {kind : VariableKind} {v : VariableDecl}
    (member : v ∈ specVariables cx decl kind n) : v.location = cx.location n := by
  obtain ⟨name, _, rfl⟩ := List.mem_map.mp member
  rfl

theorem variablesOf_located {v : VariableDecl} (member : v ∈ variablesOf cx n) :
    cx.Spanned n v.location := by
  obtain ⟨spec, below, member⟩ := List.mem_flatMap.mp member
  exact specVariables_located member ▸ Context.spanned_below (Node.collected_below below)

theorem import_located {i : ImportDecl} (found : import? cx n = some i) :
    i.location = cx.location n :=
  Context.location_map (fun _ => rfl) found

theorem locates : rules.Locates sites where
  functions := Rules.module_functions .go functionOf_built
  classes := classes_located
  interfaces := Rules.interfaces_located
    (fun _ member => List.mem_append_left _ (List.mem_filter.mp member).1)
    (fun _ member => (typeSpecs_sublist _ _).subset (List.mem_filter.mp member).1)
    interface_located
  typeAliases _ := Rules.spanned_filterMap
    (fun _ member => (typeSpecs_sublist _ _).subset (List.mem_filter.mp member).1)
    (Context.location_map fun _ => rfl)
  bindings _ v member := by
    obtain ⟨decl, found, member⟩ := List.mem_flatMap.mp member
    exact (variablesOf_located member).up (Node.collected_below found)
  imports _ i member := by
    obtain ⟨decl, found, member⟩ := List.mem_flatMap.mp member
    obtain ⟨spec, inside, read⟩ := List.mem_filterMap.mp member
    have below := Node.preorder_trans (Node.collected_below found) (Node.collected_below inside)
    exact import_located read ▸ Context.spanned_below below
  exports _ := List.forall_mem_nil _

theorem separates : rules.Separates sites where
  inOrder := Node.collectBelow_descends _ _
  reached := Rules.module_reached (by decide)
  homes h home := by
    rcases List.mem_append.mp home with spec | method
    · obtain ⟨decl, declared, child⟩ := List.mem_flatMap.mp spec
      have below := Node.namedChild_below (List.mem_filter.mp child).1
      have inside := Node.descendant_sublist (Node.collected_descends declared)
      exact ⟨inside.subset below, List.not_mem_nil⟩
    · exact ⟨Node.collected_descends method, List.not_mem_nil⟩
  apart n site home := by
    have function : n.kind ∈ NodeKinds.go.functions := (Node.moduleLevel_reached site).2
    rcases List.mem_append.mp home with spec | method
    · obtain ⟨decl, _, child⟩ := List.mem_flatMap.mp spec
      have spec := List.contains_iff_mem.mp (List.mem_filter.mp child).2
      exact absurd spec ((by decide : ∀ k ∈ NodeKinds.go.functions, k ∉ ["type_spec"]) _ function)
    · have method : n.kind ∈ NodeKinds.go.methods := (Node.moduleLevel_reached method).2
      exact (by decide : ∀ k ∈ NodeKinds.go.functions, k ∉ NodeKinds.go.methods) _ function method

theorem orders : rules.Orders where
  functions placed _ :=
    Rules.inOrder_filterMap placed (Node.moduleLevel_sublist _ _ _) functionOf_located
  interfaces placed := Rules.inOrder_filterMap placed
    (List.filter_sublist.trans (typeSpecs_sublist _ _)) interface_location
  typeAliases placed := Rules.inOrder_filterMap placed
    (List.filter_sublist.trans (typeSpecs_sublist _ _)) (Context.location_map fun _ => rfl)
  bindings placed := Rules.inOrder_parts placed (specs_sublist _ _ _ _) specVariables_located
  imports placed := by
    simp only [rules]
    rw [← List.filterMap_flatMap]
    exact Rules.inOrder_filterMap placed (specs_sublist _ _ _ _) import_located
  exports _ := .nil

def methodHead (cx : Context) (decl : Node) : ClassHead :=
  ⟨(receiverType? cx decl).getD "", .extension, (cx.location decl).opening⟩

theorem classes_run : rules.AppendsExtensions := fun {cx root} placed _ => by
  refine Rules.foldl_runs (methodHead cx) (fun found decl => ?_) ?_ ?_ ?_ fun _ => rfl
  · split
    · next m owner method owned =>
      have head : methodHead cx decl = (extension owner m).head := by
        rw [methodHead, owned, Option.getD_some, ← methodOf_located method]
        rfl
      exact head ▸ (attach_attaches found owner m).appends (fun _ => rfl) rfl
    · exact Rules.appends_self _ found
  · exact Rules.inOrder_filterMap placed (List.filter_sublist.trans (typeSpecs_sublist _ _))
      (Context.location_map fun _ => rfl)
  · refine (placed.preorder_starts.sublist (Node.moduleLevel_sublist root _ _)).imp ?_
    exact cx.opening_mono
  · intro c declared
    obtain ⟨spec, _, found⟩ := List.mem_filterMap.mp declared
    obtain ⟨name, _, rfl⟩ := Option.map_eq_some_iff.mp found
    exact (by decide : ClassKind.struct ≠ .extension)

end Located

section Named

variable {cx : Context} {n : Node}

def bareBindings (cx : Context) (n : Node) : List String :=
  (n.descendantsOfKind ["var_spec", "const_spec"] []).flatMap fun spec =>
    ((spec.childrenByField "name").map cx.text).filter (· != "_")

def bareNames : Rules.BareNames where
  bindings cx root :=
    (root.moduleLevel NodeKinds.go.bindings NodeKinds.go.wrappers).flatMap (bareBindings cx)

theorem variablesOf_names : (variablesOf cx n).map (·.name) = bareBindings cx n := by
  unfold variablesOf bareBindings
  rw [List.map_flatMap]
  refine congrArg (List.flatMap · _) (funext fun spec => ?_)
  have named (names : List String) :
      (names.zipIdx.filter (·.1 != "_")).map (·.1) = names.filter (· != "_") := by
    conv => rhs; rw [← List.zipIdx_map_fst 0 names, List.filter_map]
    rfl
  simp only [specVariables, List.map_map]
  exact named _

theorem receiverType_filled {s : String} (found : receiverType? cx n = some s) : s ≠ "" := by
  obtain ⟨receiver, _, found⟩ := Option.bind_eq_some_iff.mp found
  obtain ⟨param, _, found⟩ := Option.bind_eq_some_iff.mp found
  obtain ⟨type, _, found⟩ := Option.bind_eq_some_iff.mp found
  simp only at found
  split at found <;> split at found <;> simp_all

theorem attach_filled {classes : List ClassDecl} {owner : String} {m : MethodDecl}
    (owned : owner ≠ "") (filled : ∀ c ∈ classes, c.name ≠ "") :
    ∀ c ∈ attach classes owner m, c.name ≠ "" :=
  (attach_attaches classes owner m).forall filled (fun _ => id) (fun _ => id) owned

theorem classes_filled {root : Node} : ∀ c ∈ classes cx root, c.name ≠ "" := by
  refine List.foldlRecOn (motive := fun found : List ClassDecl => ∀ c ∈ found, c.name ≠ "")
    _ _ ?_ ?_
  · intro c member
    obtain ⟨spec, _, found⟩ := List.mem_filterMap.mp member
    exact Rules.named_map (fun _ => rfl) found
  · intro found filled decl _
    cases methodOf cx decl with
    | none => exact filled
    | some m =>
      cases owned : receiverType? cx decl with
      | none => exact filled
      | some owner => exact attach_filled (receiverType_filled owned) filled

theorem interface_filled {i : InterfaceDecl} (found : interface? cx n = some i) : i.name ≠ "" := by
  obtain ⟨name, named, found⟩ := Option.bind_eq_some_iff.mp found
  obtain ⟨body, _, same⟩ := Option.bind_eq_some_iff.mp found
  cases same
  exact Context.name_filled named

theorem names : rules.Names bareNames where
  functions _ _ := Rules.filled_filterMap (Rules.named_map fun _ => rfl)
  classes _ _ := Rules.filled_all classes_filled
  interfaces _ _ := Rules.filled_filterMap interface_filled
  typeAliases _ _ := Rules.filled_filterMap (Rules.named_map fun _ => rfl)
  bindings _ _ := Rules.bare_flatMap fun _ => by rw [variablesOf_names]

end Named

section Declared

variable {cx : Context} {n : Node}

theorem attach_extends (classes : List ClassDecl) (owner : String) (m : MethodDecl) :
    Rules.Extends (attach classes owner m) classes :=
  (attach_attaches classes owner m).extends (fun _ => rfl) ⟨rfl, m, List.mem_singleton_self m, rfl⟩

def typeSites (cx : Context) (root : Node) : Rules.TypeSites where
  classes := Rules.itself (fun spec => ((cx.name? spec).map (structClass cx spec)).toList)
    ((typeSpecs root ["type_spec"]).filter isStruct)
  interfaces := Rules.itself (fun spec => (interface? cx spec).toList)
    ((typeSpecs root ["type_spec"]).filter isInterface)
  typeAliases := Rules.itself (fun spec => (typeAlias? cx spec).toList)
    ((typeSpecs root ["type_spec", "type_alias"]).filter fun spec =>
      !isStruct spec && !isInterface spec)

theorem struct_not_interface (struct : isStruct n) : ¬ isInterface n := by
  intro interface
  have same := (eq_of_beq struct).symm.trans (eq_of_beq interface)
  exact absurd same (by decide)

theorem types_declared (cx : Context) (root : Node) :
    (typeSites cx root).Declares cx (rules.classes cx root) (rules.interfaces cx root)
      (rules.typeAliases cx root) where
  classes := by
    refine ⟨_, Rules.foldl_extends (fun found decl => ?_) _ _,
      Rules.itself_options fun _ _ _ => Context.location_map fun _ => rfl⟩
    split
    · exact attach_extends found _ _
    · exact Rules.extends_refl found
  interfaces := Rules.itself_options fun _ _ _ => interface_location
  typeAliases := Rules.itself_options fun _ _ _ => Context.location_map fun _ => rfl
  noClassInterface := Rules.itself_disjoint fun struct interface _ _ =>
    struct_not_interface (List.mem_filter.mp struct).2 (List.mem_filter.mp interface).2
  noClassAlias := Rules.itself_disjoint fun struct other _ _ => by
    have neither := (List.mem_filter.mp other).2
    rw [(List.mem_filter.mp struct).2] at neither
    cases neither
  noInterfaceAlias := Rules.itself_disjoint fun interface other _ _ => by
    have neither := (List.mem_filter.mp other).2
    rw [(List.mem_filter.mp interface).2, Bool.not_true, Bool.and_false] at neither
    cases neither

end Declared

end CodeEntities.Go
