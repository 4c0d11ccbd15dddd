import CodeEntities.Proofs.Rules.Declarations
import CodeEntities.Rules.TypeScript
import Mathlib.Tactic.SplitIfs

namespace CodeEntities.TypeScript

section Under

variable (cx : Context) (n : Node)

@[simp]
theorem declarationModifiers_full : declarationModifiers cx.full = declarationModifiers cx := rfl

@[simp]
theorem variableKind_full : variableKind cx.full = variableKind cx := rfl

@[simp]
theorem requiredModule_full : requiredModule? cx.full = requiredModule? cx := rfl

@[simp]
theorem boundNames_full : boundNames cx.full = boundNames cx := rfl

@[simp]
theorem addHeritage_full : addHeritage cx.full = addHeritage cx := rfl

@[simp]
theorem clauseSpecifiers_full : clauseSpecifiers cx.full = clauseSpecifiers cx := rfl

theorem promoted_under (declarator value : Node) :
    promoted? cx n declarator value =
      (promoted? cx.full n declarator value).map (·.under cx.options) := by
  unfold promoted?
  rw [Option.map_map, Context.callable_full, Context.text_full, Context.parameter_full,
    declarationModifiers_full, variableKind_full]
  exact Option.map_congr fun name _ => Context.function_under cx n (cx.text name) _

theorem functionOf_under : functionOf cx n = (functionOf cx.full n).map (·.under cx.options) := by
  unfold functionOf
  rw [Option.map_map, Context.callable_full, declarationModifiers_full]
  exact Option.map_congr fun name _ => Context.function_under cx n name _

theorem functionsOf_under :
    functionsOf cx n = (functionsOf cx.full n).map (·.under cx.options) := by
  unfold functionsOf
  split_ifs
  · refine filterMap_under (fun d => ?_) _
    rw [Option.map_bind]
    exact congrArg _ (funext (promoted_under cx n d))
  · rw [functionOf_under, Option.toList_map]

theorem method_under : method? cx n = (method? cx.full n).map (·.under cx.options) := by
  unfold method?
  rw [Option.map_map, Context.callable_full]
  refine Option.map_congr fun name _ => ?_
  simp only [Function.comp]
  rw [Context.method_under]
  rfl

theorem field_under : field? cx n = (field? cx.full n).map (·.under cx.options) := by
  unfold field?
  rw [Option.map_bind, Context.text_full, Context.fieldText_full]
  refine congrArg _ (funext fun nameNode => ?_)
  simp only [Function.comp]
  rw [Option.map_map]
  rfl

theorem enumMember_under : enumMember? cx n = (enumMember? cx.full n).map (·.under cx.options) := by
  unfold enumMember?
  rw [Context.fieldText_full, Context.text_full]
  simp only
  rw [Option.map_map]
  rfl

theorem parameterProperties_under :
    parameterProperties cx n = (parameterProperties cx.full n).map (·.under cx.options) := by
  unfold parameterProperties
  rw [Context.parameter_full]
  cases Context.parameterList? n with
  | none => rfl
  | some list =>
    refine filterMap_under (fun p => ?_) _
    rw [Option.map_map]
    rfl

theorem functionField_under (value : Node) :
    functionField? cx n value = (functionField? cx.full n value).map (·.under cx.options) := by
  unfold functionField?
  rw [field_under, Option.map_map, Option.map_map, Context.callable_full, Context.modifiers_full]
  exact Option.map_congr fun property _ => Context.method_under cx n property.name _ _

theorem addMember_under (members : Members) :
    addMember cx (members.under cx.options) n =
      (addMember cx.full members n).under cx.options := by
  unfold addMember
  rw [method_under cx, parameterProperties_under, field_under]
  split_ifs
  · cases method? cx.full n with
    | none => rfl
    | some m =>
      have name : (m.under cx.options).name = m.name := rfl
      simp only [Option.map_some, name]
      split_ifs
      · simp only [Members.under, List.map_append, Option.map_or]
        rfl
      · exact Members.under_addMethod m
  · cases (n.field? "value").filter isFunctionValue with
    | none =>
      simp only
      rw [Option.toList_map]
      exact Members.under_addProperties _
    | some value =>
      simp only
      rw [functionField_under]
      cases functionField? cx.full n value with
      | none => rfl
      | some m => exact Members.under_addMethod m
  · rfl

theorem enumClass_under (name : String) :
    enumClass cx n name = (enumClass cx.full n name).under cx.options := by
  unfold enumClass
  rw [filterMap_under (enumMember_under cx)]
  rfl

theorem plainClass_under (name : String) :
    plainClass cx n name = (plainClass cx.full n name).under cx.options := by
  have members := Members.foldl_under (fun m k => addMember_under cx k m) (bodyNodes n)
  unfold plainClass
  rw [members, addHeritage_full, declarationModifiers_full]
  rfl

theorem classOf_under : classOf cx n = (classOf cx.full n).map (·.under cx.options) := by
  unfold classOf
  rw [Option.map_map]
  refine Option.map_congr fun name _ => ?_
  simp only [Function.comp]
  split_ifs
  · exact enumClass_under cx n name
  · exact plainClass_under cx n name

theorem interfaceOf_under :
    interfaceOf cx n = (interfaceOf cx.full n).map (·.under cx.options) := by
  unfold interfaceOf
  rw [Option.map_map]
  refine Option.map_congr fun name _ => ?_
  have properties (k : Node) :
      ((field? cx k).map fun p => { p with isReadonly := k.hasToken "readonly" }) =
        ((field? cx.full k).map fun p => { p with isReadonly := k.hasToken "readonly" }).map
          (·.under cx.options) := by
    rw [field_under, Option.map_map, Option.map_map]
    rfl
  simp only [Function.comp]
  rw [filterMap_under properties, filterMap_under (method_under cx)]
  rfl

theorem typeAliasOf_under :
    typeAliasOf cx n = (typeAliasOf cx.full n).map (·.under cx.options) := by
  unfold typeAliasOf
  rw [Option.map_map]
  rfl

theorem variablesOf_under :
    variablesOf cx n = (variablesOf cx.full n).map (·.under cx.options) := by
  unfold variablesOf
  rw [requiredModule_full, variableKind_full, boundNames_full]
  refine flatMap_under (fun d => ?_) _
  rw [List.map_map]
  rfl

@[simp]
theorem requireImport_full : requireImport? cx.full = requireImport? cx := by
  funext n declarator
  unfold requireImport?
  rw [requiredModule_full, Context.text_full, boundNames_full, Context.location_full]

theorem importsOf_full : importsOf cx.full = importsOf cx := by
  funext n
  unfold importsOf
  rw [requireImport_full, Context.text_full, clauseSpecifiers_full, Context.location_full]

theorem exportsOf_full : exportsOf cx.full = exportsOf cx := by
  funext n
  unfold exportsOf
  rw [Context.text_full, Context.location_full, Context.name_full, boundNames_full,
    Context.fieldText_full]

theorem obeys : rules.Obeys where
  functions cx _ := flatMap_under (functionsOf_under cx) _
  classes cx _ := filterMap_under (classOf_under cx) _
  interfaces cx _ := filterMap_under (interfaceOf_under cx) _
  typeAliases cx _ := filterMap_under (typeAliasOf_under cx) _
  bindings cx _ := flatMap_under (variablesOf_under cx) _
  imports cx _ := Rules.imports_full (importsOf_full cx) _
  exports cx _ := by
    simp only [rules]
    rw [exportsOf_full]

end Under

section Located

variable {cx : Context} {n k root : Node} {P : Location → Prop}

theorem functionsOf_located {f : FunctionDecl} (member : f ∈ functionsOf cx n) :
    f.location = cx.location n := by
  unfold functionsOf at member
  split at member
  · obtain ⟨d, _, found⟩ := List.mem_filterMap.mp member
    obtain ⟨value, _, found⟩ := Option.bind_eq_some_iff.mp found
    obtain ⟨name, _, rfl⟩ := Option.map_eq_some_iff.mp found
    rfl
  · obtain ⟨name, _, rfl⟩ := Option.map_eq_some_iff.mp (Option.mem_toList.mp member)
    rfl

theorem functionsOf_built {f : FunctionDecl} (member : f ∈ functionsOf cx n) :
    f.BuiltFrom cx n [] := by
  unfold functionsOf at member
  split at member
  · obtain ⟨d, _, found⟩ := List.mem_filterMap.mp member
    obtain ⟨value, _, found⟩ := Option.bind_eq_some_iff.mp found
    obtain ⟨name, _, rfl⟩ := Option.map_eq_some_iff.mp found
    exact Context.function_built (Node.around_self n) (cx.text name) _
  · obtain ⟨name, _, rfl⟩ := Option.map_eq_some_iff.mp (Option.mem_toList.mp member)
    exact Context.function_built (Node.around_self n) name _

theorem method_built {m : MethodDecl} (found : method? cx n = some m) :
    m.function.BuiltFrom cx n [] := by
  obtain ⟨name, _, rfl⟩ := Option.map_eq_some_iff.mp found
  exact Context.function_built (Node.around_self n) name _

theorem field_located {p : PropertyDecl} (found : field? cx n = some p) :
    p.location = cx.location n := by
  obtain ⟨nameNode, _, found⟩ := Option.bind_eq_some_iff.mp found
  obtain ⟨name, _, rfl⟩ := Option.map_eq_some_iff.mp found
  rfl

theorem enumMember_located {p : PropertyDecl} (found : enumMember? cx n = some p) :
    p.location = cx.location n := by
  obtain ⟨entry, _, rfl⟩ := Option.map_eq_some_iff.mp found
  rfl

theorem parameterProperties_located :
    ∀ p ∈ parameterProperties cx n, cx.Spanned n p.location := by
  intro p member
  unfold parameterProperties at member
  split at member
  · cases member
  · rename_i list found
    obtain ⟨parameter, declares, read⟩ := List.mem_filterMap.mp member
    obtain ⟨first, _, rfl⟩ := Option.map_eq_some_iff.mp read
    exact Context.spanned_below (Node.preorder_trans (Context.parameterList_below found)
      (Node.namedChild_below (List.mem_filter.mp declares).1))

theorem functionField_built {m : MethodDecl} {value : Node}
    (found : functionField? cx n value = some m) : m.function.BuiltFrom cx n [] := by
  obtain ⟨property, _, rfl⟩ := Option.map_eq_some_iff.mp found
  exact Context.function_built (Node.around_self n) property.name _

theorem bodyNodes_below (member : k ∈ bodyNodes n) : k ∈ n.preorder :=
  Node.bodyChild_below member

theorem addMember_located {members : Members} (below : k ∈ n.preorder)
    (located : members.Located (cx.DeclaredBy n.preorder) (cx.Spanned n)) :
    (addMember cx members k).Located (cx.DeclaredBy n.preorder) (cx.Spanned n) := by
  have here : cx.Spanned n (cx.location k) := Context.spanned_below below
  unfold addMember
  split
  · split
    · exact located
    · rename_i m found
      have declared := Context.declared_below below (method_built found)
      split
      · refine ⟨located.methods, ?_, ?_⟩
        · exact List.forall_mem_append.mpr
            ⟨located.properties, fun p member => (parameterProperties_located p member).up below⟩
        · intro x slot
          rcases Option.or_eq_some_iff.mp slot with first | ⟨_, new⟩
          · exact located.constructor x first
          · cases new
            exact declared
      · exact located.addMethod declared
  · split
    · split
      · split
        · rename_i m found
          exact located.addMethod (Context.declared_below below (functionField_built found))
        · exact located
      · refine located.addProperties fun p member => ?_
        exact field_located (Option.mem_toList.mp member) ▸ here
    · exact located

theorem classOf_located {c : ClassDecl} (found : classOf cx n = some c) :
    c.Located (cx.DeclaredBy n.preorder) (cx.Spanned n) := by
  obtain ⟨name, _, rfl⟩ := Option.map_eq_some_iff.mp found
  split
  · refine ⟨Context.spanned_self cx n, by simp [enumClass], ?_, by simp [enumClass]⟩
    intro p member
    obtain ⟨k, child, read⟩ := List.mem_filterMap.mp member
    exact enumMember_located read ▸ Context.spanned_below (bodyNodes_below child)
  · refine ⟨Context.spanned_self cx n, ?_⟩
    exact Members.foldl_located
      (fun members k child before => addMember_located (bodyNodes_below child) before)
      Members.empty_located

theorem interfaceOf_located {i : InterfaceDecl} (found : interfaceOf cx n = some i) :
    i.Located (cx.DeclaredBy n.preorder) (cx.Spanned n) := by
  obtain ⟨name, _, rfl⟩ := Option.map_eq_some_iff.mp found
  refine ⟨Context.spanned_self cx n, ?_, ?_, by simp⟩
  · intro m member
    obtain ⟨k, child, read⟩ := List.mem_filterMap.mp member
    have below := bodyNodes_below (List.mem_filter.mp child).1
    exact Context.declared_below below (method_built read)
  · intro p member
    obtain ⟨k, child, found⟩ := List.mem_filterMap.mp member
    obtain ⟨q, read, rfl⟩ := Option.map_eq_some_iff.mp found
    have place : q.location = cx.location k := field_located read
    have below := bodyNodes_below (List.mem_filter.mp child).1
    exact place ▸ Context.spanned_below below

theorem variablesOf_located {v : VariableDecl} (member : v ∈ variablesOf cx n) :
    v.location = cx.location n := by
  obtain ⟨d, _, member⟩ := List.mem_flatMap.mp member
  obtain ⟨name, _, rfl⟩ := List.mem_map.mp member
  rfl

theorem importsOf_located {i : ImportDecl} (member : i ∈ importsOf cx n) :
    i.location = cx.location n := by
  unfold importsOf at member
  split at member
  · split at member
    · cases member
    · rw [List.mem_singleton.mp member]
  · obtain ⟨d, _, found⟩ := List.mem_filterMap.mp member
    obtain ⟨source, _, found⟩ := Option.bind_eq_some_iff.mp found
    obtain ⟨name, _, same⟩ := Option.bind_eq_some_iff.mp found
    cases same
    rfl

theorem exportsOf_located {e : ExportDecl} (member : e ∈ exportsOf cx n) :
    e.location = cx.location n := by
  unfold exportsOf at member
  simp only at member
  split at member
  · rw [List.mem_singleton.mp member]
  · split at member
    · obtain ⟨name, _, rfl⟩ := List.mem_map.mp member
      rfl
    · split at member
      · obtain ⟨s, _, read⟩ := List.mem_filterMap.mp member
        obtain ⟨localName, _, rfl⟩ := Option.map_eq_some_iff.mp read
        split
        · rfl
        · rfl
      · split at member
        · rw [List.mem_singleton.mp member]
        · rw [List.mem_ite_nil_right, List.mem_singleton] at member
          rw [member.2]

theorem locates : rules.Locates (.module .typescript) where
  functions f member := by
    obtain ⟨n, found, result⟩ := List.mem_flatMap.mp member
    exact Context.declared_below found (functionsOf_built result)
  classes := Rules.module_classes .typescript classOf_located
  interfaces := Rules.module_interfaces .typescript interfaceOf_located
  typeAliases _ := Rules.spanned_filterMap (fun _ => Node.collected_below)
    (Context.location_map fun _ => rfl)
  bindings _ := Rules.spanned_flatMap (fun _ => Node.collected_below) variablesOf_located
  imports _ := Rules.spanned_flatMap (fun _ => Node.collected_below) importsOf_located
  exports _ := Rules.spanned_flatMap (fun _ => Node.collected_below) exportsOf_located

theorem orders : rules.Orders where
  functions placed _ := Rules.inOrder_flatMap placed (Node.moduleLevel_sublist _ _ _)
    functionsOf_located
  interfaces placed := Rules.inOrder_filterMap placed (Node.moduleLevel_sublist _ _ _)
    (Context.location_map fun _ => rfl)
  typeAliases placed := Rules.inOrder_filterMap placed (Node.moduleLevel_sublist _ _ _)
    (Context.location_map fun _ => rfl)
  bindings placed := Rules.inOrder_flatMap placed (Node.moduleLevel_sublist _ _ _)
    variablesOf_located
  imports placed := Rules.inOrder_flatMap placed (Node.moduleLevel_sublist _ _ _) importsOf_located
  exports placed := Rules.inOrder_flatMap placed (Node.moduleLevel_sublist _ _ _) exportsOf_located

theorem classOf_location {c : ClassDecl} (found : classOf cx n = some c) :
    c.location = cx.location n := by
  refine Context.location_map (fun name => ?_) found
  split
  · rfl
  · rfl

theorem classes_inOrder : rules.OrdersClasses := fun placed _ =>
  Rules.inOrder_filterMap placed (Node.moduleLevel_sublist _ _ _) classOf_location

end Located

section Named

variable {cx : Context} {n : Node}

def promotedName? (cx : Context) (declarator : Node) : Option String :=
  if (declarator.field? "value").any isFunctionValue then
    ((declarator.field? "name").filter (·.kind == "identifier")).map cx.text
  else none

def bareFunctions (cx : Context) (n : Node) : List String :=
  if isBindingList n then (declarators n).filterMap (promotedName? cx) else []

def bareBindings (cx : Context) (n : Node) : List String :=
  ((declarators n).filter fun d => !(d.field? "value").any fun v =>
    isFunctionValue v || (requiredModule? cx v).isSome).flatMap (boundNames cx)

def bareNames : Rules.BareNames where
  functions cx root :=
    (root.moduleLevel NodeKinds.typescript.functions NodeKinds.typescript.wrappers).flatMap
      (bareFunctions cx)
  bindings cx root :=
    (root.moduleLevel NodeKinds.typescript.bindings NodeKinds.typescript.wrappers).flatMap
      (bareBindings cx)

theorem promoted_name (d : Node) :
    (((d.field? "value").filter isFunctionValue).bind (promoted? cx n d)).map (·.name) =
      promotedName? cx d := by
  unfold promotedName?
  cases value : d.field? "value" with
  | none => rfl
  | some v =>
    by_cases callable : isFunctionValue v
    · simp only [Option.filter_some, callable, Option.any_some, if_true, Option.bind_some]
      rw [promoted?, Option.map_map]
      rfl
    · simp [callable]

theorem functionsOf_names : "" ∈ (functionsOf cx n).map (·.name) ↔ "" ∈ bareFunctions cx n := by
  unfold functionsOf bareFunctions
  split
  · simp only [List.map_filterMap, promoted_name]
  · refine Rules.filled_all fun f found => ?_
    exact Rules.named_map (fun _ => rfl) (Option.mem_toList.mp found)

theorem classOf_filled {c : ClassDecl} (found : classOf cx n = some c) : c.name ≠ "" :=
  Rules.named_map (fun name => by
    split
    · rfl
    · rfl) found

theorem variablesOf_names : (variablesOf cx n).map (·.name) = bareBindings cx n := by
  unfold variablesOf bareBindings
  simp only [List.map_flatMap, List.map_map]
  refine congrArg (List.flatMap · _) (funext fun d => ?_)
  exact List.map_id _

theorem names : rules.Names bareNames where
  functions _ _ := Rules.bare_flatMap fun _ => functionsOf_names
  classes _ _ := Rules.filled_filterMap classOf_filled
  interfaces _ _ := Rules.filled_filterMap (Rules.named_map fun _ => rfl)
  typeAliases _ _ := Rules.filled_filterMap (Rules.named_map fun _ => rfl)
  bindings _ _ := Rules.bare_flatMap fun _ => by rw [variablesOf_names]

end Named

section Declared

variable {cx : Context} {n s : Node}

-- A value that leaves its name to another list than that of the variables.
def isOther (cx : Context) (v : Node) : Bool := isFunctionValue v || (requiredModule? cx v).isSome

def functionSites (cx : Context) (n : Node) : List Node :=
  if isBindingList n then
    Rules.itself (fun d =>
      (((d.field? "value").filter isFunctionValue).bind (promoted? cx n d)).toList) (declarators n)
  else (functionOf cx n).toList.map fun _ => n

def variableSites (cx : Context) (n : Node) : List Node :=
  Rules.itself (boundNames cx)
    ((declarators n).filter fun d => !(d.field? "value").any (isOther cx))

def importSites (cx : Context) (n : Node) : List Node :=
  if n.kind == "import_statement" then (importsOf cx n).map fun _ => n
  else Rules.itself (fun d => (requireImport? cx n d).toList) (declarators n)

def bindingSites (cx : Context) (root : Node) : Rules.BindingSites where
  functions := (root.moduleLevel NodeKinds.typescript.functions
    NodeKinds.typescript.wrappers).flatMap (functionSites cx)
  bindings := (root.moduleLevel NodeKinds.typescript.bindings
    NodeKinds.typescript.wrappers).flatMap (variableSites cx)
  imports := (root.moduleLevel NodeKinds.typescript.imports
    NodeKinds.typescript.wrappers).flatMap (importSites cx)

theorem declarator_below (member : s ∈ declarators n) : s ∈ n.preorder :=
  Node.namedChild_below (List.mem_filter.mp member).1

theorem declarator_kind (member : s ∈ declarators n) : s.kind = "variable_declarator" :=
  eq_of_beq (List.mem_filter.mp member).2

theorem boundNames_spelled {name : String} (bound : name ∈ boundNames cx n) :
    Rules.Spells cx n name := by
  unfold boundNames at bound
  split at bound
  · cases bound
  · rename_i pattern named
    refine Rules.Spells.below ?_ (Node.field_below named)
    split at bound
    · rw [List.mem_singleton.mp bound]
      exact Rules.spells_text (Node.self_mem_preorder pattern)
    · obtain ⟨k, found, rfl⟩ := List.mem_map.mp bound
      exact Rules.spells_text (Node.collected_below found)

theorem functions_bound : List.Forall₂ (fun s f => Rules.Bound cx s f.location [f.name])
    (functionSites cx n) (functionsOf cx n) := by
  unfold functionSites functionsOf
  split
  · refine Rules.itself_options fun d declarator f read => ?_
    obtain ⟨_, _, found⟩ := Option.bind_eq_some_iff.mp read
    obtain ⟨name, named, rfl⟩ := Option.map_eq_some_iff.mp found
    have below := Node.field_below (Option.filter_eq_some_iff.mp named).1
    exact ⟨⟨n, declarator_below declarator, rfl⟩,
      List.forall_mem_singleton.mpr (Rules.spells_text below)⟩
  · refine Rules.matched_self fun f found => ?_
    obtain ⟨name, named, rfl⟩ := Option.map_eq_some_iff.mp (Option.mem_toList.mp found)
    exact ⟨⟨n, Node.self_mem_preorder n, rfl⟩,
      List.forall_mem_singleton.mpr (Rules.spells_name named)⟩

theorem variables_bound : List.Forall₂ (fun s v => Rules.Bound cx s v.location [v.name])
    (variableSites cx n) (variablesOf cx n) :=
  Rules.itself_mapped fun _ declarator _ bound =>
    ⟨⟨n, declarator_below (List.mem_filter.mp declarator).1, rfl⟩,
      List.forall_mem_singleton.mpr (boundNames_spelled bound)⟩

theorem clauseSpecifiers_spelled {spec : ImportSpecifier} (member : spec ∈ clauseSpecifiers cx n) :
    Rules.Spells cx n spec.localName := by
  unfold clauseSpecifiers at member
  split at member
  · rw [List.mem_singleton.mp member]
    exact Rules.spells_text (Node.self_mem_preorder n)
  · split at member
    · split at member
      · rename_i name first
        rw [List.mem_singleton.mp member]
        exact Rules.spells_text (Node.namedChild_below (List.mem_of_head? first))
      · cases member
    · split at member
      · obtain ⟨s, named, read⟩ := List.mem_filterMap.mp member
        obtain ⟨imported, found, rfl⟩ := Option.map_eq_some_iff.mp read
        refine Rules.Spells.below ?_ (Node.namedChild_below (List.mem_filter.mp named).1)
        cases renamed : cx.fieldText? s "alias" with
        | none => exact Rules.spells_field found
        | some other => exact Rules.spells_field renamed
      · cases member

theorem importStatement_spelled (statement : n.kind == "import_statement") {i : ImportDecl}
    (member : i ∈ importsOf cx n) : ∀ name ∈ i.specifiers.map (·.localName),
      Rules.Spells cx n name := by
  intro name bound
  rw [importsOf, if_pos statement] at member
  split at member
  · cases member
  · rw [List.mem_singleton.mp member] at bound
    obtain ⟨spec, listed, rfl⟩ := List.mem_map.mp bound
    obtain ⟨part, inClause, read⟩ := List.mem_flatMap.mp listed
    exact (clauseSpecifiers_spelled read).below
      (Node.partChild_below (fun _ => Node.childOfKind_below) inClause)

theorem requireImport_spelled {d : Node} {i : ImportDecl} (read : requireImport? cx n d = some i) :
    ∀ name ∈ i.specifiers.map (·.localName), Rules.Spells cx d name := by
  intro name member
  obtain ⟨source, _, read⟩ := Option.bind_eq_some_iff.mp read
  obtain ⟨pattern, named, read⟩ := Option.bind_eq_some_iff.mp read
  cases read
  obtain ⟨spec, listed, rfl⟩ := List.mem_map.mp member
  simp only at listed
  split at listed
  · rw [List.mem_singleton.mp listed]
    exact Rules.spells_text (Node.field_below named)
  · obtain ⟨name, bound, rfl⟩ := List.mem_map.mp listed
    exact boundNames_spelled bound

theorem imports_bound : List.Forall₂
    (fun s i => Rules.Bound cx s i.location (i.specifiers.map (·.localName)))
    (importSites cx n) (importsOf cx n) := by
  unfold importSites
  split
  · exact Rules.matched_self fun i member => ⟨⟨n, Node.self_mem_preorder n,
      importsOf_located member⟩, importStatement_spelled ‹_› member⟩
  · rename_i other
    have all : importsOf cx n = (declarators n).filterMap (requireImport? cx n) := by
      rw [importsOf, if_neg other]
    rw [all]
    refine Rules.itself_options fun d declarator i read => ?_
    have member : i ∈ importsOf cx n := all ▸ List.mem_filterMap.mpr ⟨d, declarator, read⟩
    exact ⟨⟨n, declarator_below declarator, importsOf_located member⟩, requireImport_spelled read⟩

theorem functionSite_cases (site : s ∈ functionSites cx n) :
    s ∈ declarators n ∧ (s.field? "value").any isFunctionValue ∨ s = n ∧ ¬ isBindingList n := by
  unfold functionSites at site
  split at site
  · obtain ⟨declarator, f, read⟩ := Rules.mem_itself site
    obtain ⟨v, value, _⟩ := Option.bind_eq_some_iff.mp (Option.mem_toList.mp read)
    obtain ⟨value, isFunction⟩ := Option.filter_eq_some_iff.mp value
    exact .inl ⟨declarator, by rw [value, Option.any_some, isFunction]⟩
  · obtain ⟨_, _, rfl⟩ := List.mem_map.mp site
    exact .inr ⟨rfl, ‹_›⟩

theorem variableSite_other (site : s ∈ variableSites cx n) :
    s ∈ declarators n ∧ ¬ (s.field? "value").any (isOther cx) := by
  obtain ⟨declarator, plain⟩ := List.mem_filter.mp (Rules.mem_itself site).1
  exact ⟨declarator, by simpa using plain⟩

theorem importSite_cases (site : s ∈ importSites cx n) :
    s ∈ declarators n ∧ (s.field? "value").any (fun v => (requiredModule? cx v).isSome) ∨
      s = n ∧ n.kind = "import_statement" := by
  unfold importSites at site
  split at site
  · obtain ⟨_, _, rfl⟩ := List.mem_map.mp site
    exact .inr ⟨rfl, eq_of_beq ‹_›⟩
  · obtain ⟨declarator, i, read⟩ := Rules.mem_itself site
    obtain ⟨source, found, _⟩ := Option.bind_eq_some_iff.mp (Option.mem_toList.mp read)
    obtain ⟨v, value, module⟩ := Option.bind_eq_some_iff.mp found
    exact .inl ⟨declarator, by rw [value, Option.any_some, module, Option.isSome_some]⟩

theorem required_call {v : Node} (found : (requiredModule? cx v).isSome) : ¬ isFunctionValue v := by
  unfold requiredModule? at found
  simp only [bne_iff_ne, ne_eq, ite_not] at found
  by_cases call : v.kind = "call_expression"
  · simp [isFunctionValue, call]
  · rw [if_neg call] at found
    cases found

theorem statement_kind {root : Node} {wrappers : List String}
    (statement : n ∈ root.moduleLevel NodeKinds.typescript.functions wrappers) :
    n.kind ≠ "variable_declarator" ∧ n.kind ≠ "import_statement" :=
  (by decide : ∀ k ∈ NodeKinds.typescript.functions,
    k ≠ "variable_declarator" ∧ k ≠ "import_statement") _ (Node.moduleLevel_reached statement).2

theorem bindings_declared (cx : Context) (root : Node) :
    (bindingSites cx root).Declares cx (rules.functions cx root) (rules.bindings cx root)
      (rules.imports cx root) where
  functions := Rules.matched_flatMap fun _ _ => functions_bound
  bindings := Rules.matched_flatMap fun _ _ => variables_bound
  imports := Rules.matched_flatMap fun _ _ => imports_bound
  noFunctionBinding s function binding := by
    obtain ⟨n, statement, site⟩ := List.mem_flatMap.mp function
    obtain ⟨m, _, other⟩ := List.mem_flatMap.mp binding
    obtain ⟨declarator, plain⟩ := variableSite_other other
    rcases functionSite_cases site with ⟨_, bound⟩ | ⟨rfl, _⟩
    · obtain ⟨v, value, isFunction⟩ := (Option.any_eq_true _ _).mp bound
      rw [value, Option.any_some, isOther, isFunction, Bool.true_or] at plain
      exact plain rfl
    · exact (statement_kind statement).1 (declarator_kind declarator)
  noFunctionImport s function imported := by
    obtain ⟨n, statement, site⟩ := List.mem_flatMap.mp function
    obtain ⟨m, _, other⟩ := List.mem_flatMap.mp imported
    rcases functionSite_cases site with ⟨declarator, bound⟩ | ⟨rfl, _⟩
    · rcases importSite_cases other with ⟨_, required⟩ | ⟨rfl, kind⟩
      · obtain ⟨v, value, isFunction⟩ := (Option.any_eq_true _ _).mp bound
        rw [value, Option.any_some] at required
        exact required_call required isFunction
      · rw [declarator_kind declarator] at kind
        exact absurd kind (by decide)
    · rcases importSite_cases other with ⟨declarator, _⟩ | ⟨rfl, kind⟩
      · exact (statement_kind statement).1 (declarator_kind declarator)
      · exact (statement_kind statement).2 kind
  noBindingImport s binding imported := by
    obtain ⟨n, _, site⟩ := List.mem_flatMap.mp binding
    obtain ⟨m, _, other⟩ := List.mem_flatMap.mp imported
    obtain ⟨declarator, plain⟩ := variableSite_other site
    rcases importSite_cases other with ⟨_, required⟩ | ⟨rfl, kind⟩
    · obtain ⟨v, value, module⟩ := (Option.any_eq_true _ _).mp required
      rw [value, Option.any_some, isOther, module, Bool.or_true] at plain
      exact plain rfl
    · rw [declarator_kind declarator] at kind
      exact absurd kind (by decide)

end Declared

end CodeEntities.TypeScript
