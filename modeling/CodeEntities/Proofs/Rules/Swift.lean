import CodeEntities.Proofs.Rules.Basic
import CodeEntities.Rules.Swift
import Mathlib.Tactic.SplitIfs

namespace CodeEntities.Swift

section Under

variable (cx : Context) (n : Node)

@[simp]
theorem declarationModifiers_full : declarationModifiers cx.full = declarationModifiers cx := rfl

@[simp]
theorem isLet_full : isLet cx.full = isLet cx := rfl

@[simp]
theorem bindingName_full : bindingName? cx.full = bindingName? cx := rfl

@[simp]
theorem annotation_full : annotation? cx.full = annotation? cx := rfl

@[simp]
theorem hasSetter_full : hasSetter cx.full = hasSetter cx := rfl

@[simp]
theorem inherited_full : inherited cx.full = inherited cx := rfl

@[simp]
theorem classKind_full : classKind cx.full = classKind cx := rfl

@[simp]
theorem parametersFrom_full (params : List Parameter) (awaitsDefault : Bool) (nodes : List Node) :
    parametersFrom cx.full params awaitsDefault nodes =
      parametersFrom cx params awaitsDefault nodes := by
  induction nodes generalizing params awaitsDefault with
  | nil => rfl
  | cons c rest ih =>
    unfold parametersFrom
    simp only [ih]
    rw [Context.parameter_full, Context.text_full, Context.trimmed_full]

@[simp]
theorem callable_full : callable cx.full = callable cx := by
  funext n
  unfold callable
  rw [Context.callable_full, parametersFrom_full, declarationModifiers_full]

theorem functionOf_under : functionOf cx n = (functionOf cx.full n).map (·.under cx.options) := by
  unfold functionOf
  rw [Option.map_map, callable_full]
  exact Option.map_congr fun name _ => Context.function_under cx n name _

theorem property_under : property? cx n = (property? cx.full n).map (·.under cx.options) := by
  unfold property?
  rw [Option.map_map, bindingName_full, annotation_full, isLet_full]
  refine Option.map_congr fun name _ => ?_
  simp only [Function.comp]
  rw [Context.property_under]
  rfl

theorem protocolProperty_under :
    protocolProperty? cx n = (protocolProperty? cx.full n).map (·.under cx.options) := by
  unfold protocolProperty?
  rw [property_under cx, Option.map_map, Option.map_map, hasSetter_full]
  rfl

theorem cases_under :
    ((caseNames n).map fun c =>
      { cx.property n (cx.text c) none .isPublic with isStatic := true, isReadonly := true }) =
      ((caseNames n).map fun c =>
        { cx.full.property n (cx.text c) none .isPublic with
          isStatic := true
          isReadonly := true }).map (·.under cx.options) := by
  rw [List.map_map]
  rfl

theorem addMember_under (inProtocol : Bool) (members : Members) :
    addMember cx inProtocol (members.under cx.options) n =
      (addMember cx.full inProtocol members n).under cx.options := by
  unfold addMember
  rw [functionOf_under cx, callable_full, Context.method_under cx, protocolProperty_under cx,
    property_under cx, Context.text_full, cases_under cx]
  split
  · cases functionOf cx.full n with
    | none => rfl
    | some f =>
      simp only [Option.map_some, ← Members.under_addMethod]
      rfl
  · split
    · exact Members.under_addConstructor _
    · split
      · rw [← apply_ite (Option.map (PropertyDecl.under cx.options)), Option.toList_map]
        exact Members.under_addProperties _
      · split
        · exact Members.under_addProperties _
        · rfl

theorem members_under (inProtocol : Bool) :
    members cx n inProtocol = (members cx.full n inProtocol).under cx.options :=
  Members.foldl_under (fun m n => addMember_under cx n inProtocol m) _

theorem classOf_under : classOf cx n = (classOf cx.full n).map (·.under cx.options) := by
  unfold classOf
  rw [Option.map_map, members_under cx, classKind_full, inherited_full]
  rfl

theorem interfaceOf_under :
    interfaceOf cx n = (interfaceOf cx.full n).map (·.under cx.options) := by
  unfold interfaceOf
  rw [Option.map_map, members_under cx]
  rfl

theorem typeAliasOf_under :
    typeAliasOf cx n = (typeAliasOf cx.full n).map (·.under cx.options) := by
  unfold typeAliasOf
  rw [Option.map_map]
  rfl

theorem variablesOf_under :
    variablesOf cx n = (variablesOf cx.full n).map (·.under cx.options) := by
  unfold variablesOf
  rw [bindingName_full]
  cases bindingName? cx n with
  | none => rfl
  | some name => rfl

theorem importsOf_full : importsOf cx.full = importsOf cx := by
  funext n
  unfold importsOf
  rw [Context.text_full, Context.location_full]

theorem obeys : rules.Obeys where
  functions cx _ := filterMap_under (functionOf_under cx) _
  classes cx _ := filterMap_under (classOf_under cx) _
  interfaces cx _ := filterMap_under (interfaceOf_under cx) _
  typeAliases cx _ := filterMap_under (typeAliasOf_under cx) _
  bindings cx _ := flatMap_under (variablesOf_under cx) _
  imports cx _ := Rules.imports_full (importsOf_full cx) _
  exports _ _ := rfl

end Under

section Located

variable {cx : Context} {n k : Node} {inProtocol : Bool}

theorem functionOf_built {f : FunctionDecl} (found : functionOf cx n = some f) :
    f.BuiltFrom cx n [] :=
  Context.function_read (Node.around_self n) found

theorem property_located {p : PropertyDecl} (found : property? cx n = some p) :
    p.location = cx.location n := by
  obtain ⟨name, _, rfl⟩ := Option.map_eq_some_iff.mp found
  rfl

theorem protocolProperty_located {p : PropertyDecl} (found : protocolProperty? cx n = some p) :
    p.location = cx.location n := by
  obtain ⟨q, read, rfl⟩ := Option.map_eq_some_iff.mp found
  have place : q.location = cx.location n := property_located read
  exact place

theorem addMember_located {members : Members} (below : k ∈ n.preorder)
    (located : members.Located (cx.DeclaredBy n.preorder) (cx.Spanned n)) :
    (addMember cx inProtocol members k).Located (cx.DeclaredBy n.preorder) (cx.Spanned n) := by
  have here : cx.Spanned n (cx.location k) := Context.spanned_below below
  unfold addMember
  split
  · cases found : functionOf cx k with
    | none => exact located
    | some f =>
      have declared := Context.declared_below below (functionOf_built found)
      exact located.addMethod declared
  · split
    · have built := cx.function_built (Node.around_self k) "init" (callable cx k)
      exact located.addConstructor (Context.declared_below below built)
    · split
      · refine located.addProperties fun p member => ?_
        have read := Option.mem_toList.mp member
        cases inProtocol with
        | true => exact protocolProperty_located read ▸ here
        | false => exact property_located read ▸ here
      · split
        · refine located.addProperties fun p member => ?_
          obtain ⟨c, _, rfl⟩ := List.mem_map.mp member
          exact here
        · exact located

theorem members_located :
    (members cx n inProtocol).Located (cx.DeclaredBy n.preorder) (cx.Spanned n) := by
  refine Members.foldl_located ?_ Members.empty_located
  intro members k member
  exact addMember_located (Node.bodyChild_below member)

theorem classOf_located {c : ClassDecl} (found : classOf cx n = some c) :
    c.Located (cx.DeclaredBy n.preorder) (cx.Spanned n) := by
  obtain ⟨name, _, rfl⟩ := Option.map_eq_some_iff.mp found
  have own : (members cx n false).Located (cx.DeclaredBy n.preorder) (cx.Spanned n) :=
    members_located
  exact ⟨Context.spanned_self cx n, own.methods, own.properties, own.constructor⟩

theorem interfaceOf_located {i : InterfaceDecl} (found : interfaceOf cx n = some i) :
    i.Located (cx.DeclaredBy n.preorder) (cx.Spanned n) := by
  obtain ⟨name, _, rfl⟩ := Option.map_eq_some_iff.mp found
  have own : (members cx n true).Located (cx.DeclaredBy n.preorder) (cx.Spanned n) :=
    members_located
  exact ⟨Context.spanned_self cx n, own.methods, own.properties, by simp⟩

theorem variablesOf_located {v : VariableDecl} (member : v ∈ variablesOf cx n) :
    v.location = cx.location n := by
  unfold variablesOf at member
  split at member
  · cases member
  · rw [List.mem_singleton.mp member]

theorem importsOf_located {i : ImportDecl} (member : i ∈ importsOf cx n) :
    i.location = cx.location n := by
  unfold importsOf at member
  simp only at member
  split at member
  · cases member
  · split at member
    · split at member
      · rw [List.mem_singleton.mp member]
      · rw [List.mem_singleton.mp member]
    · rw [List.mem_singleton.mp member]

theorem locates : rules.Locates (.module .swift) where
  functions := Rules.module_functions .swift functionOf_built
  classes := Rules.module_classes .swift classOf_located
  interfaces := Rules.module_interfaces .swift interfaceOf_located
  typeAliases _ := Rules.spanned_filterMap (fun _ => Node.collected_below)
    (Context.location_map fun _ => rfl)
  bindings _ := Rules.spanned_flatMap (fun _ => Node.collected_below) variablesOf_located
  imports _ := Rules.spanned_flatMap (fun _ => Node.collected_below) importsOf_located
  exports _ := List.forall_mem_nil _

theorem orders : rules.Orders where
  functions placed _ := Rules.inOrder_filterMap placed (Node.moduleLevel_sublist _ _ _)
    (Context.location_map fun _ => rfl)
  interfaces placed := Rules.inOrder_filterMap placed (Node.moduleLevel_sublist _ _ _)
    (Context.location_map fun _ => rfl)
  typeAliases placed := Rules.inOrder_filterMap placed (Node.moduleLevel_sublist _ _ _)
    (Context.location_map fun _ => rfl)
  bindings placed := Rules.inOrder_flatMap placed (Node.moduleLevel_sublist _ _ _)
    variablesOf_located
  imports placed := Rules.inOrder_flatMap placed (Node.moduleLevel_sublist _ _ _) importsOf_located
  exports _ := .nil

theorem classes_inOrder : rules.OrdersClasses := fun placed _ =>
  Rules.inOrder_filterMap placed (Node.moduleLevel_sublist _ _ _)
    (Context.location_map fun _ => rfl)

end Located

section Named

variable {cx : Context} {n : Node}

theorem bindingName_filled {s : String} (found : bindingName? cx n = some s) : s ≠ "" := by
  obtain ⟨pattern, _, text⟩ := Option.bind_eq_some_iff.mp found
  exact nonBlank_filled text

theorem variablesOf_filled {v : VariableDecl} (member : v ∈ variablesOf cx n) : v.name ≠ "" := by
  unfold variablesOf at member
  split at member
  · cases member
  · rename_i name found
    rw [List.mem_singleton.mp member]
    exact bindingName_filled found

theorem names : rules.Names {} where
  functions _ _ := Rules.filled_filterMap (Rules.named_map fun _ => rfl)
  classes _ _ := Rules.filled_filterMap (Rules.named_map fun _ => rfl)
  interfaces _ _ := Rules.filled_filterMap (Rules.named_map fun _ => rfl)
  typeAliases _ _ := Rules.filled_filterMap (Rules.named_map fun _ => rfl)
  bindings _ _ := Rules.filled_flatMap variablesOf_filled

end Named

end CodeEntities.Swift
