import CodeEntities.Proofs.Rules.Declarations
import CodeEntities.Rules.Kotlin
import Mathlib.Tactic.SplitIfs

namespace CodeEntities.Kotlin

section Under

variable (cx : Context) (n : Node)

@[simp]
theorem modifierWords_full : modifierWords cx.full = modifierWords cx := rfl

@[simp]
theorem declarationModifiers_full : declarationModifiers cx.full = declarationModifiers cx := rfl

@[simp]
theorem typeFrom_full : typeFrom? cx.full = typeFrom? cx := rfl

@[simp]
theorem binding_full : binding? cx.full = binding? cx := rfl

@[simp]
theorem isVal_full : isVal cx.full = isVal cx := rfl

@[simp]
theorem addSupertype_full : addSupertype cx.full = addSupertype cx := rfl

@[simp]
theorem scanParameter_full : scanParameter cx.full = scanParameter cx := by
  funext s c
  unfold scanParameter
  rw [Context.parameter_full, Context.afterEquals_full, Context.text_full, Context.trimmed_full]

@[simp]
theorem parameters_full : parameters cx.full = parameters cx := by
  funext list
  unfold parameters
  rw [scanParameter_full]

@[simp]
theorem callable_full : callable cx.full = callable cx := by
  funext n
  unfold callable
  rw [parameters_full, typeFrom_full, Context.typeParameters_full, declarationModifiers_full]

theorem functionOf_under : functionOf cx n = (functionOf cx.full n).map (·.under cx.options) := by
  unfold functionOf
  rw [Option.map_map, callable_full]
  exact Option.map_congr fun name _ => Context.function_under cx n name _

theorem method_under (isStatic : Bool) :
    method? cx isStatic n = (method? cx.full isStatic n).map (·.under cx.options) := by
  unfold method?
  rw [Option.map_map, callable_full]
  refine Option.map_congr fun name _ => ?_
  simp only [Function.comp]
  rw [Context.method_under]
  rfl

theorem property_under (isStatic : Bool) :
    property? cx isStatic n = (property? cx.full isStatic n).map (·.under cx.options) := by
  unfold property?
  rw [Option.map_map, binding_full, Context.afterEquals_full]
  rfl

theorem addMember_under (members : Members) (entry : Node × Bool) :
    addMember cx (members.under cx.options) entry =
      (addMember cx.full members entry).under cx.options := by
  obtain ⟨n, isStatic⟩ := entry
  unfold addMember
  simp only
  rw [method_under cx, property_under cx, callable_full, Context.method_under cx]
  split_ifs
  · cases method? cx.full isStatic n with
    | none => rfl
    | some m => exact Members.under_addMethod m
  · rw [Option.toList_map]
    exact Members.under_addProperties _
  · simp only [Members.under, Option.map_or]
    rfl
  · rw [Context.name_full]
    cases cx.name? n with
    | none => rfl
    | some name =>
      simp only [← Members.under_addProperties]
      rfl
  · rfl

theorem addBody_under (isStatic : Bool) (members : Members) :
    addBody cx n isStatic (members.under cx.options) =
      (addBody cx.full n isStatic members).under cx.options := by
  unfold addBody
  cases n.classBody? with
  | none => rfl
  | some body => exact List.foldl_hom (Members.under cx.options) (addMember_under cx)

theorem parameterProperty_under :
    parameterProperty? cx n = (parameterProperty? cx.full n).map (·.under cx.options) := by
  unfold parameterProperty?
  rw [Context.parameter_full]
  split
  · rw [Option.map_map]
    rfl
  · rfl

theorem primaryMembers_under :
    primaryMembers cx n = (primaryMembers cx.full n).under cx.options := by
  unfold primaryMembers
  rw [parameters_full]
  cases n.childOfKind? ["primary_constructor"] with
  | none => rfl
  | some primary =>
    simp only
    rw [filterMap_under (parameterProperty_under cx), Context.method_under]
    rfl

theorem classOf_under : classOf cx n = (classOf cx.full n).map (·.under cx.options) := by
  unfold classOf
  rw [addSupertype_full]
  split
  · rfl
  · rw [Option.map_map, primaryMembers_under cx]
    refine Option.map_congr fun name _ => ?_
    simp only [Function.comp, addBody_under]
    rfl

theorem interfaceOf_under :
    interfaceOf cx n = (interfaceOf cx.full n).map (·.under cx.options) := by
  unfold interfaceOf
  split
  · rw [Option.map_map, ← Members.under_empty, addBody_under cx]
    rfl
  · rfl

theorem typeAliasOf_under :
    typeAliasOf cx n = (typeAliasOf cx.full n).map (·.under cx.options) := by
  unfold typeAliasOf
  rw [Option.map_map, Context.text_full]
  rfl

theorem variablesOf_under :
    variablesOf cx n = (variablesOf cx.full n).map (·.under cx.options) := by
  unfold variablesOf
  rw [binding_full, modifierWords_full, isVal_full, Context.afterEquals_full]
  cases binding? cx n with
  | none => rfl
  | some binding => rfl

theorem importsOf_full : importsOf cx.full = importsOf cx := by
  funext n
  unfold importsOf
  rw [Context.trimmed_full, qualifiedImport_full]

theorem obeys : rules.Obeys where
  functions cx _ := filterMap_under (functionOf_under cx) _
  classes cx _ := filterMap_under (classOf_under cx) _
  interfaces cx _ := filterMap_under (interfaceOf_under cx) _
  typeAliases cx _ := filterMap_under (typeAliasOf_under cx) _
  bindings cx _ := flatMap_under (variablesOf_under cx) _
  imports cx _ := Rules.imports_full (importsOf_full cx) _
  exports _ _ := rfl

end Under

section Located

variable {cx : Context} {n k : Node} {isStatic : Bool}

theorem method_built {m : MethodDecl} (found : method? cx isStatic n = some m) :
    m.function.BuiltFrom cx n [] := by
  obtain ⟨name, _, rfl⟩ := Option.map_eq_some_iff.mp found
  exact Context.function_built (Node.around_self n) name _

theorem property_located {p : PropertyDecl} (found : property? cx isStatic n = some p) :
    p.location = cx.location n := by
  obtain ⟨binding, _, rfl⟩ := Option.map_eq_some_iff.mp found
  rfl

theorem memberNodes_below {inner : Bool} (member : (k, inner) ∈ memberNodes isStatic n) :
    k ∈ n.preorder := by
  fun_induction memberNodes isStatic n with
  | case1 isStatic n ih =>
    obtain ⟨⟨m, child⟩, _, member⟩ := List.mem_flatMap.mp member
    simp only at member
    have below := Node.namedChild_below child
    split at member
    · split at member
      · rename_i body found
        have inside := Node.preorder_trans (Node.classBody_below found)
          (ih m child body found member)
        exact Node.preorder_trans below inside
      · cases member
    · cases List.mem_singleton.mp member
      exact below

theorem addMember_located {members : Members} (below : k ∈ n.preorder)
    (located : members.Located (cx.DeclaredBy n.preorder) (cx.Spanned n)) :
    (addMember cx members (k, isStatic)).Located (cx.DeclaredBy n.preorder) (cx.Spanned n) := by
  have here : cx.Spanned n (cx.location k) := Context.spanned_below below
  unfold addMember
  simp only
  split_ifs
  · cases found : method? cx isStatic k with
    | none => exact located
    | some m =>
      have declared := Context.declared_below below (method_built found)
      exact located.addMethod declared
  · refine located.addProperties fun p member => ?_
    exact property_located (Option.mem_toList.mp member) ▸ here
  · refine ⟨located.methods, located.properties, ?_⟩
    intro m member
    rcases Option.or_eq_some_iff.mp member with first | ⟨_, added⟩
    · exact located.constructor m first
    · cases added
      refine Context.declared_below below ?_
      exact Context.function_built (Node.around_self k) "constructor" (callable cx k)
  · cases cx.name? k with
    | none => exact located
    | some name =>
      refine located.addProperties fun p member => ?_
      rw [List.mem_singleton.mp member]
      exact here
  · exact located

theorem addBody_located {members : Members}
    (located : members.Located (cx.DeclaredBy n.preorder) (cx.Spanned n)) :
    (addBody cx n isStatic members).Located (cx.DeclaredBy n.preorder) (cx.Spanned n) := by
  unfold addBody
  cases found : n.classBody? with
  | none => exact located
  | some body =>
    refine Members.foldl_located ?_ located
    intro members entry member
    have below := Node.preorder_trans (Node.classBody_below found) (memberNodes_below member)
    exact addMember_located below

theorem parameterProperty_located {p : PropertyDecl} (found : parameterProperty? cx n = some p) :
    p.location = cx.location n := by
  unfold parameterProperty? at found
  split at found
  · obtain ⟨parameter, _, rfl⟩ := Option.map_eq_some_iff.mp found
    rfl
  · cases found

theorem primaryMembers_located :
    (primaryMembers cx n).Located (cx.DeclaredBy n.preorder) (cx.Spanned n) := by
  unfold primaryMembers
  cases found : n.childOfKind? ["primary_constructor"] with
  | none => exact Members.empty_located
  | some primary =>
    have below := Node.childOfKind_below found
    refine ⟨by simp, ?_, ?_⟩
    · intro p member
      obtain ⟨parameter, child, read⟩ := List.mem_filterMap.mp member
      rw [parameterProperty_located read]
      have inside := Node.namedChild_below (List.mem_filter.mp child).1
      have list : (primary.childOfKind? ["class_parameters"]).getD primary ∈ primary.preorder := by
        cases listed : primary.childOfKind? ["class_parameters"] with
        | none => exact Node.self_mem_preorder primary
        | some list => exact Node.childOfKind_below listed
      exact Context.spanned_below (Node.preorder_trans (Node.preorder_trans below list) inside)
    · intro m member
      cases member
      refine Context.declared_below below ?_
      exact Context.function_built (Node.around_self primary) "constructor" _

theorem classOf_located {c : ClassDecl} (found : classOf cx n = some c) :
    c.Located (cx.DeclaredBy n.preorder) (cx.Spanned n) := by
  unfold classOf at found
  split at found
  · cases found
  · obtain ⟨name, _, rfl⟩ := Option.map_eq_some_iff.mp found
    have own : (addBody cx n (classKind cx n == .object) (primaryMembers cx n)).Located
        (cx.DeclaredBy n.preorder) (cx.Spanned n) :=
      addBody_located primaryMembers_located
    exact ⟨Context.spanned_self cx n, own.methods, own.properties, own.constructor⟩

theorem interfaceOf_located {i : InterfaceDecl} (found : interfaceOf cx n = some i) :
    i.Located (cx.DeclaredBy n.preorder) (cx.Spanned n) := by
  unfold interfaceOf at found
  split at found
  · obtain ⟨name, _, rfl⟩ := Option.map_eq_some_iff.mp found
    have own : (addBody cx n false {}).Located (cx.DeclaredBy n.preorder) (cx.Spanned n) :=
      addBody_located Members.empty_located
    exact ⟨Context.spanned_self cx n, own.methods, own.properties, by simp⟩
  · cases found

theorem interfaceOf_location {i : InterfaceDecl} (found : interfaceOf cx n = some i) :
    i.location = cx.location n := by
  unfold interfaceOf at found
  split at found
  · exact Context.location_map (fun _ => rfl) found
  · cases found

theorem variablesOf_located {v : VariableDecl} (member : v ∈ variablesOf cx n) :
    v.location = cx.location n := by
  unfold variablesOf at member
  split at member
  · cases member
  · rw [List.mem_singleton.mp member]

theorem importsOf_located {i : ImportDecl} (member : i ∈ importsOf cx n) :
    i.location = cx.location n := by
  simp only [importsOf, List.mem_ite_nil_left, List.mem_singleton] at member
  rw [member.2]
  simp only [qualifiedImport_located]

theorem locates : rules.Locates (.module .kotlin) where
  functions := Rules.module_functions .kotlin (Context.function_read (Node.around_self _))
  classes := Rules.module_classes .kotlin classOf_located
  interfaces := Rules.module_interfaces .kotlin interfaceOf_located
  typeAliases _ := Rules.spanned_filterMap (fun _ => Node.collected_below)
    (Context.location_map fun _ => rfl)
  bindings _ := Rules.spanned_flatMap (fun _ => Node.collected_below) variablesOf_located
  imports _ := Rules.spanned_flatMap (fun _ => Node.collected_below) importsOf_located
  exports _ := List.forall_mem_nil _

theorem orders : rules.Orders where
  functions placed _ := Rules.inOrder_filterMap placed (Node.moduleLevel_sublist _ _ _)
    (Context.location_map fun _ => rfl)
  interfaces placed :=
    Rules.inOrder_filterMap placed (Node.moduleLevel_sublist _ _ _) interfaceOf_location
  typeAliases placed := Rules.inOrder_filterMap placed (Node.moduleLevel_sublist _ _ _)
    (Context.location_map fun _ => rfl)
  bindings placed := Rules.inOrder_flatMap placed (Node.moduleLevel_sublist _ _ _)
    variablesOf_located
  imports placed := Rules.inOrder_flatMap placed (Node.moduleLevel_sublist _ _ _) importsOf_located
  exports _ := .nil

end Located

section Named

variable {cx : Context} {n : Node}

def bareNames : Rules.BareNames where
  bindings cx root :=
    (root.moduleLevel NodeKinds.kotlin.bindings NodeKinds.kotlin.wrappers).filterMap fun n =>
      (binding? cx n).map (·.1)

theorem classOf_filled {c : ClassDecl} (found : classOf cx n = some c) : c.name ≠ "" := by
  unfold classOf at found
  split at found
  · cases found
  · exact Rules.named_map (fun _ => rfl) found

theorem interfaceOf_filled {i : InterfaceDecl} (found : interfaceOf cx n = some i) :
    i.name ≠ "" := by
  unfold interfaceOf at found
  split at found
  · exact Rules.named_map (fun _ => rfl) found
  · cases found

theorem variablesOf_names :
    (variablesOf cx n).map (·.name) = ((binding? cx n).map (·.1)).toList := by
  unfold variablesOf
  cases binding? cx n with
  | none => rfl
  | some binding => rfl

theorem names : rules.Names bareNames where
  functions _ _ := Rules.filled_filterMap (Rules.named_map fun _ => rfl)
  classes _ _ := Rules.filled_filterMap classOf_filled
  interfaces _ _ := Rules.filled_filterMap interfaceOf_filled
  typeAliases _ _ := Rules.filled_filterMap (Rules.named_map fun _ => rfl)
  bindings _ _ := Rules.bare_toList fun _ => variablesOf_names

end Named

section Declared

def typeSites (cx : Context) (root : Node) : Rules.TypeSites where
  classes := Rules.itself (fun n => (classOf cx n).toList)
    (root.moduleLevel NodeKinds.kotlin.classes NodeKinds.kotlin.wrappers)
  interfaces := Rules.itself (fun n => (interfaceOf cx n).toList)
    (root.moduleLevel NodeKinds.kotlin.interfaces NodeKinds.kotlin.wrappers)
  typeAliases := Rules.itself (fun n => (typeAliasOf cx n).toList)
    (root.moduleLevel NodeKinds.kotlin.typeAliases NodeKinds.kotlin.wrappers)

variable {cx : Context} {n : Node}

theorem classOf_place {c : ClassDecl} (found : classOf cx n = some c) :
    ¬ isInterface n ∧ c.location = cx.location n := by
  unfold classOf at found
  split at found
  · cases found
  · exact ⟨‹_›, Context.location_map (fun _ => rfl) found⟩

theorem classes_inOrder : rules.OrdersClasses := fun placed _ =>
  Rules.inOrder_filterMap placed (Node.moduleLevel_sublist _ _ _)
    fun found => (classOf_place found).2

theorem interfaceOf_isInterface {i : InterfaceDecl} (found : interfaceOf cx n = some i) :
    isInterface n := by
  unfold interfaceOf at found
  split at found
  · assumption
  · cases found

theorem types_declared (cx : Context) (root : Node) :
    (typeSites cx root).Declares cx (rules.classes cx root) (rules.interfaces cx root)
      (rules.typeAliases cx root) where
  classes :=
    ⟨_, Rules.extends_refl _, Rules.itself_options fun _ _ _ found => (classOf_place found).2⟩
  interfaces := Rules.itself_options fun _ _ _ => interfaceOf_location
  typeAliases := Rules.itself_options fun _ _ _ => Context.location_map fun _ => rfl
  noClassInterface := Rules.itself_disjoint fun _ _ declared other =>
    (classOf_place (Option.mem_toList.mp declared)).1
      (interfaceOf_isInterface (Option.mem_toList.mp other))
  noClassAlias := Rules.itself_disjoint fun declared other _ _ =>
    (by decide : ∀ k ∈ NodeKinds.kotlin.classes, k ∉ NodeKinds.kotlin.typeAliases) _
      (Node.moduleLevel_reached declared).2 (Node.moduleLevel_reached other).2
  noInterfaceAlias := Rules.itself_disjoint fun declared other _ _ =>
    (by decide : ∀ k ∈ NodeKinds.kotlin.interfaces, k ∉ NodeKinds.kotlin.typeAliases) _
      (Node.moduleLevel_reached declared).2 (Node.moduleLevel_reached other).2

end Declared

end CodeEntities.Kotlin
