import CodeEntities.Proofs.Rules.Basic
import CodeEntities.Rules.Java
import Mathlib.Tactic.SplitIfs

namespace CodeEntities.Java

section Under

variable (cx : Context) (n : Node)

theorem method_under (default : Visibility) :
    method? cx default n = (method? cx.full default n).map (·.under cx.options) := by
  unfold method?
  rw [Option.map_map, Context.callable_full]
  exact Option.map_congr fun name _ => Context.method_under cx n name _ _

theorem fields_under (default : Visibility) :
    fields cx default n = (fields cx.full default n).map (·.under cx.options) := by
  unfold fields
  rw [List.map_filterMap]
  simp only [Option.map_map]
  rfl

theorem enumConstant_under :
    enumConstant? cx n = (enumConstant? cx.full n).map (·.under cx.options) := by
  unfold enumConstant?
  rw [Option.map_map]
  rfl

theorem components_under :
    components cx n = (components cx.full n).map (·.under cx.options) := by
  unfold components
  rw [List.map_map, Context.parametersOf_full]
  refine List.map_congr_left fun p _ => ?_
  simp only [Function.comp, PropertyDecl.under, Options.docOf_none, Context.location_full]

theorem addMember_under (default : Visibility) (inInterface : Bool) (members : Members) :
    addMember cx default inInterface (members.under cx.options) n =
      (addMember cx.full default inInterface members n).under cx.options := by
  unfold addMember
  rw [method_under cx, fields_under cx, enumConstant_under cx]
  split_ifs
  · cases method? cx.full default n with
    | none => rfl
    | some m =>
      simp only [Option.map_some, ← Members.under_addMethod]
      rfl
  · cases method? cx.full default n with
    | none => rfl
    | some m => exact Members.under_addConstructor m
  · exact Members.under_addProperties _
  · rw [Option.toList_map]
    exact Members.under_addProperties _
  · rfl

theorem members_under (default : Visibility) (inInterface : Bool) :
    members cx n default inInterface =
      (members cx.full n default inInterface).under cx.options := by
  unfold members
  cases n.field? "body" with
  | none => rfl
  | some body =>
    exact Members.foldl_under (fun m n => addMember_under cx n default inInterface m) _

theorem classOf_under : classOf cx n = (classOf cx.full n).map (·.under cx.options) := by
  unfold classOf
  rw [Option.map_map, members_under cx, components_under cx]
  refine Option.map_congr fun name _ => ?_
  simp only [Function.comp, ClassDecl.under, ClassDecl.membersUnder, List.map_append, apply_ite,
    List.map_nil]
  rfl

theorem interfaceOf_under :
    interfaceOf cx n = (interfaceOf cx.full n).map (·.under cx.options) := by
  unfold interfaceOf
  rw [Option.map_map, members_under cx]
  refine Option.map_congr fun name _ => ?_
  simp only [Function.comp, InterfaceDecl.under, InterfaceDecl.membersUnder, Members.under,
    List.map_map]
  rfl

theorem importsOf_full : importsOf cx.full = importsOf cx := by
  funext n
  unfold importsOf
  rw [Context.text_full, qualifiedImport_full]

theorem obeys : rules.Obeys where
  functions cx _ := filterMap_under (Rules.functionOf_under .java .internal cx) _
  classes cx _ := filterMap_under (classOf_under cx) _
  interfaces cx _ := filterMap_under (interfaceOf_under cx) _
  typeAliases cx _ := filterMap_under (Rules.typeAliasOf_under .java .internal cx) _
  bindings cx _ := flatMap_under (fun _ => by rfl) _
  imports cx _ := Rules.imports_full (importsOf_full cx) _
  exports _ _ := rfl

end Under

section Located

variable {cx : Context} {n k : Node} {default : Visibility} {inInterface : Bool}

theorem method_built {m : MethodDecl} (found : method? cx default n = some m) :
    m.function.BuiltFrom cx n [] := by
  obtain ⟨name, _, rfl⟩ := Option.map_eq_some_iff.mp found
  exact Context.function_built (Node.around_self n) name _

theorem fields_located : ∀ p ∈ fields cx default n, p.location = cx.location n := by
  intro p member
  obtain ⟨d, _, result⟩ := List.mem_filterMap.mp member
  obtain ⟨name, _, rfl⟩ := Option.map_eq_some_iff.mp result
  rfl

theorem enumConstant_located {p : PropertyDecl} (found : enumConstant? cx n = some p) :
    p.location = cx.location n := by
  obtain ⟨name, _, rfl⟩ := Option.map_eq_some_iff.mp found
  rfl

theorem components_located : ∀ p ∈ components cx n, p.location = cx.location n := by
  intro p member
  obtain ⟨parameter, _, rfl⟩ := List.mem_map.mp member
  rfl

theorem addMember_located {members : Members} (below : k ∈ n.preorder)
    (located : members.Located (cx.DeclaredBy n.preorder) (cx.Spanned n)) :
    (addMember cx default inInterface members k).Located (cx.DeclaredBy n.preorder)
      (cx.Spanned n) := by
  have here : cx.Spanned n (cx.location k) := Context.spanned_below below
  unfold addMember
  split
  · cases found : method? cx default k with
    | none => exact located
    | some m =>
      have declared := Context.declared_below below (method_built found)
      exact located.addMethod declared
  · split
    · cases found : method? cx default k with
      | none => exact located
      | some m => exact located.addConstructor (Context.declared_below below (method_built found))
    · split
      · exact located.addProperties fun p member => fields_located p member ▸ here
      · split
        · refine located.addProperties fun p member => ?_
          exact enumConstant_located (Option.mem_toList.mp member) ▸ here
        · exact located

theorem members_located :
    (members cx n default inInterface).Located (cx.DeclaredBy n.preorder) (cx.Spanned n) := by
  unfold members
  cases found : n.field? "body" with
  | none => exact Members.empty_located
  | some body =>
    refine Members.foldl_located ?_ Members.empty_located
    intro members k member
    have below := Node.preorder_trans (Node.field_below found) (Node.collected_below member)
    exact addMember_located below

theorem classOf_located {c : ClassDecl} (found : classOf cx n = some c) :
    c.Located (cx.DeclaredBy n.preorder) (cx.Spanned n) := by
  obtain ⟨name, _, rfl⟩ := Option.map_eq_some_iff.mp found
  have here := Context.spanned_self cx n
  have own : (members cx n .internal false).Located (cx.DeclaredBy n.preorder) (cx.Spanned n) :=
    members_located
  refine ⟨here, own.methods, ?_, own.constructor⟩
  intro p member
  rcases List.mem_append.mp member with component | declared
  · split at component
    · exact components_located p component ▸ here
    · cases component
  · exact own.properties p declared

theorem interfaceOf_located {i : InterfaceDecl} (found : interfaceOf cx n = some i) :
    i.Located (cx.DeclaredBy n.preorder) (cx.Spanned n) := by
  obtain ⟨name, _, rfl⟩ := Option.map_eq_some_iff.mp found
  have own : (members cx n .isPublic true).Located (cx.DeclaredBy n.preorder) (cx.Spanned n) :=
    members_located
  refine ⟨Context.spanned_self cx n, own.methods, ?_, by simp⟩
  intro p member
  obtain ⟨q, declared, rfl⟩ := List.mem_map.mp member
  exact own.properties q declared

theorem importsOf_located {i : ImportDecl} (member : i ∈ importsOf cx n) :
    i.location = cx.location n := by
  unfold importsOf at member
  simp only at member
  split at member
  · cases member
  · rw [List.mem_singleton.mp member, qualifiedImport_located]

theorem locates : rules.Locates (.module .java) where
  functions := Rules.module_functions .java (Rules.functionOf_built .java .internal)
  classes := Rules.module_classes .java classOf_located
  interfaces := Rules.module_interfaces .java interfaceOf_located
  typeAliases _ := Rules.spanned_filterMap (fun _ => Node.collected_below)
    (Rules.typeAliasOf_located .java .internal)
  bindings _ := Rules.empty_found
  imports _ := Rules.spanned_flatMap (fun _ => Node.collected_below) importsOf_located
  exports _ := List.forall_mem_nil _

theorem orders : rules.Orders where
  functions placed _ := Rules.inOrder_filterMap placed (Node.moduleLevel_sublist _ _ _)
    (Rules.functionOf_located .java .internal)
  interfaces placed := Rules.inOrder_filterMap placed (Node.moduleLevel_sublist _ _ _)
    (Context.location_map fun _ => rfl)
  typeAliases placed := Rules.inOrder_filterMap placed (Node.moduleLevel_sublist _ _ _)
    (Rules.typeAliasOf_located .java .internal)
  bindings _ := Rules.empty_inOrder
  imports placed := Rules.inOrder_flatMap placed (Node.moduleLevel_sublist _ _ _) importsOf_located
  exports _ := .nil

theorem classes_inOrder : rules.OrdersClasses := fun placed _ =>
  Rules.inOrder_filterMap placed (Node.moduleLevel_sublist _ _ _)
    (Context.location_map fun _ => rfl)

end Located

section Named

theorem names : rules.Names {} where
  functions _ _ := Rules.filled_filterMap (Rules.functionOf_filled .java .internal)
  classes _ _ := Rules.filled_filterMap (Rules.named_map fun _ => rfl)
  interfaces _ _ := Rules.filled_filterMap (Rules.named_map fun _ => rfl)
  typeAliases _ _ := Rules.filled_filterMap (Rules.typeAliasOf_filled .java .internal)
  bindings _ _ := Rules.filled_flatMap nofun

end Named

end CodeEntities.Java
