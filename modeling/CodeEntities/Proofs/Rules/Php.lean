import CodeEntities.Proofs.Rules.Basic
import CodeEntities.Rules.Php
import Mathlib.Tactic.SplitIfs

namespace CodeEntities.Php

section Under

variable (cx : Context) (n : Node)

@[simp]
theorem callable_full : callable cx.full = callable cx := by
  funext n
  unfold callable
  rw [Context.callable_full, Context.parametersOf_full]

theorem functionOf_under : functionOf cx n = (functionOf cx.full n).map (·.under cx.options) := by
  unfold functionOf
  rw [Option.map_map, callable_full]
  exact Option.map_congr fun name _ => Context.function_under cx n name _

theorem method_under (inInterface : Bool) :
    method? cx inInterface n = (method? cx.full inInterface n).map (·.under cx.options) := by
  unfold method?
  rw [Option.map_map, callable_full]
  refine Option.map_congr fun name _ => ?_
  simp only [Function.comp]
  rw [Context.method_under]
  rfl

theorem promoted_under : promoted cx n = (promoted cx.full n).map (·.under cx.options) := by
  unfold promoted
  split
  · rfl
  · rw [List.map_filterMap, Context.parameter_full]
    simp only [Option.map_map, Function.comp_def, PropertyDecl.under, Options.docOf_none]
    rfl

theorem propertyElement_under (element : Node) :
    propertyElement? cx n element =
      (propertyElement? cx.full n element).map (·.under cx.options) := by
  unfold propertyElement?
  rw [Option.map_map, Context.afterEquals_full]
  rfl

theorem constant_under (element : Node) (initializer : Option String) :
    constant? cx n element initializer =
      (constant? cx.full n element initializer).map (·.under cx.options) := by
  unfold constant?
  rw [Option.map_map]
  rfl

theorem addMember_under (inInterface : Bool) (members : Members) :
    addMember cx inInterface (members.under cx.options) n =
      (addMember cx.full inInterface members n).under cx.options := by
  unfold addMember
  rw [method_under cx, promoted_under cx, filterMap_under (propertyElement_under cx n),
    filterMap_under fun e => constant_under cx n e _, constant_under cx n n, Context.name_full,
    Context.afterEquals_full, Context.fieldText_full]
  split_ifs
  · simp only [Members.under, List.map_append]
  · cases method? cx.full inInterface n with
    | none => rfl
    | some m => exact Members.under_addMethod m
  · exact Members.under_addProperties _
  · exact Members.under_addProperties _
  · rw [Option.toList_map]
    exact Members.under_addProperties _
  · rfl

theorem members_under (inInterface : Bool) :
    members cx n inInterface = (members cx.full n inInterface).under cx.options :=
  Members.foldl_under (fun m n => addMember_under cx n inInterface m) _

theorem classOf_under : classOf cx n = (classOf cx.full n).map (·.under cx.options) := by
  unfold classOf
  rw [Option.map_map, members_under cx]
  rfl

theorem interfaceOf_under :
    interfaceOf cx n = (interfaceOf cx.full n).map (·.under cx.options) := by
  unfold interfaceOf
  rw [Option.map_map, members_under cx]
  rfl

theorem variablesOf_under :
    variablesOf cx n = (variablesOf cx.full n).map (·.under cx.options) := by
  refine filterMap_under (fun e => ?_) _
  rw [Option.map_map, Context.afterEquals_full]
  rfl

@[simp]
theorem useClause_full : useClause? cx.full = useClause? cx := by
  funext n text
  unfold useClause?
  rw [Context.location_full]

theorem importsOf_full : importsOf cx.full = importsOf cx := by
  funext n
  unfold importsOf
  rw [Context.trimmed_full, useClause_full]

theorem obeys : rules.Obeys where
  functions cx _ := filterMap_under (functionOf_under cx) _
  classes cx _ := filterMap_under (classOf_under cx) _
  interfaces cx _ := filterMap_under (interfaceOf_under cx) _
  typeAliases cx _ := filterMap_under (Rules.typeAliasOf_under .php .isPublic cx) _
  bindings cx _ := flatMap_under (variablesOf_under cx) _
  imports cx _ := Rules.imports_full (importsOf_full cx) _
  exports _ _ := rfl

end Under

section Located

variable {cx : Context} {n k : Node} {inInterface : Bool}

theorem method_built {m : MethodDecl} (found : method? cx inInterface n = some m) :
    m.function.BuiltFrom cx n [] := by
  obtain ⟨name, _, rfl⟩ := Option.map_eq_some_iff.mp found
  exact Context.function_built (Node.around_self n) name _

theorem promoted_located : ∀ p ∈ promoted cx n, cx.Spanned n p.location := by
  intro p member
  unfold promoted at member
  split at member
  · cases member
  · rename_i list found
    obtain ⟨parameter, promotes, result⟩ := List.mem_filterMap.mp member
    obtain ⟨_, _, rfl⟩ := Option.map_eq_some_iff.mp result
    have below := Node.namedChild_below (List.mem_filter.mp promotes).1
    exact Context.spanned_below (Node.preorder_trans (Context.parameterList_below found) below)

theorem propertyElement_located {element : Node} {p : PropertyDecl}
    (found : propertyElement? cx n element = some p) : p.location = cx.location n := by
  obtain ⟨name, _, rfl⟩ := Option.map_eq_some_iff.mp found
  rfl

theorem constant_located {element : Node} {initializer : Option String} {p : PropertyDecl}
    (found : constant? cx n element initializer = some p) : p.location = cx.location n := by
  obtain ⟨name, _, rfl⟩ := Option.map_eq_some_iff.mp found
  rfl

theorem addMember_located {members : Members} (below : k ∈ n.preorder)
    (located : members.Located (cx.DeclaredBy n.preorder) (cx.Spanned n)) :
    (addMember cx inInterface members k).Located (cx.DeclaredBy n.preorder) (cx.Spanned n) := by
  have here : cx.Spanned n (cx.location k) := Context.spanned_below below
  unfold addMember
  split_ifs
  · refine ⟨located.methods, ?_, ?_⟩
    intro p member
    rcases List.mem_append.mp member with old | new
    · exact located.properties p old
    · exact (promoted_located p new).up below
    · exact fun m found => Context.declared_below below (method_built found)
  · cases found : method? cx inInterface k with
    | none => exact located
    | some m =>
      have declared := Context.declared_below below (method_built found)
      exact located.addMethod declared
  · refine located.addProperties fun p member => ?_
    obtain ⟨element, _, found⟩ := List.mem_filterMap.mp member
    exact propertyElement_located found ▸ here
  · refine located.addProperties fun p member => ?_
    obtain ⟨element, _, found⟩ := List.mem_filterMap.mp member
    exact constant_located found ▸ here
  · refine located.addProperties fun p member => ?_
    exact constant_located (Option.mem_toList.mp member) ▸ here
  · exact located

theorem members_located :
    (members cx n inInterface).Located (cx.DeclaredBy n.preorder) (cx.Spanned n) := by
  refine Members.foldl_located ?_ Members.empty_located
  intro members k member
  exact addMember_located (Node.bodyChild_below member)

theorem classOf_located {c : ClassDecl} (found : classOf cx n = some c) :
    c.Located (cx.DeclaredBy n.preorder) (cx.Spanned n) := by
  obtain ⟨name, _, rfl⟩ := Option.map_eq_some_iff.mp found
  have own : (members cx n false).Located (cx.DeclaredBy n.preorder) (cx.Spanned n) :=
    members_located
  exact ⟨Context.spanned_self cx n, own.methods, own.properties, own.constructor⟩

theorem interfaceOf_located {i : InterfaceDecl} (found : interfaceOf cx n = some i) :
    i.Located (cx.DeclaredBy n.preorder) (cx.Spanned n) := by
  obtain ⟨name, _, rfl⟩ := Option.map_eq_some_iff.mp found
  have own : (members cx n true).Located (cx.DeclaredBy n.preorder) (cx.Spanned n) :=
    members_located
  exact ⟨Context.spanned_self cx n, own.methods, own.properties, by simp⟩

theorem variablesOf_located {v : VariableDecl} (member : v ∈ variablesOf cx n) :
    v.location = cx.location n := by
  obtain ⟨e, _, result⟩ := List.mem_filterMap.mp member
  obtain ⟨name, _, rfl⟩ := Option.map_eq_some_iff.mp result
  rfl

theorem useClause_located {text : String} {i : ImportDecl}
    (found : useClause? cx n text = some i) : i.location = cx.location n := by
  simp only [useClause?, Option.ite_none_left_eq_some, Option.some.injEq] at found
  rw [← found.2]

theorem importsOf_located {i : ImportDecl} (member : i ∈ importsOf cx n) :
    i.location = cx.location n := by
  obtain ⟨text, _, found⟩ := List.mem_filterMap.mp member
  exact useClause_located found

theorem locates : rules.Locates (.module .php) where
  functions := Rules.module_functions .php (Context.function_read (Node.around_self _))
  classes := Rules.module_classes .php classOf_located
  interfaces := Rules.module_interfaces .php interfaceOf_located
  typeAliases _ := Rules.spanned_filterMap (fun _ => Node.collected_below)
    (Rules.typeAliasOf_located .php .isPublic)
  bindings _ := Rules.spanned_flatMap (fun _ => Node.collected_below) variablesOf_located
  imports _ := Rules.spanned_flatMap (fun _ => Node.collected_below) importsOf_located
  exports _ := List.forall_mem_nil _

theorem orders : rules.Orders where
  functions placed _ := Rules.inOrder_filterMap placed (Node.moduleLevel_sublist _ _ _)
    (Context.location_map fun _ => rfl)
  interfaces placed := Rules.inOrder_filterMap placed (Node.moduleLevel_sublist _ _ _)
    (Context.location_map fun _ => rfl)
  typeAliases placed := Rules.inOrder_filterMap placed (Node.moduleLevel_sublist _ _ _)
    (Rules.typeAliasOf_located .php .isPublic)
  bindings placed := Rules.inOrder_flatMap placed (Node.moduleLevel_sublist _ _ _)
    variablesOf_located
  imports placed := Rules.inOrder_flatMap placed (Node.moduleLevel_sublist _ _ _) importsOf_located
  exports _ := .nil

theorem classes_inOrder : rules.OrdersClasses := fun placed _ =>
  Rules.inOrder_filterMap placed (Node.moduleLevel_sublist _ _ _)
    (Context.location_map fun _ => rfl)

end Located

section Named

variable {cx : Context} {n : Node}

theorem variablesOf_filled {v : VariableDecl} (member : v ∈ variablesOf cx n) : v.name ≠ "" := by
  obtain ⟨e, _, found⟩ := List.mem_filterMap.mp member
  exact Rules.named_map (fun _ => rfl) found

theorem names : rules.Names {} where
  functions _ _ := Rules.filled_filterMap (Rules.named_map fun _ => rfl)
  classes _ _ := Rules.filled_filterMap (Rules.named_map fun _ => rfl)
  interfaces _ _ := Rules.filled_filterMap (Rules.named_map fun _ => rfl)
  typeAliases _ _ := Rules.filled_filterMap (Rules.typeAliasOf_filled .php .isPublic)
  bindings _ _ := Rules.filled_flatMap variablesOf_filled

end Named

end CodeEntities.Php
