import CodeEntities.Proofs.Rules.Basic
import CodeEntities.Rules.Scala
import Mathlib.Tactic.SplitIfs

namespace CodeEntities.Scala

section Under

variable (cx : Context) (n : Node)

@[simp]
theorem visibility_full : visibility cx.full = visibility cx := rfl

@[simp]
theorem declarationModifiers_full : declarationModifiers cx.full = declarationModifiers cx := rfl

@[simp]
theorem parents_full : parents cx.full = parents cx := by
  funext n
  unfold parents
  rw [Context.text_full]

@[simp]
theorem callable_full : callable cx.full = callable cx := by
  funext n
  unfold callable
  rw [Context.callable_full, declarationModifiers_full]

theorem functionOf_under : functionOf cx n = (functionOf cx.full n).map (·.under cx.options) := by
  unfold functionOf
  rw [Option.map_map, callable_full]
  exact Option.map_congr fun name _ => Context.function_under cx n name _

theorem property_under : property? cx n = (property? cx.full n).map (·.under cx.options) := by
  unfold property?
  rw [Option.map_map]
  rfl

theorem addMember_under (isStatic : Bool) (members : Members) :
    addMember cx isStatic (members.under cx.options) n =
      (addMember cx.full isStatic members n).under cx.options := by
  unfold addMember
  rw [functionOf_under cx, property_under cx, visibility_full]
  split_ifs
  · cases functionOf cx.full n with
    | none => rfl
    | some f =>
      simp only [Option.map_some, ← Members.under_addMethod]
      rfl
  · cases property? cx.full n with
    | none => rfl
    | some p =>
      simp only [Option.map_some, ← Members.under_addProperties]
      rfl
  · rfl

theorem members_under (isStatic : Bool) :
    members cx n isStatic = (members cx.full n isStatic).under cx.options :=
  Members.foldl_under (fun m n => addMember_under cx n isStatic m) _

theorem parameterField_under (isCase : Bool) :
    parameterField? cx isCase n = (parameterField? cx.full isCase n).map (·.under cx.options) := by
  unfold parameterField?
  rw [Context.parameter_full]
  split
  · rw [Option.map_map]
    rfl
  · rfl

theorem constructor_under (list : Option Node) :
    (list.map fun l =>
      MethodDecl.ofFunction (cx.function l "this" { params := cx.parameters l }) .isPublic) =
      (list.map fun l => MethodDecl.ofFunction
        (cx.full.function l "this" { params := cx.parameters l }) .isPublic).map
          (·.under cx.options) := by
  rw [Option.map_map]
  exact Option.map_congr fun l _ => Context.method_under cx l "this" _ _

theorem classOf_under : classOf cx n = (classOf cx.full n).map (·.under cx.options) := by
  unfold classOf
  rw [Option.map_map, members_under cx, parents_full, Context.parameters_full]
  refine Option.map_congr fun name _ => ?_
  simp only [Function.comp, ClassDecl.under, ClassDecl.membersUnder, List.map_append]
  rw [filterMap_under (parameterField_under cx · _), constructor_under]
  rfl

theorem interfaceOf_under :
    interfaceOf cx n = (interfaceOf cx.full n).map (·.under cx.options) := by
  unfold interfaceOf
  rw [Option.map_map, members_under cx, parents_full]
  rfl

theorem variablesOf_under :
    variablesOf cx n = (variablesOf cx.full n).map (·.under cx.options) := by
  unfold variablesOf
  rw [property_under cx]
  cases property? cx.full n with
  | none => rfl
  | some p => rfl

@[simp]
theorem importClause_full : importClause? cx.full = importClause? cx := by
  funext n text
  unfold importClause?
  rw [Context.location_full, qualifiedImport_full]

theorem importsOf_full : importsOf cx.full = importsOf cx := by
  funext n
  unfold importsOf
  rw [Context.trimmed_full, importClause_full]

theorem obeys : rules.Obeys where
  functions cx _ := filterMap_under (functionOf_under cx) _
  classes cx _ := filterMap_under (classOf_under cx) _
  interfaces cx _ := filterMap_under (interfaceOf_under cx) _
  typeAliases cx _ := filterMap_under (Rules.typeAliasOf_under .scala .isPublic cx) _
  bindings cx _ := flatMap_under (variablesOf_under cx) _
  imports cx _ := Rules.imports_full (importsOf_full cx) _
  exports _ _ := rfl

end Under

section Located

variable {cx : Context} {n k : Node} {isStatic : Bool}

theorem functionOf_built {f : FunctionDecl} (found : functionOf cx n = some f) :
    f.BuiltFrom cx n [] :=
  Context.function_read (Node.around_self n) found

theorem property_located {p : PropertyDecl} (found : property? cx n = some p) :
    p.location = cx.location n := by
  obtain ⟨name, _, rfl⟩ := Option.map_eq_some_iff.mp found
  rfl

theorem addMember_located {members : Members} (below : k ∈ n.preorder)
    (located : members.Located (cx.DeclaredBy n.preorder) (cx.Spanned n)) :
    (addMember cx isStatic members k).Located (cx.DeclaredBy n.preorder) (cx.Spanned n) := by
  have here : cx.Spanned n (cx.location k) := Context.spanned_below below
  unfold addMember
  split_ifs
  · cases found : functionOf cx k with
    | none => exact located
    | some f =>
      have declared := Context.declared_below below (functionOf_built found)
      exact located.addMethod declared
  · cases found : property? cx k with
    | none => exact located
    | some p =>
      refine located.addProperties fun q member => ?_
      rw [List.mem_singleton.mp member]
      exact property_located found ▸ here
  · exact located

theorem members_located :
    (members cx n isStatic).Located (cx.DeclaredBy n.preorder) (cx.Spanned n) := by
  refine Members.foldl_located ?_ Members.empty_located
  intro members k member
  exact addMember_located (Node.bodyChild_below member)

theorem parameterField_located {isCase : Bool} {p : PropertyDecl}
    (found : parameterField? cx isCase n = some p) : p.location = cx.location n := by
  unfold parameterField? at found
  split at found
  · obtain ⟨parameter, _, rfl⟩ := Option.map_eq_some_iff.mp found
    rfl
  · cases found

theorem classOf_located {c : ClassDecl} (found : classOf cx n = some c) :
    c.Located (cx.DeclaredBy n.preorder) (cx.Spanned n) := by
  obtain ⟨name, _, rfl⟩ := Option.map_eq_some_iff.mp found
  have own : (members cx n (classKind n == .object)).Located (cx.DeclaredBy n.preorder)
      (cx.Spanned n) :=
    members_located
  refine ⟨Context.spanned_self cx n, own.methods, ?_, ?_⟩
  · intro p member
    rcases List.mem_append.mp member with parameter | declared
    · obtain ⟨k, child, read⟩ := List.mem_filterMap.mp parameter
      rw [parameterField_located read]
      refine Context.spanned_below (Node.partChild_below ?_ (List.mem_filter.mp child).1)
      exact fun list => Node.childOfKind_below
    · exact own.properties p declared
  · intro m member
    obtain ⟨list, found, rfl⟩ := Option.map_eq_some_iff.mp member
    refine Context.declared_below (Node.childOfKind_below found) ?_
    exact Context.function_built (Node.around_self list) "this" _

theorem interfaceOf_located {i : InterfaceDecl} (found : interfaceOf cx n = some i) :
    i.Located (cx.DeclaredBy n.preorder) (cx.Spanned n) := by
  obtain ⟨name, _, rfl⟩ := Option.map_eq_some_iff.mp found
  have own : (members cx n false).Located (cx.DeclaredBy n.preorder) (cx.Spanned n) :=
    members_located
  exact ⟨Context.spanned_self cx n, own.methods, own.properties, by simp⟩

theorem variablesOf_located {v : VariableDecl} (member : v ∈ variablesOf cx n) :
    v.location = cx.location n := by
  unfold variablesOf at member
  split at member
  · cases member
  · rename_i p found
    rw [List.mem_singleton.mp member]
    exact property_located found

theorem importClause_located {text : String} {i : ImportDecl}
    (found : importClause? cx n text = some i) : i.location = cx.location n := by
  simp only [importClause?, Option.ite_none_left_eq_some] at found
  obtain ⟨_, found⟩ := found
  split at found
  · rw [← Option.some.inj found]
  · split at found
    · rw [← Option.some.inj found, qualifiedImport_located]
    · rw [← Option.some.inj found, qualifiedImport_located]

theorem importsOf_located {i : ImportDecl} (member : i ∈ importsOf cx n) :
    i.location = cx.location n := by
  obtain ⟨text, _, found⟩ := List.mem_filterMap.mp member
  exact importClause_located found

theorem locates : rules.Locates (.module .scala) where
  functions := Rules.module_functions .scala functionOf_built
  classes := Rules.module_classes .scala classOf_located
  interfaces := Rules.module_interfaces .scala interfaceOf_located
  typeAliases _ := Rules.spanned_filterMap (fun _ => Node.collected_below)
    (Rules.typeAliasOf_located .scala .isPublic)
  bindings _ := Rules.spanned_flatMap (fun _ => Node.collected_below) variablesOf_located
  imports _ := Rules.spanned_flatMap (fun _ => Node.collected_below) importsOf_located
  exports _ := List.forall_mem_nil _

theorem orders : rules.Orders where
  functions placed _ := Rules.inOrder_filterMap placed (Node.moduleLevel_sublist _ _ _)
    (Context.location_map fun _ => rfl)
  interfaces placed := Rules.inOrder_filterMap placed (Node.moduleLevel_sublist _ _ _)
    (Context.location_map fun _ => rfl)
  typeAliases placed := Rules.inOrder_filterMap placed (Node.moduleLevel_sublist _ _ _)
    (Rules.typeAliasOf_located .scala .isPublic)
  bindings placed := Rules.inOrder_flatMap placed (Node.moduleLevel_sublist _ _ _)
    variablesOf_located
  imports placed := Rules.inOrder_flatMap placed (Node.moduleLevel_sublist _ _ _) importsOf_located
  exports _ := .nil

theorem classes_inOrder : rules.OrdersClasses := fun placed _ =>
  Rules.inOrder_filterMap placed (Node.moduleLevel_sublist _ _ _)
    (Context.location_map fun _ => rfl)

end Located

section Named

variable {cx : Context} {n : Node}

def bareNames : Rules.BareNames where
  bindings cx root :=
    (root.moduleLevel NodeKinds.scala.bindings NodeKinds.scala.wrappers).filterMap fun n =>
      ((n.field? "pattern").or (n.field? "name")).map cx.trimmed

theorem variablesOf_names : (variablesOf cx n).map (·.name) =
    (((n.field? "pattern").or (n.field? "name")).map cx.trimmed).toList := by
  unfold variablesOf property?
  cases (n.field? "pattern").or (n.field? "name") with
  | none => rfl
  | some name => rfl

theorem names : rules.Names bareNames where
  functions _ _ := Rules.filled_filterMap (Rules.named_map fun _ => rfl)
  classes _ _ := Rules.filled_filterMap (Rules.named_map fun _ => rfl)
  interfaces _ _ := Rules.filled_filterMap (Rules.named_map fun _ => rfl)
  typeAliases _ _ := Rules.filled_filterMap (Rules.typeAliasOf_filled .scala .isPublic)
  bindings _ _ := Rules.bare_toList fun _ => variablesOf_names

end Named

end CodeEntities.Scala
