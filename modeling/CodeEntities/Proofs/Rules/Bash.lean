import CodeEntities.Proofs.Rules.Basic
import CodeEntities.Rules.Bash

namespace CodeEntities.Bash

section Under

variable (cx : Context)

theorem assignment_under (n whole : Node) (kind : VariableKind) (modifiers : Modifiers) :
    assignment? cx n whole kind modifiers =
      (assignment? cx.full n whole kind modifiers).map (·.under cx.options) := by
  unfold assignment?
  rw [Option.map_map]
  rfl

theorem variablesOf_under (n : Node) :
    variablesOf cx n = (variablesOf cx.full n).map (·.under cx.options) := by
  unfold variablesOf
  rw [Context.text_full]
  simp only
  split
  · rw [assignment_under cx, Option.toList_map]
  · refine filterMap_under (fun c => ?_) _
    split
    · exact assignment_under cx c n _ _
    · split <;> rfl

theorem importsOf_full : importsOf cx.full = importsOf cx := by
  funext n
  unfold importsOf
  rw [Context.trimmed_full, Context.text_full, Context.location_full]

theorem obeys : rules.Obeys where
  functions cx _ := filterMap_under (Rules.functionOf_under .bash .isPublic cx) _
  classes cx _ := filterMap_under (Rules.classOf_under .bash .isPublic cx) _
  interfaces cx _ := filterMap_under (fun _ => by rfl) _
  typeAliases cx _ := filterMap_under (Rules.typeAliasOf_under .bash .isPublic cx) _
  bindings cx _ := flatMap_under (variablesOf_under cx) _
  imports cx _ := Rules.imports_full (importsOf_full cx) _
  exports _ _ := rfl

end Under

section Located

variable {cx : Context} {n : Node}

theorem assignment_located {whole : Node} {kind : VariableKind} {modifiers : Modifiers}
    {v : VariableDecl} (found : assignment? cx n whole kind modifiers = some v) :
    v.location = cx.location whole := by
  obtain ⟨name, _, rfl⟩ := Option.map_eq_some_iff.mp found
  rfl

theorem variablesOf_located {v : VariableDecl} (member : v ∈ variablesOf cx n) :
    v.location = cx.location n := by
  unfold variablesOf at member
  simp only at member
  split at member
  · exact assignment_located (Option.mem_toList.mp member)
  · obtain ⟨c, _, result⟩ := List.mem_filterMap.mp member
    split at result
    · exact assignment_located result
    · split at result
      · cases result
        rfl
      · cases result

theorem importsOf_located {i : ImportDecl} (member : i ∈ importsOf cx n) :
    i.location = cx.location n := by
  unfold importsOf at member
  simp only at member
  split at member
  · split at member
    · rw [List.mem_singleton.mp member]
    · cases member
  · cases member

theorem locates : rules.Locates (.module .bash) where
  functions := Rules.module_functions .bash (Rules.functionOf_built .bash .isPublic)
  classes := Rules.module_classes .bash (Rules.classOf_located .bash .isPublic)
  interfaces := Rules.none_found
  typeAliases _ := Rules.spanned_filterMap (fun _ => Node.collected_below)
    (Rules.typeAliasOf_located .bash .isPublic)
  bindings _ := Rules.spanned_flatMap (fun _ => Node.collected_below) variablesOf_located
  imports _ := Rules.spanned_flatMap (fun _ => Node.collected_below) importsOf_located
  exports _ := List.forall_mem_nil _

theorem orders : rules.Orders where
  functions placed _ := Rules.inOrder_filterMap placed (Node.moduleLevel_sublist _ _ _)
    (Rules.functionOf_located .bash .isPublic)
  interfaces _ := Rules.none_inOrder
  typeAliases placed := Rules.inOrder_filterMap placed (Node.moduleLevel_sublist _ _ _)
    (Rules.typeAliasOf_located .bash .isPublic)
  bindings placed := Rules.inOrder_flatMap placed (Node.moduleLevel_sublist _ _ _)
    variablesOf_located
  imports placed := Rules.inOrder_flatMap placed (Node.moduleLevel_sublist _ _ _) importsOf_located
  exports _ := .nil

theorem classes_inOrder : rules.OrdersClasses := fun placed _ =>
  Rules.inOrder_filterMap placed (Node.moduleLevel_sublist _ _ _)
    (Rules.classOf_location .bash .isPublic)

end Located

section Named

variable {cx : Context} {n : Node}

def bareBindings (cx : Context) (n : Node) : List String :=
  if n.kind == "variable_assignment" then []
  else (n.namedChildren.filter (·.kind == "variable_name")).map cx.text

def bareNames : Rules.BareNames where
  bindings cx root :=
    (root.moduleLevel NodeKinds.bash.bindings NodeKinds.bash.wrappers).flatMap (bareBindings cx)

theorem assignment_filled {whole : Node} {kind : VariableKind} {modifiers : Modifiers}
    {v : VariableDecl} (found : assignment? cx n whole kind modifiers = some v) : v.name ≠ "" :=
  Rules.filled_map (fun _ => Context.fieldText_filled) (fun _ => rfl) found

theorem variablesOf_names : "" ∈ (variablesOf cx n).map (·.name) ↔ "" ∈ bareBindings cx n := by
  unfold variablesOf bareBindings
  simp only
  split
  · refine iff_of_false (fun member => ?_) List.not_mem_nil
    obtain ⟨v, found, empty⟩ := List.mem_map.mp member
    exact assignment_filled (Option.mem_toList.mp found) empty
  · constructor
    · intro member
      obtain ⟨v, found, empty⟩ := List.mem_map.mp member
      obtain ⟨c, child, result⟩ := List.mem_filterMap.mp found
      split at result
      · exact absurd empty (assignment_filled result)
      · split at result
        · rename_i bare
          cases result
          exact List.mem_map.mpr ⟨c, List.mem_filter.mpr ⟨child, bare⟩, empty⟩
        · cases result
    · intro member
      obtain ⟨c, bare, empty⟩ := List.mem_map.mp member
      obtain ⟨child, kind⟩ := List.mem_filter.mp bare
      have notAssigned : (c.kind == "variable_assignment") = false := by
        rw [eq_of_beq kind]
        rfl
      rw [List.map_filterMap, List.mem_filterMap]
      refine ⟨c, child, ?_⟩
      simp only [notAssigned, kind]
      exact congrArg some empty

theorem names : rules.Names bareNames where
  functions _ _ := Rules.filled_filterMap (Rules.functionOf_filled .bash .isPublic)
  classes _ _ := Rules.filled_filterMap (Rules.classOf_filled .bash .isPublic)
  interfaces _ _ := Rules.filled_filterMap nofun
  typeAliases _ _ := Rules.filled_filterMap (Rules.typeAliasOf_filled .bash .isPublic)
  bindings _ _ := Rules.bare_flatMap fun _ => variablesOf_names

end Named

end CodeEntities.Bash
