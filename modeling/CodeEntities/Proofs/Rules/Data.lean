import CodeEntities.Proofs.Rules.Basic
import CodeEntities.Rules.Data

namespace CodeEntities.Data

theorem entryVariable_under (cx : Context) (e : Entry) :
    entryVariable cx e = (entryVariable cx.full e).under cx.options := by
  unfold entryVariable
  simp only [Context.text_full, Context.location_full, VariableDecl.under, ← Context.doc_under]

theorem obeys (language : Language) : (rules language).Obeys where
  functions cx _ := filterMap_under (Rules.functionOf_under (.of language) .isPublic cx) _
  classes cx _ := filterMap_under (Rules.classOf_under (.of language) .isPublic cx) _
  interfaces cx _ := filterMap_under (fun _ => by rfl) _
  typeAliases cx _ := filterMap_under (Rules.typeAliasOf_under (.of language) .isPublic cx) _
  bindings cx root := by
    simp only [rules, List.map_map]
    exact List.map_congr_left fun e _ => entryVariable_under cx e
  imports _ _ := rfl
  exports _ _ := rfl

variable {n m root : Node} {e : Entry}

theorem wrapped_below (found : wrapped? n = some m) : m ∈ n.preorder :=
  Node.namedChild_below (List.mem_of_find?_eq_some found)

theorem unwrap_below (n : Node) : unwrap n ∈ n.preorder := by
  fun_induction unwrap n with
  | case1 n wraps inner found ih => exact Node.preorder_trans (wrapped_below found) ih
  | case2 n wraps bare => exact Node.self_mem_preorder n
  | case3 n plain => exact Node.self_mem_preorder n

theorem keyed_whole {p : Node} {key : Option Node} {value : Option Node}
    (found : (key.map fun key => Entry.mk p key value) = some e) : e.whole = p := by
  obtain ⟨_, _, rfl⟩ := Option.map_eq_some_iff.mp found
  rfl

theorem entries_sublist (language : Language) (root : Node) :
    ((entries language root).map (·.whole)).Sublist root.preorder := by
  unfold entries
  simp only
  split
  · refine (sites_sublist ?_ _).trans (List.filter_sublist.trans ?_)
    · exact keyed_whole
    · cases found : root.childOfKind? ["object"] with
      | none => exact List.nil_sublist _
      | some object =>
        exact (Node.namedChildren_sublist object).trans
          (Node.preorder_sublist (Node.childOfKind_below found))
  · refine (sites_sublist ?_ _).trans (List.filter_sublist.trans ?_)
    · exact keyed_whole
    · refine (List.filter_sublist.flatMap Node.namedChildren).trans ?_
      rw [List.flatMap_map, List.flatMap_assoc]
      refine (List.filter_sublist.flatMap _).trans (Node.namedChildren_parts ?_ root)
      refine fun document => Node.namedChildren_parts (fun value => ?_) document
      exact (Node.namedChildren_sublist _).trans (Node.preorder_sublist (unwrap_below value))
  · exact (sites_sublist keyed_whole _).trans
      (List.filter_sublist.trans (Node.namedChildren_sublist root))

theorem locates (language : Language) :
    (rules language).Locates (.module (.of language)) where
  functions :=
    Rules.module_functions (.of language) (Rules.functionOf_built (.of language) .isPublic)
  classes := Rules.module_classes (.of language) (Rules.classOf_located (.of language) .isPublic)
  interfaces := Rules.none_found
  typeAliases _ := Rules.spanned_filterMap (fun _ => Node.collected_below)
    (Rules.typeAliasOf_located (.of language) .isPublic)
  bindings _ v member := by
    obtain ⟨e, entry, rfl⟩ := List.mem_map.mp member
    exact Context.spanned_below ((entries_sublist language _).subset (List.mem_map_of_mem entry))
  imports _ := Rules.empty_found
  exports _ := List.forall_mem_nil _

theorem orders (language : Language) : (rules language).Orders where
  functions placed _ := Rules.inOrder_filterMap placed (Node.moduleLevel_sublist _ _ _)
    (Rules.functionOf_located (.of language) .isPublic)
  interfaces _ := Rules.none_inOrder
  typeAliases placed := Rules.inOrder_filterMap placed (Node.moduleLevel_sublist _ _ _)
    (Rules.typeAliasOf_located (.of language) .isPublic)
  bindings placed := by
    have starts := placed.preorder_starts.sublist (entries_sublist language _)
    rw [List.pairwise_map] at starts
    exact Context.inOrder_map _ (·.whole) starts fun _ _ => rfl
  imports _ := Rules.empty_inOrder
  exports _ := .nil

theorem classes_inOrder (language : Language) : (rules language).OrdersClasses := fun placed _ =>
  Rules.inOrder_filterMap placed (Node.moduleLevel_sublist _ _ _)
    (Rules.classOf_location (.of language) .isPublic)

section Named

def bareNames (language : Language) : Rules.BareNames where
  bindings cx root :=
    (entries language root).map fun e => Text.unquote (cx.text (unwrap e.key))

theorem names (language : Language) : (rules language).Names (bareNames language) where
  functions _ _ := Rules.filled_filterMap (Rules.functionOf_filled (.of language) .isPublic)
  classes _ _ := Rules.filled_filterMap (Rules.classOf_filled (.of language) .isPublic)
  interfaces _ _ := Rules.filled_filterMap nofun
  typeAliases _ _ := Rules.filled_filterMap (Rules.typeAliasOf_filled (.of language) .isPublic)
  bindings _ _ := by
    simp only [rules, bareNames, List.map_map, Function.comp_def, entryVariable]

end Named

end CodeEntities.Data
