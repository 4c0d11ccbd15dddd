import CodeEntities.Proofs.Rules.Basic
import CodeEntities.Rules.Ruby
import Mathlib.Tactic.SplitIfs

namespace CodeEntities.Ruby

section Under

variable (cx : Context) (n : Node)

@[simp]
theorem command_full : command? cx.full = command? cx := rfl

@[simp]
theorem symbolName_full : symbolName cx.full = symbolName cx := rfl

theorem functionOf_under : functionOf cx n = (functionOf cx.full n).map (·.under cx.options) := by
  unfold functionOf
  rw [Option.map_map, Context.callable_full]
  exact Option.map_congr fun name _ => Context.function_under cx n name _

theorem method_under (visibility : Visibility) :
    method? cx visibility n = (method? cx.full visibility n).map (·.under cx.options) := by
  unfold method?
  rw [Option.map_map, Context.callable_full]
  exact Option.map_congr fun name _ => Context.method_under cx n name _ _

theorem any_named (o : Options) (properties : List PropertyDecl) (name : String) :
    (properties.map (·.under o)).any (·.name == name) = properties.any (·.name == name) :=
  List.any_map

theorem instanceVariables_under :
    instanceVariables cx n = (instanceVariables cx.full n).map (·.under cx.options) := by
  refine foldl_under (fun properties assign => ?_) _
  rw [Context.text_full]
  cases (assign.field? "left").filter (·.kind == "instance_variable") with
  | none => rfl
  | some left =>
    simp only [any_named]
    split
    · rfl
    · simp only [List.map_append, List.map_cons, List.map_nil, PropertyDecl.under,
        Options.docOf_none]
      rfl

theorem setVisibility_under (o : Options) (name : String) (visibility : Visibility)
    (methods : List MethodDecl) :
    setVisibility name visibility (methods.map (·.under o)) =
      (setVisibility name visibility methods).map (·.under o) := by
  induction methods with
  | nil => rfl
  | cons m rest ih =>
    have same : (m.under o).name = m.name := rfl
    simp only [List.map_cons, setVisibility, same]
    split
    · rfl
    · rw [ih, List.map_cons]

theorem addVisibilityArgument_under (visibility : Visibility) (members : Members) :
    addVisibilityArgument cx visibility (members.under cx.options) n =
      (addVisibilityArgument cx.full visibility members n).under cx.options := by
  unfold addVisibilityArgument
  rw [method_under cx, symbolName_full]
  split
  · cases method? cx.full visibility n with
    | none => rfl
    | some m => exact Members.under_addMethod m
  · simp only [Members.under, setVisibility_under]

theorem addVisibilityArguments_under (visibility : Visibility) (members : Members)
    (arguments : List Node) :
    arguments.foldl (addVisibilityArgument cx visibility) (members.under cx.options) =
      (arguments.foldl (addVisibilityArgument cx.full visibility) members).under cx.options :=
  List.foldl_hom (Members.under cx.options)
    fun members n => addVisibilityArgument_under cx n visibility members

theorem accessors_under (arguments : List Node) (isReadonly : Bool) :
    (arguments.map fun a =>
      { cx.property n (symbolName cx a) none .isPublic with isReadonly }) =
      (arguments.map fun a =>
        { cx.full.property n (symbolName cx a) none .isPublic with isReadonly }).map
          (·.under cx.options) := by
  rw [List.map_map]
  refine List.map_congr_left fun a _ => ?_
  rw [Context.property_under]
  rfl

def Body.under (o : Options) (body : Body) : Body :=
  { body with
    members := body.members.under o
    instanceVariables := body.instanceVariables.map (·.under o) }

theorem addCommand_under (body : Body) :
    addCommand cx (body.under cx.options) n = (addCommand cx.full body n).under cx.options := by
  unfold addCommand
  rw [command_full, symbolName_full, Context.trimmed_full]
  cases command? cx n with
  | none => rfl
  | some command =>
    obtain ⟨name, arguments⟩ := command
    simp only
    split_ifs
    · rw [accessors_under]
      simp only [Body.under, ← Members.under_addProperties]
    · rfl
    · cases visibilityWord? name with
      | none => rfl
      | some visibility => simp only [Body.under, addVisibilityArguments_under]

theorem addStatement_under (body : Body) :
    addStatement cx (body.under cx.options) n =
      (addStatement cx.full body n).under cx.options := by
  unfold addStatement
  rw [Context.trimmed_full, Context.name_full, Context.text_full, Context.fieldText_full,
    instanceVariables_under cx, method_under cx, method_under cx]
  split_ifs
  · simp only [Body.under]
  · rfl
  · have visibility : (body.under cx.options).visibility = body.visibility := rfl
    rw [visibility]
    cases method? cx.full body.visibility n with
    | none => rfl
    | some m => simp only [Option.map_some, Body.under, Members.under_addMethod]
  · cases (n.field? "left").filter (·.kind == "constant") with
    | none => rfl
    | some left =>
      simp only [Body.under, ← Members.under_addProperties]
      rfl
  · exact addCommand_under cx n body
  · rfl

theorem addNew_under (o : Options) (properties more : List PropertyDecl) :
    addNew (properties.map (·.under o)) (more.map (·.under o)) =
      (addNew properties more).map (·.under o) := by
  unfold addNew
  rw [List.foldl_map]
  refine List.foldl_hom (List.map (PropertyDecl.under o)) fun found p => ?_
  have same : (p.under o).name = p.name := rfl
  rw [same, any_named]
  split
  · rfl
  · rw [List.map_append]
    rfl

theorem body_under (nodes : List Node) :
    nodes.foldl (addStatement cx) {} =
      (nodes.foldl (addStatement cx.full) {}).under cx.options := by
  rw [← List.foldl_hom (Body.under cx.options) fun body n => addStatement_under cx n body]
  rfl

theorem class_under : class? cx n = (class? cx.full n).map (·.under cx.options) := by
  unfold class?
  rw [Option.map_map, body_under cx, Context.trimmed_full]
  refine Option.map_congr fun name _ => ?_
  simp only [Function.comp, ClassDecl.under, ClassDecl.membersUnder, Body.under, Members.under,
    addNew_under]
  rfl

theorem variablesOf_under :
    variablesOf cx n = (variablesOf cx.full n).map (·.under cx.options) := by
  unfold variablesOf
  rw [Context.text_full, Context.fieldText_full]
  cases n.field? "left" with
  | none => rfl
  | some left =>
    simp only
    split_ifs <;> rfl

theorem importsOf_full : importsOf cx.full = importsOf cx := by
  funext n
  unfold importsOf
  rw [command_full, Context.text_full, Context.location_full]

theorem obeys : rules.Obeys where
  functions cx _ := filterMap_under (functionOf_under cx) _
  classes cx _ := filterMap_under (class_under cx) _
  interfaces cx _ := filterMap_under (fun _ => by rfl) _
  typeAliases cx _ := filterMap_under (Rules.typeAliasOf_under .ruby .isPublic cx) _
  bindings cx _ := flatMap_under (variablesOf_under cx) _
  imports cx _ := Rules.imports_full (importsOf_full cx) _
  exports _ _ := rfl

end Under

section Located

variable {cx : Context} {n k root : Node} {visibility : Visibility}

theorem method_built {m : MethodDecl} (found : method? cx visibility n = some m) :
    m.function.BuiltFrom cx n [] := by
  obtain ⟨name, _, rfl⟩ := Option.map_eq_some_iff.mp found
  exact Context.function_built (Node.around_self n) name _

theorem instanceVariables_located : ∀ p ∈ instanceVariables cx n, cx.Spanned n p.location := by
  refine List.foldlRecOn (motive := fun properties : List PropertyDecl =>
    ∀ p ∈ properties, cx.Spanned n p.location) _ _ (List.forall_mem_nil _) ?_
  intro properties located assign member p found
  split at found
  · simp only at found
    split at found
    · exact located p found
    · rcases List.mem_append.mp found with old | new
      · exact located p old
      · rw [List.mem_singleton.mp new]
        exact Context.spanned_below (Node.collected_below member)
  · exact located p found

theorem setVisibility_located {F : FunctionDecl → Prop} {name : String}
    {methods : List MethodDecl} (located : ∀ m ∈ methods, F m.function) :
    ∀ m ∈ setVisibility name visibility methods, F m.function := by
  induction methods with
  | nil => exact located
  | cons first rest ih =>
    obtain ⟨here, others⟩ := List.forall_mem_cons.mp located
    unfold setVisibility
    split
    · exact List.forall_mem_cons.mpr ⟨here, others⟩
    · exact List.forall_mem_cons.mpr ⟨here, ih others⟩

theorem addVisibilityArgument_located {members : Members} (below : k ∈ n.preorder)
    (located : members.Located (cx.DeclaredBy n.preorder) (cx.Spanned n)) :
    (addVisibilityArgument cx visibility members k).Located (cx.DeclaredBy n.preorder)
      (cx.Spanned n) := by
  unfold addVisibilityArgument
  split
  · cases found : method? cx visibility k with
    | none => exact located
    | some m => exact located.addMethod (Context.declared_below below (method_built found))
  · exact ⟨setVisibility_located located.methods, located.properties, located.constructor⟩

theorem command_below {name : String} {arguments : List Node}
    (found : command? cx n = some (name, arguments)) : ∀ a ∈ arguments, a ∈ n.preorder := by
  unfold command? at found
  split at found
  · cases found
  · obtain ⟨_, _, same⟩ := Option.map_eq_some_iff.mp found
    cases same
    exact fun a member => Node.partChild_below (fun _ => Node.field_below) member

structure Body.Located (cx : Context) (n : Node) (body : Body) : Prop where
  members : body.members.Located (cx.DeclaredBy n.preorder) (cx.Spanned n)
  instanceVariables : ∀ p ∈ body.instanceVariables, cx.Spanned n p.location

theorem addCommand_located {body : Body} (below : k ∈ n.preorder) (located : body.Located cx n) :
    (addCommand cx body k).Located cx n := by
  obtain ⟨members, instances⟩ := located
  unfold addCommand
  split
  · exact ⟨members, instances⟩
  · rename_i name arguments found
    split_ifs
    · refine ⟨members.addProperties fun p member => ?_, instances⟩
      obtain ⟨a, _, rfl⟩ := List.mem_map.mp member
      exact Context.spanned_below below
    · exact ⟨members, instances⟩
    · split
      · refine ⟨Members.foldl_located ?_ members, instances⟩
        intro members a member
        have place := Node.preorder_trans below (command_below found a member)
        exact addVisibilityArgument_located place
      · exact ⟨members, instances⟩

theorem addStatement_located {body : Body} (below : k ∈ n.preorder) (located : body.Located cx n) :
    (addStatement cx body k).Located cx n := by
  have here : cx.Spanned n (cx.location k) := Context.spanned_below below
  obtain ⟨members, instances⟩ := located
  unfold addStatement
  split_ifs
  · exact ⟨members, instances⟩
  · refine ⟨⟨members.methods, members.properties, ?_⟩, ?_⟩
    · exact fun m found => Context.declared_below below (method_built found)
    · exact fun p member => (instanceVariables_located p member).up below
  · cases found : method? cx body.visibility k with
    | none => exact ⟨members, instances⟩
    | some m =>
      have declared := Context.declared_below below (method_built found)
      exact ⟨members.addMethod declared, instances⟩
  · split
    · refine ⟨members.addProperties fun p member => ?_, instances⟩
      rw [List.mem_singleton.mp member]
      exact here
    · exact ⟨members, instances⟩
  · exact addCommand_located below ⟨members, instances⟩
  · exact ⟨members, instances⟩

theorem addNew_located {P : Location → Prop} {properties more : List PropertyDecl}
    (located : ∀ p ∈ properties, P p.location) (places : ∀ p ∈ more, P p.location) :
    ∀ p ∈ addNew properties more, P p.location := by
  refine List.foldlRecOn (motive := fun found : List PropertyDecl => ∀ p ∈ found, P p.location)
    _ _ located ?_
  intro found before p new q member
  split at member
  · exact before q member
  · rcases List.mem_append.mp member with old | last
    · exact before q old
    · rw [List.mem_singleton.mp last]
      exact places p new

theorem class_located {c : ClassDecl} (found : class? cx n = some c) :
    c.Located (cx.DeclaredBy n.preorder) (cx.Spanned n) := by
  obtain ⟨name, _, rfl⟩ := Option.map_eq_some_iff.mp found
  have body : (((n.classBody?.map Node.namedChildren).getD []).foldl (addStatement cx) {}).Located
      cx n := by
    refine List.foldlRecOn (motive := Body.Located cx n) _ _ ?_ ?_
    · exact ⟨Members.empty_located, List.forall_mem_nil _⟩
    · exact fun body located k member => addStatement_located (Node.bodyChild_below member) located
  exact ⟨Context.spanned_self cx n, body.members.methods,
    addNew_located body.members.properties body.instanceVariables, body.members.constructor⟩

theorem classNodes_inside (member : k ∈ classNodes n) :
    k ∈ n.descendants ∧ k.kind ∈ ["module", "class"] := by
  fun_induction classNodes n with
  | case1 n ih =>
    obtain ⟨⟨c, child⟩, _, member⟩ := List.mem_flatMap.mp member
    have below := (Node.children_descend n).subset child
    simp only at member
    split at member
    · rename_i isModule
      rcases List.mem_cons.mp member with rfl | inner
      · exact ⟨below, by simp [eq_of_beq isModule]⟩
      · split at inner
        · rename_i body found
          obtain ⟨deeper, kind⟩ := ih c child body found inner
          have inside := Node.preorder_trans (Node.classBody_below found)
            ((Node.descendants_sublist body).subset deeper)
          exact ⟨Node.mem_descendants.mpr ⟨c, child, inside⟩, kind⟩
        · cases inner
    · split at member
      · rename_i isClass
        cases List.mem_singleton.mp member
        exact ⟨below, by simp [eq_of_beq isClass]⟩
      · cases member

theorem classNodes_below (member : k ∈ classNodes n) : k ∈ n.preorder :=
  (Node.descendants_sublist n).subset (classNodes_inside member).1

theorem variablesOf_located {v : VariableDecl} (member : v ∈ variablesOf cx n) :
    v.location = cx.location n := by
  unfold variablesOf at member
  simp only at member
  split at member
  · cases member
  · split_ifs at member
    · rw [List.mem_singleton.mp member]
    · rw [List.mem_singleton.mp member]
    · rw [List.mem_singleton.mp member]
    · cases member

theorem importsOf_located {i : ImportDecl} (member : i ∈ importsOf cx n) :
    i.location = cx.location n := by
  unfold importsOf at member
  split at member
  · split at member
    · rw [List.mem_singleton.mp member]
    · cases member
  · cases member

-- The methods of a module are declared below it, wherever the module stands.
def sites : Rules.Sites :=
  { Rules.Sites.module .ruby with homes := fun _ => classNodes }

theorem locates : rules.Locates sites where
  functions := Rules.module_functions .ruby (Context.function_read (Node.around_self _))
  classes := Rules.classes_located (fun _ => id) (fun _ => classNodes_below) class_located
  interfaces := Rules.none_found
  typeAliases _ := Rules.spanned_filterMap (fun _ => Node.collected_below)
    (Rules.typeAliasOf_located .ruby .isPublic)
  bindings _ := Rules.spanned_flatMap (fun _ => Node.collected_below) variablesOf_located
  imports _ := Rules.spanned_flatMap (fun _ => Node.collected_below) importsOf_located
  exports _ := List.forall_mem_nil _

theorem separates : rules.Separates sites where
  inOrder := Node.collectBelow_descends _ _
  reached := Rules.module_reached (by decide)
  homes h home := ⟨(classNodes_inside home).1, List.not_mem_nil⟩
  apart n site home := by
    have function : n.kind ∈ NodeKinds.ruby.functions := (Node.moduleLevel_reached site).2
    exact (by decide : ∀ k ∈ NodeKinds.ruby.functions, k ∉ ["module", "class"]) _ function
      (classNodes_inside home).2

theorem orders : rules.Orders where
  functions placed _ := Rules.inOrder_filterMap placed (Node.moduleLevel_sublist _ _ _)
    (Context.location_map fun _ => rfl)
  interfaces _ := Rules.none_inOrder
  typeAliases placed := Rules.inOrder_filterMap placed (Node.moduleLevel_sublist _ _ _)
    (Rules.typeAliasOf_located .ruby .isPublic)
  bindings placed := Rules.inOrder_flatMap placed (Node.moduleLevel_sublist _ _ _)
    variablesOf_located
  imports placed := Rules.inOrder_flatMap placed (Node.moduleLevel_sublist _ _ _) importsOf_located
  exports _ := .nil

theorem classNodes_sublist (n : Node) : (classNodes n).Sublist n.descendants := by
  fun_induction classNodes n with
  | case1 n ih =>
    refine List.Sublist.trans (List.Sublist.flatMap_right _ (g := fun c => c.1.preorder) ?_) ?_
    · rintro ⟨c, child⟩ _
      simp only
      split
      · rw [Node.preorder_eq]
        refine List.Sublist.cons_cons c ?_
        split
        · rename_i body found
          have inside : body ∈ c.descendants := by
            rcases Node.preorder_cases (Node.classBody_below found) with rfl | deeper
            · exact absurd (Node.size_classBody found) (Nat.lt_irrefl _)
            · exact deeper
          exact ((ih c child body found).trans (Node.descendants_sublist body)).trans
            (Node.descendant_sublist inside)
        · exact List.nil_sublist _
      · split
        · exact List.singleton_sublist.mpr (Node.self_mem_preorder c)
        · exact List.nil_sublist _
    · exact Node.attached_preorders n ▸ List.Sublist.refl _

theorem classes_inOrder : rules.OrdersClasses := fun placed _ =>
  Rules.inOrder_filterMap placed ((classNodes_sublist _).trans (Node.descendants_sublist _))
    (Context.location_map fun _ => rfl)

end Located

section Named

variable {cx : Context} {n : Node}

def boundName? (cx : Context) (n : Node) : Option String :=
  ((n.field? "left").filter fun left =>
    ["constant", "identifier", "global_variable"].contains left.kind).map cx.text

def bareNames : Rules.BareNames where
  bindings cx root :=
    (root.moduleLevel NodeKinds.ruby.bindings NodeKinds.ruby.wrappers).filterMap (boundName? cx)

theorem variablesOf_names : (variablesOf cx n).map (·.name) = (boundName? cx n).toList := by
  unfold variablesOf boundName?
  simp only
  cases n.field? "left" with
  | none => rfl
  | some left =>
    simp only [Option.filter_some, List.contains_cons, List.contains_nil, Bool.or_false]
    split_ifs <;> simp_all

theorem names : rules.Names bareNames where
  functions _ _ := Rules.filled_filterMap (Rules.named_map fun _ => rfl)
  classes _ _ := Rules.filled_filterMap (Rules.named_map fun _ => rfl)
  interfaces _ _ := Rules.filled_filterMap nofun
  typeAliases _ _ := Rules.filled_filterMap (Rules.typeAliasOf_filled .ruby .isPublic)
  bindings _ _ := Rules.bare_toList fun _ => variablesOf_names

end Named

end CodeEntities.Ruby
