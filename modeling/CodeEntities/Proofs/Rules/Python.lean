import CodeEntities.Proofs.Rules.Basic
import CodeEntities.Rules.Python
import Mathlib.Tactic.SplitIfs

namespace CodeEntities.Python

section Under

variable (cx : Context) (n : Node)

@[simp]
theorem decorators_full : decorators cx.full = decorators cx := rfl

@[simp]
theorem assignedNames_full : assignedNames cx.full = assignedNames cx := rfl

@[simp]
theorem selfAttribute_full : selfAttribute? cx.full = selfAttribute? cx := rfl

@[simp]
theorem isAbstractBase_full : isAbstractBase cx.full = isAbstractBase cx := rfl

@[simp]
theorem importedName_full : importedName? cx.full = importedName? cx := rfl

theorem bodyDoc_under : bodyDoc cx n = cx.options.docOf (bodyDoc cx.full n) := by
  have found : bodyDoc cx.full n =
    ((n.field? "body").bind (Node.docstring cx.source)).or (cx.full.doc n) := rfl
  rw [found]
  cases shown : cx.options.docComments <;>
    simp [bodyDoc, Options.docOf, Context.doc, Context.full, shown]

theorem functionOf_under : functionOf cx n = (functionOf cx.full n).map (·.under cx.options) := by
  unfold functionOf callable
  rw [Option.map_map, Context.callable_full]
  exact Option.map_congr fun name _ =>
    Context.function_ownDoc cx (decorated n) name _ _ _ _ (bodyDoc_under cx n)

theorem member_under : member? cx n = (member? cx.full n).map (·.under cx.options) := by
  unfold member? callable
  rw [Option.map_map, Context.callable_full, decorators_full]
  refine Option.map_congr fun name _ => ?_
  simp only [Function.comp]
  rw [Context.function_ownDoc cx (decorated n) name _ _ _ _ (bodyDoc_under cx n)]
  rfl

theorem classAttributes_under :
    classAttributes cx n = (classAttributes cx.full n).map (·.under cx.options) := by
  unfold classAttributes
  rw [assignedNames_full]
  cases assignment? n with
  | none => rfl
  | some assign =>
    cases left : assign.field? "left" with
    | none => simp only [left, List.map_nil]
    | some left' =>
      simp only [left, List.map_map]
      rfl

theorem instanceAttributes_under (known : List PropertyDecl) :
    instanceAttributes cx n (known.map (·.under cx.options)) =
      (instanceAttributes cx.full n known).map (·.under cx.options) := by
  have named (name : String) (properties : List PropertyDecl) :
      (properties.map (·.under cx.options)).any (·.name == name) =
        properties.any (·.name == name) := by
    rw [List.any_map]
    rfl
  unfold instanceAttributes
  refine List.foldl_hom (List.map (PropertyDecl.under cx.options)) fun properties assign => ?_
  rw [selfAttribute_full]
  cases selfAttribute? cx assign with
  | none => rfl
  | some name =>
    simp only [named]
    split
    · rfl
    · rw [List.map_append]
      rfl

theorem addMember_under (members : Members) :
    addMember cx (members.under cx.options) n =
      (addMember cx.full members n).under cx.options := by
  unfold addMember
  rw [classAttributes_under cx]
  simp only
  rw [member_under cx]
  split_ifs
  · cases member? cx.full (definition n) with
    | none => rfl
    | some m =>
      have name : (m.under cx.options).name = m.name := rfl
      have slot : (members.under cx.options).constructor.isNone = members.constructor.isNone :=
        Option.isNone_map
      simp only [Option.map_some, name, slot]
      split
      · simp only [Members.under, instanceAttributes_under]
        rfl
      · exact Members.under_addMethod m
  · rfl
  · exact Members.under_addProperties _
  · rfl

theorem members_under (nodes : List Node) :
    nodes.foldl (addMember cx) {} = (nodes.foldl (addMember cx.full) {}).under cx.options :=
  Members.foldl_under (fun m n => addMember_under cx n m) _

theorem classOf_under : classOf cx n = (classOf cx.full n).map (·.under cx.options) := by
  unfold classOf
  rw [Option.map_map, isAbstractBase_full]
  refine Option.map_congr fun name _ => ?_
  have abstract (methods : List MethodDecl) :
      (methods.map (·.under cx.options)).any (·.isAbstract) = methods.any (·.isAbstract) :=
    List.any_map
  simp only [Function.comp, ClassDecl.under, ClassDecl.membersUnder, ← bodyDoc_under]
  rw [members_under]
  simp only [Members.under, abstract]
  rfl

theorem typeAliasOf_under :
    typeAliasOf cx n = (typeAliasOf cx.full n).map (·.under cx.options) := by
  unfold typeAliasOf
  rw [Option.map_map]
  rfl

theorem variablesOf_under :
    variablesOf cx n = (variablesOf cx.full n).map (·.under cx.options) := by
  unfold variablesOf
  rw [assignedNames_full]
  cases assignment? n with
  | none => rfl
  | some assign =>
    cases left : assign.field? "left" with
    | none => simp only [left, List.map_nil]
    | some left' =>
      simp only [left, List.map_map]
      rfl

theorem importsOf_full : importsOf cx.full = importsOf cx := by
  funext n
  unfold importsOf
  rw [importedName_full, Context.fieldText_full, Context.location_full]

theorem exports_full : exports cx.full = exports cx := by
  funext root
  unfold exports
  rw [Context.fieldText_full, Context.text_full, Context.location_full]

theorem obeys : rules.Obeys where
  functions cx _ := filterMap_under (functionOf_under cx) _
  classes cx _ := filterMap_under (classOf_under cx) _
  interfaces cx _ := filterMap_under (fun _ => by rfl) _
  typeAliases cx _ := filterMap_under (typeAliasOf_under cx) _
  bindings cx _ := flatMap_under (variablesOf_under cx) _
  imports cx _ := Rules.imports_full (importsOf_full cx) _
  exports cx root := (congrFun (exports_full cx) root).symm

end Under

section Located

variable {cx : Context} {n k root : Node}

theorem decorated_below (inside : n ∈ root.descendants) : decorated n ∈ root.preorder :=
  Node.heldIn_below inside

theorem definition_below (n : Node) : definition n ∈ n.preorder := by
  unfold definition
  split
  · cases found : n.field? "definition" with
    | none => exact Node.self_mem_preorder n
    | some d => exact Node.field_below found
  · exact Node.self_mem_preorder n

theorem decorated_around (n : Node) : n.Around (decorated n) :=
  Node.heldIn_around (by simp [Node.holderKinds])

theorem functionOf_built {f : FunctionDecl} (found : functionOf cx n = some f) :
    f.BuiltFrom cx n [] :=
  Context.function_read (decorated_around n) found

theorem functionOf_located {f : FunctionDecl} (found : functionOf cx n = some f) :
    f.location = cx.location (decorated n) :=
  Context.location_map (fun _ => rfl) found

theorem member_built {m : MethodDecl} (found : member? cx n = some m) :
    m.function.BuiltFrom cx n [] := by
  obtain ⟨name, _, rfl⟩ := Option.map_eq_some_iff.mp found
  exact Context.function_built (decorated_around n) name _

theorem classAttributes_located : ∀ p ∈ classAttributes cx n, p.location = cx.location n := by
  intro p member
  unfold classAttributes at member
  split at member
  · cases member
  · split at member
    · cases member
    · obtain ⟨name, _, rfl⟩ := List.mem_map.mp member
      rfl

theorem instanceAttributes_located {known : List PropertyDecl} (below : n ∈ root.preorder)
    (located : ∀ p ∈ known, cx.Spanned root p.location) :
    ∀ p ∈ instanceAttributes cx n known, cx.Spanned root p.location := by
  refine List.foldlRecOn (motive := fun properties : List PropertyDecl =>
    ∀ p ∈ properties, cx.Spanned root p.location) _ _ located ?_
  intro properties located assign member p found
  have inside : assign ∈ n.preorder := by
    cases body : n.field? "body" with
    | none =>
      rw [body] at member
      cases member
    | some b =>
      rw [body] at member
      exact Node.preorder_trans (Node.field_below body) (Node.collected_below member)
  split at found
  · split at found
    · exact located p found
    · rcases List.mem_append.mp found with old | new
      · exact located p old
      · rw [List.mem_singleton.mp new]
        exact Context.spanned_below (Node.preorder_trans below inside)
  · exact located p found

theorem addMember_located {members : Members} (child : k ∈ n.children)
    (located : members.Located (cx.DeclaredBy n.preorder) (cx.Spanned n)) :
    (addMember cx members k).Located (cx.DeclaredBy n.preorder) (cx.Spanned n) := by
  have inner : definition k ∈ n.preorder :=
    Node.preorder_trans (Node.child_below child) (definition_below k)
  unfold addMember
  simp only
  split_ifs
  · cases found : member? cx (definition k) with
    | none => exact located
    | some m =>
      have declared := Context.declared_below inner (member_built found)
      simp only
      split
      · refine ⟨located.methods, ?_, ?_⟩
        · exact instanceAttributes_located inner located.properties
        · intro x taken
          cases taken
          exact declared
      · exact located.addMethod declared
  · exact located
  · refine located.addProperties fun p member => ?_
    rw [classAttributes_located p member]
    exact Context.spanned_below (Node.child_below child)
  · exact located

theorem members_located (cx : Context) (n : Node) :
    ((((n.field? "body").map Node.namedChildren).getD []).foldl (addMember cx) {}).Located
      (cx.DeclaredBy n.preorder) (cx.Spanned n) := by
  cases found : n.field? "body" with
  | none => exact Members.empty_located
  | some body =>
    have located : (body.namedChildren.foldl (addMember cx) {}).Located
        (cx.DeclaredBy body.preorder) (cx.Spanned body) :=
      Members.foldl_located
        (fun members k member => addMember_located (List.mem_filter.mp member).1)
        Members.empty_located
    have below := Node.field_below found
    exact located.imp (fun _ declared => declared.imp (Node.preorder_sublist below))
      fun _ spanned => spanned.up below

theorem classOf_located {c : ClassDecl} (inside : n ∈ root.descendants)
    (found : classOf cx n = some c) : c.Located (cx.DeclaredBy n.preorder) (cx.Spanned root) := by
  obtain ⟨name, _, rfl⟩ := Option.map_eq_some_iff.mp found
  have own := (members_located cx n).imp (fun _ => id) fun _ spanned =>
    spanned.up ((Node.descendants_sublist root).subset inside)
  exact ⟨Context.spanned_below (decorated_below inside), own.methods, own.properties,
    own.constructor⟩

theorem variablesOf_located {v : VariableDecl} (member : v ∈ variablesOf cx n) :
    v.location = cx.location n := by
  unfold variablesOf at member
  split at member
  · cases member
  · split at member
    · cases member
    · obtain ⟨name, _, rfl⟩ := List.mem_map.mp member
      rfl

theorem importsOf_located {i : ImportDecl} (member : i ∈ importsOf cx n) :
    i.location = cx.location n := by
  unfold importsOf at member
  simp only at member
  split at member
  · obtain ⟨entry, _, rfl⟩ := List.mem_map.mp member
    rfl
  · split at member
    · cases member
    · rw [List.mem_singleton.mp member]

theorem assignment_below (found : assignment? n = some k) : k ∈ n.preorder :=
  Node.namedChild_below (List.mem_of_head? (Option.filter_eq_some_iff.mp found).1)

def exportedStrings (cx : Context) (statement : Node) : List Node :=
  match assignment? statement with
  | none => []
  | some assign =>
    if cx.fieldText? assign "left" == some "__all__" then
      (((assign.field? "right").map Node.namedChildren).getD []).filter (·.kind == "string")
    else []

theorem exports_eq : exports cx root =
    ((root.moduleLevel ["expression_statement"] []).flatMap (exportedStrings cx)).map fun item =>
      { name := Text.unquote (cx.text item), kind := .named, location := cx.location item } := by
  unfold exports exportedStrings
  rw [List.map_flatMap]
  congr
  funext statement
  cases assignment? statement with
  | none => rfl
  | some assign =>
    simp only
    split
    · rfl
    · rfl

theorem exportedStrings_sublist (cx : Context) (n : Node) :
    (exportedStrings cx n).Sublist n.preorder := by
  unfold exportedStrings
  split
  · exact List.nil_sublist _
  · rename_i assign found
    have below := Node.preorder_sublist (assignment_below found)
    split
    · refine (List.filter_sublist.trans ?_).trans below
      cases value : assign.field? "right" with
      | none => exact List.nil_sublist _
      | some list =>
        have inside := Node.preorder_sublist (Node.field_below value)
        exact (Node.namedChildren_sublist list).trans inside
    · exact List.nil_sublist _

theorem exports_sublist (cx : Context) (root : Node) :
    ((root.moduleLevel ["expression_statement"] []).flatMap (exportedStrings cx)).Sublist
      root.preorder :=
  Node.collectBelow_parts (exportedStrings_sublist cx) root

theorem locates : rules.Locates (.module .python) where
  functions := Rules.module_functions .python functionOf_built
  classes c member := by
    obtain ⟨n, found, result⟩ := List.mem_filterMap.mp member
    exact (classOf_located (Node.collected_descends found) result).imp
      (fun _ declared => ⟨n, List.mem_append_left _ found, declared⟩) fun _ spanned _ => spanned
  interfaces := Rules.none_found
  typeAliases _ := Rules.spanned_filterMap (fun _ => Node.collected_below)
    (Context.location_map fun _ => rfl)
  bindings _ := Rules.spanned_flatMap (fun _ => Node.collected_below) variablesOf_located
  imports _ := Rules.spanned_flatMap (fun _ => Node.collected_below) importsOf_located
  exports _ e member := by
    simp only [rules, exports_eq] at member
    obtain ⟨item, found, rfl⟩ := List.mem_map.mp member
    exact Context.spanned_below ((exports_sublist _ _).subset found)

theorem orders : rules.Orders where
  functions placed single := Context.inOrder_filterMap _ decorated
    (Node.heldIn_inOrder placed fun w below holder =>
      single w below (by simp [holder, Node.holderKinds]))
    fun _ _ _ found => congrArg Location.opening (functionOf_located found)
  interfaces _ := Rules.none_inOrder
  typeAliases placed := Rules.inOrder_filterMap placed (Node.moduleLevel_sublist _ _ _)
    (Context.location_map fun _ => rfl)
  bindings placed := Rules.inOrder_flatMap placed (Node.moduleLevel_sublist _ _ _)
    variablesOf_located
  imports placed := Rules.inOrder_flatMap placed (Node.moduleLevel_sublist _ _ _) importsOf_located
  exports placed := by
    simp only [rules, exports_eq]
    exact Context.inOrder_map _ id (placed.preorder_starts.sublist (exports_sublist _ _))
      fun _ _ => rfl

theorem classOf_location {c : ClassDecl} (found : classOf cx n = some c) :
    c.location = cx.location (decorated n) :=
  Context.location_map (fun _ => rfl) found

theorem classes_inOrder : rules.OrdersClasses := fun placed single =>
  Context.inOrder_filterMap _ decorated
    (Node.heldIn_inOrder placed fun w below holder =>
      single w below (by simp [holder, Node.holderKinds]))
    fun _ _ _ found => congrArg Location.opening (classOf_location found)

end Located

section Named

variable {cx : Context} {n : Node}

def bareNames : Rules.BareNames where
  typeAliases cx root :=
    (root.moduleLevel NodeKinds.python.typeAliases NodeKinds.python.wrappers).filterMap fun n =>
      ((n.field? "left").filter fun left => (cx.name? left).isNone).map cx.text
  bindings cx root :=
    (root.moduleLevel NodeKinds.python.bindings NodeKinds.python.wrappers).flatMap fun n =>
      (((assignment? n).bind (·.field? "left")).map (assignedNames cx)).getD []

theorem typeAliasOf_names : (typeAliasOf cx n).map (·.name) = some "" ↔
    ((n.field? "left").filter fun left => (cx.name? left).isNone).map cx.text = some "" := by
  unfold typeAliasOf
  cases n.field? "left" with
  | none => simp
  | some left =>
    cases named : cx.name? left with
    | none => simp [named]
    | some name => simp [named, Context.name_filled named]

theorem variablesOf_names : (variablesOf cx n).map (·.name) =
    (((assignment? n).bind (·.field? "left")).map (assignedNames cx)).getD [] := by
  unfold variablesOf
  cases assignment? n with
  | none => rfl
  | some assign =>
    cases left : assign.field? "left" with
    | none => simp [left]
    | some side => simp [left, Function.comp_def]

theorem names : rules.Names bareNames where
  functions _ _ := Rules.filled_filterMap (Rules.named_map fun _ => rfl)
  classes _ _ := Rules.filled_filterMap (Rules.named_map fun _ => rfl)
  interfaces _ _ := Rules.filled_filterMap nofun
  typeAliases _ _ := Rules.bare_filterMap fun _ => typeAliasOf_names
  bindings _ _ := Rules.bare_flatMap fun _ => by rw [variablesOf_names]

end Named

end CodeEntities.Python
