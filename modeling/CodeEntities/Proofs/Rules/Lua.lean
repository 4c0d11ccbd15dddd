import CodeEntities.Proofs.Rules.Attached
import CodeEntities.Proofs.Rules.Declarations
import CodeEntities.Rules.Lua

namespace CodeEntities.Lua

section Under

variable (cx : Context) (n : Node)

@[simp]
theorem requiredModule_full : requiredModule? cx.full = requiredModule? cx := rfl

@[simp]
theorem parameters_full : parameters cx.full = parameters cx := rfl

theorem functionOf_under : functionOf cx n = (functionOf cx.full n).map (·.under cx.options) := by
  unfold functionOf
  rw [Option.map_map, parameters_full, Context.text_full]
  exact Option.map_congr fun name _ => Context.function_under cx n _ _

def TableFunction.under (o : Options) (f : TableFunction) : TableFunction :=
  { f with method := f.method.under o }

theorem tableFunction_under :
    tableFunction? cx n = (tableFunction? cx.full n).map (·.under cx.options) := by
  unfold tableFunction?
  rw [Context.text_full, parameters_full]
  cases n.field? "name" with
  | none => rfl
  | some name =>
    simp only [Option.bind_eq_bind, Option.bind_some]
    split
    · rfl
    · cases name.field? "table" with
      | none => rfl
      | some table =>
        let field := if name.kind == "method_index_expression" then "method" else "field"
        cases name.field? field with
        | none => rfl
        | some member =>
          exact congrArg (some ∘ TableFunction.mk _) (Context.method_under cx n _ _ _)

theorem attach_under (o : Options) (classes : List ClassDecl) (f : TableFunction) :
    attach (classes.map (·.under o)) (f.under o) = (attach classes f).map (·.under o) := by
  induction classes with
  | nil =>
    simp only [List.map_nil, attach, List.map_cons, ClassDecl.under, ClassDecl.membersUnder,
      Options.docOf_none]
    rfl
  | cons c rest ih =>
    have name : (c.under o).name = c.name := rfl
    have table : (f.under o).table = f.table := rfl
    simp only [List.map_cons, attach, name, table]
    split
    · simp only [List.map_cons, ClassDecl.under, ClassDecl.membersUnder, List.map_append]
      rfl
    · simp [ih]

theorem classes_under : classes cx n = (classes cx.full n).map (·.under cx.options) := by
  unfold classes
  rw [filterMap_under (tableFunction_under cx), List.foldl_map]
  exact foldl_under (fun found f => attach_under cx.options found f) _

theorem variablesOf_under :
    variablesOf cx n = (variablesOf cx.full n).map (·.under cx.options) := by
  unfold variablesOf
  rw [requiredModule_full]
  simp only [List.map_map]
  rfl

theorem importsOf_full : importsOf cx.full = importsOf cx := by
  funext n
  unfold importsOf
  rw [requiredModule_full, Context.text_full, Context.location_full]

theorem obeys : rules.Obeys where
  functions cx _ := filterMap_under (functionOf_under cx) _
  classes := classes_under
  interfaces cx _ := filterMap_under (fun _ => by rfl) _
  typeAliases cx _ := filterMap_under (Rules.typeAliasOf_under .lua .isPublic cx) _
  bindings cx _ := flatMap_under (variablesOf_under cx) _
  imports cx _ := Rules.imports_full (importsOf_full cx) _
  exports _ _ := rfl

end Under

section Located

variable {cx : Context} {n k root : Node} {seen : List Node} {F : FunctionDecl → Prop}

theorem functionOf_name {f : FunctionDecl} (found : functionOf cx n = some f) :
    (n.field? "name").map (·.kind) = some "identifier" := by
  obtain ⟨name, read, _⟩ := Option.map_eq_some_iff.mp found
  obtain ⟨field, plain⟩ := Option.filter_eq_some_iff.mp read
  rw [field, Option.map_some, eq_of_beq plain]

theorem tableFunction_name {f : TableFunction} (found : tableFunction? cx n = some f) :
    (n.field? "name").map (·.kind) ∈
      [some "method_index_expression", some "dot_index_expression"] := by
  obtain ⟨name, field, found⟩ := Option.bind_eq_some_iff.mp found
  simp only at found
  split at found
  · cases found
  · rename_i index
    rw [field, Option.map_some]
    simp only [Bool.and_eq_true, Bool.not_eq_true', bne_iff_ne, beq_eq_false_iff_ne, not_and,
      not_not, ne_eq] at index
    by_cases method : name.kind = "method_index_expression"
    · rw [method]
      exact List.mem_cons_self ..
    · rw [index method]
      exact List.mem_cons_of_mem _ (List.mem_cons_self ..)

theorem functionOf_built {f : FunctionDecl} (found : functionOf cx n = some f) :
    f.BuiltFrom cx n [] := by
  obtain ⟨name, _, rfl⟩ := Option.map_eq_some_iff.mp found
  exact Context.function_built (Node.around_self n) _ _

theorem tableFunction_built {f : TableFunction} (found : tableFunction? cx n = some f) :
    f.method.function.BuiltFrom cx n [] ∧ f.method.function.location = cx.location n := by
  obtain ⟨name, _, found⟩ := Option.bind_eq_some_iff.mp found
  simp only at found
  split at found
  · cases found
  · obtain ⟨table, _, found⟩ := Option.bind_eq_some_iff.mp found
    obtain ⟨member, _, same⟩ := Option.bind_eq_some_iff.mp found
    cases same
    exact ⟨Context.function_built (Node.around_self n) _ _, rfl⟩

-- A table is where the functions seen so far are, and grows with each of them.
def tableClass (f : TableFunction) : ClassDecl where
  name := f.table
  kind := .moduleLike
  methods := [f.method]
  location := f.method.function.location
  modifiers := .ofList [.exported]

def grow (f : TableFunction) (c : ClassDecl) : ClassDecl :=
  { c with
    methods := c.methods ++ [f.method]
    location := { c.location with
      endLine := f.method.function.location.endLine
      endColumn := f.method.function.location.endColumn } }

theorem attach_attaches (classes : List ClassDecl) (f : TableFunction) :
    Rules.Attaches f.table (grow f) (tableClass f) classes (attach classes f) := by
  induction classes with
  | nil => exact .new
  | cons c rest ih =>
    unfold attach
    simp only
    split
    · next own => exact .owner (beq_iff_eq.mp own)
    · next other => exact .past (fun own => other (beq_iff_eq.mpr own)) ih

theorem attach_located {classes : List ClassDecl} {f : TableFunction}
    (place : f.method.function.location = cx.location k) (declared : F f.method.function)
    (located : ∀ c ∈ classes, c.Located F (cx.Stretch seen)) :
    ∀ c ∈ attach classes f, c.Located F (cx.Stretch (seen ++ [k])) := by
  have pass : ∀ c : ClassDecl, c.Located F (cx.Stretch seen) →
      c.Located F (cx.Stretch (seen ++ [k])) := fun c located =>
    located.imp (fun _ => id) fun _ stretch => stretch.pass k
  refine (attach_attaches classes f).forall located pass (fun c here => ?_) ?_
  · rw [grow, place]
    exact ⟨here.place.extend k, (pass c here).members.addMethod declared⟩
  · refine ⟨?_, Members.empty_located.addMethod declared⟩
    rw [tableClass, place]
    exact Context.stretch_node (List.mem_append_right seen (List.mem_singleton_self k))

def sites : Rules.Sites where
  functions cx root :=
    (root.moduleLevel NodeKinds.lua.functions NodeKinds.lua.wrappers).filter fun n =>
      (functionOf cx n).isSome
  homes cx root :=
    (root.moduleLevel NodeKinds.lua.classes NodeKinds.lua.wrappers).filter fun n =>
      (tableFunction? cx n).isSome

theorem functions_declared : ∀ f ∈ rules.functions cx root,
    cx.DeclaredBy (sites.functions cx root) f := by
  intro f member
  obtain ⟨n, candidate, found⟩ := List.mem_filterMap.mp member
  refine Context.declared_below (List.mem_filter.mpr ⟨candidate, ?_⟩) (functionOf_built found)
  exact Option.isSome_of_eq_some found

theorem classes_located : ∀ c ∈ classes cx root,
    c.Located (cx.Homed (sites.homes cx root)) (cx.Placed root) := by
  have located : ∀ c ∈ classes cx root, c.Located (cx.Homed (sites.homes cx root))
      (cx.Stretch (root.moduleLevel NodeKinds.lua.classes NodeKinds.lua.wrappers)) := by
    unfold classes
    rw [List.foldl_filterMap]
    refine Context.foldl_seen (motive := fun seen found => ∀ c ∈ found,
      ClassDecl.Located (cx.Homed (sites.homes cx root)) (cx.Stretch seen) c)
      (List.forall_mem_nil _) ?_
    intro seen k classes candidate located
    cases found : tableFunction? cx k with
    | none =>
      exact fun c member => (located c member).imp (fun _ => id) fun _ stretch => stretch.pass k
    | some f =>
      obtain ⟨built, place⟩ := tableFunction_built found
      have listed := candidate.subset (List.mem_append_right seen (List.mem_singleton_self k))
      have home : k ∈ sites.homes cx root :=
        List.mem_filter.mpr ⟨listed, Option.isSome_of_eq_some found⟩
      have declared := Context.declared_below (Node.self_mem_preorder k) built
      exact attach_located place ⟨k, home, declared⟩ located
  intro c member
  exact (located c member).imp (fun _ => id)
    fun _ stretch => stretch.placed (Node.collectBelow_descends _ root)

theorem variablesOf_located {v : VariableDecl} (member : v ∈ variablesOf cx n) :
    v.location = cx.location n := by
  obtain ⟨entry, _, rfl⟩ := List.mem_map.mp member
  rfl

theorem importsOf_located {i : ImportDecl} (member : i ∈ importsOf cx n) :
    i.location = cx.location n := by
  unfold importsOf at member
  split at member
  · split at member
    · rw [List.mem_singleton.mp member]
    · cases member
  · obtain ⟨entry, _, result⟩ := List.mem_filterMap.mp member
    obtain ⟨source, _, rfl⟩ := Option.map_eq_some_iff.mp result
    rfl

theorem locates : rules.Locates sites where
  functions := functions_declared
  classes := classes_located
  interfaces := Rules.none_found
  typeAliases _ := Rules.spanned_filterMap (fun _ => Node.collected_below)
    (Rules.typeAliasOf_located .lua .isPublic)
  bindings _ := Rules.spanned_flatMap (fun _ => Node.collected_below) variablesOf_located
  imports _ := Rules.spanned_flatMap (fun _ => Node.collected_below) importsOf_located
  exports _ := List.forall_mem_nil _

theorem separates : rules.Separates sites where
  inOrder := List.filter_sublist.trans (Node.collectBelow_descends _ _)
  reached n site := Rules.module_reached (by decide) n (List.mem_filter.mp site).1
  homes h home := ⟨Node.collected_descends (List.mem_filter.mp home).1, List.not_mem_nil⟩
  apart n site home := by
    obtain ⟨f, function⟩ := Option.isSome_iff_exists.mp (List.mem_filter.mp site).2
    obtain ⟨g, method⟩ := Option.isSome_iff_exists.mp (List.mem_filter.mp home).2
    have index := tableFunction_name method
    rw [functionOf_name function] at index
    exact absurd index (by decide)

theorem orders : rules.Orders where
  functions placed _ := Rules.inOrder_filterMap placed (Node.moduleLevel_sublist _ _ _)
    (Context.location_map fun _ => rfl)
  interfaces _ := Rules.none_inOrder
  typeAliases placed := Rules.inOrder_filterMap placed (Node.moduleLevel_sublist _ _ _)
    (Rules.typeAliasOf_located .lua .isPublic)
  bindings placed := Rules.inOrder_flatMap placed (Node.moduleLevel_sublist _ _ _)
    variablesOf_located
  imports placed := Rules.inOrder_flatMap placed (Node.moduleLevel_sublist _ _ _) importsOf_located
  exports _ := .nil

theorem classes_inOrder : rules.OrdersClasses := fun {cx root} placed _ => by
  have entries : InOrder (fun f => f.method.function.location)
      ((root.moduleLevel NodeKinds.lua.classes NodeKinds.lua.wrappers).filterMap
        (tableFunction? cx)) :=
    Rules.inOrder_filterMap placed (Node.moduleLevel_sublist _ _ _)
      fun found => (tableFunction_built found).2
  exact Rules.foldl_inOrder (fun f => (tableClass f).head)
    (fun found f => (attach_attaches found f).appends (fun _ => rfl) rfl) entries

end Located

section Named

variable {cx : Context} {n : Node}

def boundNames (cx : Context) (n : Node) : List String :=
  ((bindings n).filter fun (name, value) =>
    name.kind == "identifier" && (value.bind (requiredModule? cx)).isNone).map fun (name, _) =>
      cx.text name

def bareNames : Rules.BareNames where
  functions cx root :=
    (root.moduleLevel NodeKinds.lua.functions NodeKinds.lua.wrappers).filterMap fun n =>
      ((n.field? "name").filter (·.kind == "identifier")).map cx.text
  classes cx root :=
    (root.moduleLevel NodeKinds.lua.classes NodeKinds.lua.wrappers).filterMap fun n =>
      (tableFunction? cx n).map (·.table)
  bindings cx root :=
    (root.moduleLevel NodeKinds.lua.bindings NodeKinds.lua.wrappers).flatMap (boundNames cx)

theorem attach_names {classes : List ClassDecl} {f : TableFunction} :
    "" ∈ (attach classes f).map (·.name) ↔ "" ∈ classes.map (·.name) ∨ f.table = "" :=
  (attach_attaches classes f).names (fun _ => rfl) rfl

theorem classes_names {root : Node} : "" ∈ (classes cx root).map (·.name) ↔
    "" ∈ (root.moduleLevel NodeKinds.lua.classes NodeKinds.lua.wrappers).filterMap fun n =>
      (tableFunction? cx n).map (·.table) := by
  unfold classes
  rw [List.foldl_filterMap, Rules.grown_names fun n => (tableFunction? cx n).map (·.table)]
  · simp
  · intro classes m
    cases tableFunction? cx m with
    | none => simp
    | some f => simp [attach_names]

theorem names : rules.Names bareNames where
  functions _ _ := Rules.bare_filterMap fun n => by rw [functionOf, Option.map_map]; rfl
  classes _ _ := classes_names
  interfaces _ _ := Rules.filled_filterMap nofun
  typeAliases _ _ := Rules.filled_filterMap (Rules.typeAliasOf_filled .lua .isPublic)
  bindings _ _ := Rules.bare_flatMap fun n => by rw [variablesOf, List.map_map]; rfl

end Named

section Declared

variable {cx : Context} {n m s root : Node} {v w : Option Node}

def isVariable (cx : Context) (b : Node × Option Node) : Bool :=
  b.1.kind == "identifier" && (b.2.bind (requiredModule? cx)).isNone

def variableSites (cx : Context) (n : Node) : List Node :=
  ((bindings n).filter (isVariable cx)).map (·.1)

def importSites (cx : Context) (n : Node) : List Node :=
  if n.kind == "function_call" then (importsOf cx n).map fun _ => n
  else (bindings n).flatMap fun b => (b.2.bind (requiredModule? cx)).toList.map fun _ => b.1

def bindingSites (cx : Context) (root : Node) : Rules.BindingSites where
  functions := Rules.itself (fun n => (functionOf cx n).toList)
    (root.moduleLevel NodeKinds.lua.functions NodeKinds.lua.wrappers)
  bindings := (root.moduleLevel NodeKinds.lua.bindings NodeKinds.lua.wrappers).flatMap
    (variableSites cx)
  imports := (root.moduleLevel NodeKinds.lua.imports NodeKinds.lua.wrappers).flatMap
    (importSites cx)

theorem bindings_eq (n : Node) : bindings n = [] ∨
    ∃ list ∈ n.preorder, ∃ value : Nat → Option Node,
      bindings n = (list.childrenByField "name").zipIdx.map fun b => (b.1, value b.2) := by
  unfold bindings
  simp only
  split
  · rename_i a found
    have below : a ∈ n.preorder := by
      split at found
      · cases found
        exact Node.self_mem_preorder n
      · exact Node.childOfKind_below found
    have inside : (a.childOfKind? ["variable_list"]).getD a ∈ a.preorder := by
      cases listed : a.childOfKind? ["variable_list"] with
      | none => exact Node.self_mem_preorder a
      | some list => exact Node.childOfKind_below listed
    exact .inr ⟨_, Node.preorder_trans below inside, _, rfl⟩
  · split
    · rename_i list found
      refine .inr ⟨list, Node.childOfKind_below found, fun _ => none, ?_⟩
      nth_rewrite 1 [← List.zipIdx_map_fst 0 (list.childrenByField "name")]
      rw [List.map_map]
      rfl
    · exact .inl rfl

theorem binding_below (bound : (s, v) ∈ bindings n) : s ∈ n.descendants := by
  rcases bindings_eq n with empty | ⟨list, below, value, same⟩
  · rw [empty] at bound
    cases bound
  · rw [same] at bound
    obtain ⟨⟨name, i⟩, named, same⟩ := List.mem_map.mp bound
    cases same
    have child := (List.mem_filter.mp (List.fst_mem_of_mem_zipIdx named)).1
    rcases Node.preorder_cases below with rfl | deeper
    · exact (Node.children_descend list).subset child
    · exact (Node.descendant_sublist deeper).subset (Node.child_below child)

theorem binding_inside (bound : (s, v) ∈ bindings n) : s ∈ n.preorder :=
  (Node.descendants_sublist n).subset (binding_below bound)

theorem binding_unique (first : (s, v) ∈ bindings n) (second : (s, w) ∈ bindings n) : v = w := by
  rcases bindings_eq n with empty | ⟨list, _, value, same⟩
  · rw [empty] at first
    cases first
  · rw [same] at first second
    obtain ⟨⟨a, i⟩, left, leftSame⟩ := List.mem_map.mp first
    obtain ⟨⟨b, j⟩, right, rightSame⟩ := List.mem_map.mp second
    cases leftSame
    cases rightSame
    have distinct := (Node.children_nodup list).filter (·.label.field == some "name")
    have place := List.mem_zipIdx_iff_getElem?.mp left
    have other := List.mem_zipIdx_iff_getElem?.mp right
    have inside := (List.getElem?_eq_some_iff.mp place).1
    rw [(List.getElem?_inj inside distinct).mp (place.trans other.symm)]

theorem variableSite_bound (site : s ∈ variableSites cx n) :
    s.kind = "identifier" ∧ ∃ v, (s, v) ∈ bindings n ∧ (v.bind (requiredModule? cx)).isNone := by
  obtain ⟨⟨_, v⟩, bound, rfl⟩ := List.mem_map.mp site
  obtain ⟨bound, isVariable⟩ := List.mem_filter.mp bound
  obtain ⟨kind, plain⟩ := Bool.and_eq_true_iff.mp isVariable
  exact ⟨eq_of_beq kind, v, bound, plain⟩

theorem importSite_cases (site : s ∈ importSites cx n) :
    s = n ∧ n.kind = "function_call" ∨
      ∃ v, (s, v) ∈ bindings n ∧ (v.bind (requiredModule? cx)).isSome := by
  unfold importSites at site
  split at site
  · obtain ⟨_, _, rfl⟩ := List.mem_map.mp site
    exact .inl ⟨rfl, eq_of_beq ‹_›⟩
  · obtain ⟨⟨name, v⟩, bound, module⟩ := List.mem_flatMap.mp site
    obtain ⟨source, required, rfl⟩ := List.mem_map.mp module
    exact .inr ⟨v, bound, Option.isSome_of_mem (Option.mem_toList.mp required)⟩

theorem importSite_below (site : s ∈ importSites cx n) : s ∈ n.preorder := by
  rcases importSite_cases site with ⟨rfl, _⟩ | ⟨v, bound, _⟩
  · exact Node.self_mem_preorder s
  · exact binding_inside bound

theorem function_bound {f : FunctionDecl} (found : functionOf cx n = some f) :
    Rules.Bound cx n f.location [f.name] := by
  obtain ⟨name, named, rfl⟩ := Option.map_eq_some_iff.mp found
  have below := Node.field_below (Option.filter_eq_some_iff.mp named).1
  exact ⟨⟨n, Node.self_mem_preorder n, rfl⟩,
    List.forall_mem_singleton.mpr (Rules.spells_text below)⟩

theorem variables_bound : List.Forall₂ (fun s v => Rules.Bound cx s v.location [v.name])
    (variableSites cx n) (variablesOf cx n) := by
  refine List.forall₂_map_left_iff.mpr (List.forall₂_map_right_iff.mpr ?_)
  refine List.forall₂_same.mpr fun b bound => ?_
  exact ⟨⟨n, binding_inside (List.mem_filter.mp bound).1, rfl⟩,
    List.forall_mem_singleton.mpr (Rules.spells_text (Node.self_mem_preorder b.1))⟩

theorem imports_bound : List.Forall₂
    (fun s i => Rules.Bound cx s i.location (i.specifiers.map (·.localName)))
    (importSites cx n) (importsOf cx n) := by
  unfold importSites
  split
  · refine Rules.matched_self fun i member => ⟨⟨n, Node.self_mem_preorder n,
      importsOf_located member⟩, ?_⟩
    rw [importsOf, if_pos ‹_›] at member
    split at member
    · rw [List.mem_singleton.mp member]
      exact List.forall_mem_nil _
    · cases member
  · rename_i other
    rw [importsOf, if_neg other, List.filterMap_eq_flatMap_toList]
    refine Rules.matched_flatMap fun b bound => ?_
    simp only [Option.toList_map]
    refine List.forall₂_map_right_iff.mpr (Rules.matched_self fun source _ => ?_)
    exact ⟨⟨n, binding_inside bound, rfl⟩,
      List.forall_mem_singleton.mpr (Rules.spells_text (Node.self_mem_preorder b.1))⟩

theorem statement_child {targets : List String}
    (statement : n ∈ root.moduleLevel targets NodeKinds.lua.wrappers) : n ∈ root.children := by
  cases (Node.moduleLevel_reached statement).1 with
  | child member => exact member
  | through _ wrapper _ => exact absurd wrapper List.not_mem_nil

theorem bindings_declared (cx : Context) (root : Node) :
    (bindingSites cx root).Declares cx (rules.functions cx root) (rules.bindings cx root)
      (rules.imports cx root) where
  functions := Rules.itself_options fun _ _ _ => function_bound
  bindings := Rules.matched_flatMap fun _ _ => variables_bound
  imports := Rules.matched_flatMap fun _ _ => imports_bound
  noFunctionBinding s function binding := by
    have declared := (Node.moduleLevel_reached (Rules.mem_itself function).1).2
    obtain ⟨n, _, site⟩ := List.mem_flatMap.mp binding
    rw [(variableSite_bound site).1] at declared
    exact absurd declared (by decide)
  noFunctionImport s function imported := by
    obtain ⟨reached, declared⟩ := Node.moduleLevel_reached (Rules.mem_itself function).1
    obtain ⟨n, statement, site⟩ := List.mem_flatMap.mp imported
    rcases importSite_cases site with ⟨rfl, kind⟩ | ⟨v, bound, _⟩
    · rw [kind] at declared
      exact absurd declared (by decide)
    · have between := reached.between (Node.collected_descends statement) (binding_below bound)
      exact List.not_mem_nil between
  noBindingImport s binding imported := by
    obtain ⟨n, statement, site⟩ := List.mem_flatMap.mp binding
    obtain ⟨m, other, importSite⟩ := List.mem_flatMap.mp imported
    obtain ⟨kind, v, bound, plain⟩ := variableSite_bound site
    rcases importSite_cases importSite with ⟨rfl, call⟩ | ⟨w, named, required⟩
    · rw [kind] at call
      exact absurd call (by decide)
    · have below := (Node.descendants_sublist n).subset (binding_below bound)
      have same := Node.child_unique (statement_child statement) (statement_child other) below
        (importSite_below importSite)
      cases same
      rw [binding_unique bound named, Option.isNone_iff_eq_none] at plain
      rw [plain] at required
      cases required

end Declared

end CodeEntities.Lua
