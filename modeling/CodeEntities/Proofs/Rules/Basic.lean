import CodeEntities.Proofs.Outline.Declared
import CodeEntities.Proofs.Outline.Ordered
import CodeEntities.Proofs.Outline.Under
import CodeEntities.Rules.Qualified

namespace CodeEntities

@[simp]
theorem qualifiedImport_full (cx : Context) : qualifiedImport cx.full = qualifiedImport cx := rfl

theorem qualifiedImport_located (cx : Context) (n : Node) (path : String) :
    (qualifiedImport cx n path).location = cx.location n := by
  unfold qualifiedImport
  split
  rfl

namespace Context

variable {n list : Node}

theorem parameterList_below (found : parameterList? n = some list) : list ∈ n.preorder := by
  rcases Option.or_eq_some_iff.mp found with field | ⟨_, child⟩
  · exact Node.field_below field
  · exact Node.childOfKind_below child

end Context

theorem nonBlank_filled {s t : String} (found : Text.nonBlank? s = some t) : t ≠ "" := by
  unfold Text.nonBlank? at found
  simp only at found
  split at found
  · cases found
  · rename_i full
    cases found
    exact fun empty => full (by rw [empty]; rfl)

namespace Context

variable {cx : Context} {n : Node} {s : String}

theorem name_filled (found : cx.name? n = some s) : s ≠ "" := by
  obtain ⟨candidate, _, text⟩ := Option.bind_eq_some_iff.mp found
  exact nonBlank_filled text

theorem fieldText_filled {field : String} (found : cx.fieldText? n field = some s) : s ≠ "" := by
  obtain ⟨m, _, text⟩ := Option.bind_eq_some_iff.mp found
  exact nonBlank_filled text

end Context

namespace Rules

-- Under options the rules find what they find without any, seen under the options.
structure Obeys (r : Rules) (seenClass : Options → ClassDecl → ClassDecl := ClassDecl.under)
    (seenInterface : Options → InterfaceDecl → InterfaceDecl := InterfaceDecl.under) : Prop where
  functions (cx root) : r.functions cx root = (r.functions cx.full root).map (·.under cx.options)
  classes (cx root) : r.classes cx root = (r.classes cx.full root).map (seenClass cx.options)
  interfaces (cx root) :
    r.interfaces cx root = (r.interfaces cx.full root).map (seenInterface cx.options)
  typeAliases (cx root) :
    r.typeAliases cx root = (r.typeAliases cx.full root).map (·.under cx.options)
  bindings (cx root) : r.bindings cx root = (r.bindings cx.full root).map (·.under cx.options)
  imports (cx root) : r.imports cx root = r.imports cx.full root
  exports (cx root) : r.exports cx root = r.exports cx.full root

structure Sites where
  functions : Context → Node → List Node
  homes : Context → Node → List Node

def Sites.module (kinds : NodeKinds) : Sites where
  functions _ root := root.moduleLevel kinds.functions kinds.wrappers
  homes _ root :=
    root.moduleLevel kinds.classes kinds.wrappers ++
      root.moduleLevel kinds.interfaces kinds.wrappers

-- Whatever the rules find is declared by its sites, and lies between nodes of the tree if the
-- tree is well placed.
structure Locates (r : Rules) (s : Sites) : Prop where
  functions {cx root} : ∀ f ∈ r.functions cx root, cx.DeclaredBy (s.functions cx root) f
  classes {cx root} :
    ∀ c ∈ r.classes cx root, c.Located (cx.Homed (s.homes cx root)) (cx.Placed root)
  interfaces {cx root} :
    ∀ i ∈ r.interfaces cx root, i.Located (cx.Homed (s.homes cx root)) (cx.Placed root)
  typeAliases {cx root} (placed : root.WellPlaced) :
    ∀ a ∈ r.typeAliases cx root, cx.Spanned root a.location
  bindings {cx root} (placed : root.WellPlaced) :
    ∀ v ∈ r.bindings cx root, cx.Spanned root v.location
  imports {cx root} (placed : root.WellPlaced) :
    ∀ i ∈ r.imports cx root, cx.Spanned root i.location
  exports {cx root} (placed : root.WellPlaced) :
    ∀ e ∈ r.exports cx root, cx.Spanned root e.location

-- The functions of a module are declared on the way through wrappers alone, outside of the
-- homes of methods.
structure Separates (r : Rules) (s : Sites) : Prop where
  inOrder {cx root} : (s.functions cx root).Sublist root.descendants
  reached {cx root} : ∀ n ∈ s.functions cx root,
    root.Reaches r.kinds.wrappers n ∧ n.kind ∉ r.kinds.wrappers
  homes {cx root} : ∀ h ∈ s.homes cx root, h ∈ root.descendants ∧ h.kind ∉ r.kinds.wrappers
  apart {cx root} : ∀ n ∈ s.functions cx root, n ∉ s.homes cx root

structure Orders (r : Rules) : Prop where
  functions {cx root} (placed : root.WellPlaced) (single : root.HoldsOne r.kinds) :
    InOrder (·.location) (r.functions cx root)
  interfaces {cx root} (placed : root.WellPlaced) : InOrder (·.location) (r.interfaces cx root)
  typeAliases {cx root} (placed : root.WellPlaced) : InOrder (·.location) (r.typeAliases cx root)
  bindings {cx root} (placed : root.WellPlaced) : InOrder (·.location) (r.bindings cx root)
  imports {cx root} (placed : root.WellPlaced) : InOrder (·.location) (r.imports cx root)
  exports {cx root} (placed : root.WellPlaced) : InOrder (·.location) (r.exports cx root)

def OrdersClasses (r : Rules) : Prop :=
  ∀ {cx root}, root.WellPlaced → root.HoldsOneClass r.kinds →
    InOrder (·.location) (r.classes cx root)

structure BareNames where
  functions : Context → Node → List String := fun _ _ => []
  classes : Context → Node → List String := fun _ _ => []
  interfaces : Context → Node → List String := fun _ _ => []
  typeAliases : Context → Node → List String := fun _ _ => []
  bindings : Context → Node → List String := fun _ _ => []

-- Of the names that the rules give, none but the bare ones can be empty.
structure Names (r : Rules) (bare : BareNames) : Prop where
  functions (cx root) : "" ∈ (r.functions cx root).map (·.name) ↔ "" ∈ bare.functions cx root
  classes (cx root) : "" ∈ (r.classes cx root).map (·.name) ↔ "" ∈ bare.classes cx root
  interfaces (cx root) : "" ∈ (r.interfaces cx root).map (·.name) ↔ "" ∈ bare.interfaces cx root
  typeAliases (cx root) :
    "" ∈ (r.typeAliases cx root).map (·.name) ↔ "" ∈ bare.typeAliases cx root
  bindings (cx root) : "" ∈ (r.bindings cx root).map (·.name) ↔ "" ∈ bare.bindings cx root

theorem imports_full {cx : Context} {read : Context → Node → List ImportDecl}
    (same : read cx.full = read cx) (nodes : List Node) :
    nodes.flatMap (read cx) = nodes.flatMap (read cx.full) := by
  rw [same]

def plain (kinds : NodeKinds) (visibility : Visibility) : Rules where
  kinds := kinds
  defaultVisibility := visibility

variable (kinds : NodeKinds) (visibility : Visibility) (cx : Context) (n : Node)

theorem functionOf_under :
    (plain kinds visibility).functionOf cx n =
      ((plain kinds visibility).functionOf cx.full n).map (·.under cx.options) := by
  unfold plain
  rw [Option.map_map, Context.callable_full]
  exact Option.map_congr fun name _ => Context.function_under cx n name _

theorem methodOf_under :
    (plain kinds visibility).methodOf cx n =
      ((plain kinds visibility).methodOf cx.full n).map (·.under cx.options) := by
  unfold plain
  simp only
  rw [Option.map_map, Option.map_map, Option.map_map, Context.callable_full]
  exact Option.map_congr fun name _ => Context.method_under cx n name _ _

theorem classOf_under :
    (plain kinds visibility).classOf cx n =
      ((plain kinds visibility).classOf cx.full n).map (·.under cx.options) := by
  have methods := filterMap_under (methodOf_under kinds visibility cx)
  unfold plain at methods ⊢
  simp only at methods ⊢
  rw [Option.map_map]
  refine Option.map_congr fun name _ => ?_
  rw [methods]
  rfl

theorem typeAliasOf_under :
    (plain kinds visibility).typeAliasOf cx n =
      ((plain kinds visibility).typeAliasOf cx.full n).map (·.under cx.options) := by
  unfold plain
  rw [Option.map_map]
  rfl

theorem plain_obeys : (plain kinds visibility).Obeys where
  functions cx _ := filterMap_under (functionOf_under kinds visibility cx) _
  classes cx _ := filterMap_under (classOf_under kinds visibility cx) _
  interfaces cx _ := filterMap_under (fun _ => by rfl) _
  typeAliases cx _ := filterMap_under (typeAliasOf_under kinds visibility cx) _
  bindings cx _ := flatMap_under (fun _ => by rfl) _
  imports _ _ := rfl
  exports _ _ := rfl

variable {cx n} {root : Node} {nodes : List Node} {α : Type}

-- Where a language has no such declarations.

theorem none_found {P : α → Prop} : ∀ a ∈ nodes.filterMap fun _ => none, P a := by
  simp

theorem empty_found {P : α → Prop} : ∀ a ∈ nodes.flatMap fun _ => [], P a := by
  simp

theorem none_inOrder {place : α → Location} :
    InOrder place (nodes.filterMap fun _ => none) := by
  rw [InOrder, List.filterMap_eq_nil_iff.mpr fun _ _ => rfl]
  exact .nil

theorem empty_inOrder {place : α → Location} : InOrder place (nodes.flatMap fun _ => []) := by
  rw [InOrder, List.flatMap_eq_nil_iff.mpr fun _ _ => rfl]
  exact .nil

-- Declarations whose names are always filled, and those whose names are as bare as the nodes.

section Named

variable {name : α → String}

theorem filled_map {found : Option String} {build : String → α} {a : α}
    (filled : ∀ s, found = some s → s ≠ "") (own : ∀ s, name (build s) = s)
    (read : found.map build = some a) : name a ≠ "" := by
  obtain ⟨s, text, rfl⟩ := Option.map_eq_some_iff.mp read
  rw [own]
  exact filled s text

theorem named_map {build : String → α} {a : α} (own : ∀ s, name (build s) = s)
    (read : (cx.name? n).map build = some a) : name a ≠ "" :=
  filled_map (fun _ => Context.name_filled) own read

theorem filled_all {entries : List α} (each : ∀ a ∈ entries, name a ≠ "") :
    "" ∈ entries.map name ↔ "" ∈ ([] : List String) := by
  refine iff_of_false (fun member => ?_) List.not_mem_nil
  obtain ⟨a, found, empty⟩ := List.mem_map.mp member
  exact each a found empty

theorem filled_filterMap {read : Node → Option α}
    (each : ∀ {m a}, read m = some a → name a ≠ "") :
    "" ∈ (nodes.filterMap read).map name ↔ "" ∈ ([] : List String) := by
  refine filled_all fun a found => ?_
  obtain ⟨m, _, result⟩ := List.mem_filterMap.mp found
  exact each result

theorem filled_flatMap {read : Node → List α} (each : ∀ {m a}, a ∈ read m → name a ≠ "") :
    "" ∈ (nodes.flatMap read).map name ↔ "" ∈ ([] : List String) := by
  refine filled_all fun a found => ?_
  obtain ⟨m, _, result⟩ := List.mem_flatMap.mp found
  exact each result

theorem bare_filterMap {read : Node → Option α} {bare : Node → Option String}
    (each : ∀ m, (read m).map name = some "" ↔ bare m = some "") :
    "" ∈ (nodes.filterMap read).map name ↔ "" ∈ nodes.filterMap bare := by
  rw [List.map_filterMap, List.mem_filterMap, List.mem_filterMap]
  exact exists_congr fun m => and_congr_right fun _ => each m

theorem bare_flatMap {read : Node → List α} {bare : Node → List String}
    (each : ∀ m, "" ∈ (read m).map name ↔ "" ∈ bare m) :
    "" ∈ (nodes.flatMap read).map name ↔ "" ∈ nodes.flatMap bare := by
  rw [List.map_flatMap, List.mem_flatMap, List.mem_flatMap]
  exact exists_congr fun m => and_congr_right fun _ => each m

theorem bare_toList {read : Node → List α} {bare : Node → Option String}
    (each : ∀ m, (read m).map name = (bare m).toList) :
    "" ∈ (nodes.flatMap read).map name ↔ "" ∈ nodes.filterMap bare := by
  rw [List.map_flatMap, List.mem_flatMap, List.mem_filterMap]
  refine exists_congr fun m => and_congr_right fun _ => ?_
  rw [each, Option.mem_toList]

theorem grown_names {add : List α → Node → List α} (owner : Node → Option String)
    (each : ∀ entries m, "" ∈ (add entries m).map name ↔
      "" ∈ entries.map name ∨ owner m = some "") (entries : List α) :
    "" ∈ (nodes.foldl add entries).map name ↔
      "" ∈ entries.map name ∨ "" ∈ nodes.filterMap owner := by
  induction nodes generalizing entries with
  | nil => simp
  | cons m rest ih => simp only [List.foldl_cons, ih, each, List.mem_filterMap, List.mem_cons,
      exists_eq_or_imp, or_assoc]

end Named

-- What stands where nodes of a tree do lies between nodes of the tree, and in their order.

section Placed

variable {place : α → Location}

theorem spanned_filterMap {read : Node → Option α} (inside : ∀ m ∈ nodes, m ∈ root.preorder)
    (each : ∀ {m a}, read m = some a → place a = cx.location m) :
    ∀ a ∈ nodes.filterMap read, cx.Spanned root (place a) := by
  intro a member
  obtain ⟨m, found, result⟩ := List.mem_filterMap.mp member
  exact each result ▸ Context.spanned_below (inside m found)

theorem spanned_flatMap {read : Node → List α} (inside : ∀ m ∈ nodes, m ∈ root.preorder)
    (each : ∀ {m a}, a ∈ read m → place a = cx.location m) :
    ∀ a ∈ nodes.flatMap read, cx.Spanned root (place a) := by
  intro a member
  obtain ⟨m, found, result⟩ := List.mem_flatMap.mp member
  exact each result ▸ Context.spanned_below (inside m found)

theorem inOrder_filterMap {read : Node → Option α} (placed : root.WellPlaced)
    (inOrder : nodes.Sublist root.preorder)
    (each : ∀ {m a}, read m = some a → place a = cx.location m) :
    InOrder place (nodes.filterMap read) :=
  cx.inOrder_filterMap id (placed.preorder_starts.sublist inOrder)
    fun _ _ _ found => congrArg Location.opening (each found)

theorem inOrder_flatMap {read : Node → List α} (placed : root.WellPlaced)
    (inOrder : nodes.Sublist root.preorder)
    (each : ∀ {m a}, a ∈ read m → place a = cx.location m) :
    InOrder place (nodes.flatMap read) :=
  cx.inOrder_flatMap id (placed.preorder_starts.sublist inOrder)
    fun _ _ _ found => congrArg Location.opening (each found)

theorem inOrder_parts {part : Node → List Node} {read : Node → Node → List α}
    (placed : root.WellPlaced) (inOrder : (nodes.flatMap part).Sublist root.preorder)
    (each : ∀ {n m a}, a ∈ read n m → place a = cx.location m) :
    InOrder place (nodes.flatMap fun n => (part n).flatMap (read n)) := by
  have starts := placed.preorder_starts.sublist inOrder
  have sites : nodes.flatMap part = (nodes.flatMap fun n => (part n).map (n, ·)).map Prod.snd := by
    simp [List.map_flatMap, Function.comp_def]
  rw [sites, List.pairwise_map] at starts
  have ordered : InOrder place ((nodes.flatMap fun n => (part n).map (n, ·)).flatMap
      fun s => read s.1 s.2) :=
    cx.inOrder_flatMap Prod.snd starts
      fun _ _ _ found => congrArg Location.opening (each found)
  simpa only [List.flatMap_assoc, List.flatMap_map] using ordered

end Placed

theorem classes_located {homes : List Node} {read : Node → Option ClassDecl}
    (own : ∀ m ∈ nodes, m ∈ homes) (inside : ∀ m ∈ nodes, m ∈ root.preorder)
    (each : ∀ {m c}, read m = some c → c.Located (cx.DeclaredBy m.preorder) (cx.Spanned m)) :
    ∀ c ∈ nodes.filterMap read, c.Located (cx.Homed homes) (cx.Placed root) := by
  intro c member
  obtain ⟨m, found, result⟩ := List.mem_filterMap.mp member
  exact (each result).imp (fun _ declared => ⟨m, own m found, declared⟩)
    fun _ spanned _ => spanned.up (inside m found)

theorem interfaces_located {homes : List Node} {read : Node → Option InterfaceDecl}
    (own : ∀ m ∈ nodes, m ∈ homes) (inside : ∀ m ∈ nodes, m ∈ root.preorder)
    (each : ∀ {m i}, read m = some i → i.Located (cx.DeclaredBy m.preorder) (cx.Spanned m)) :
    ∀ i ∈ nodes.filterMap read, i.Located (cx.Homed homes) (cx.Placed root) := by
  intro i member
  obtain ⟨m, found, result⟩ := List.mem_filterMap.mp member
  exact (each result).imp (fun _ declared => ⟨m, own m found, declared⟩)
    fun _ spanned _ => spanned.up (inside m found)

theorem module_functions {read : Node → Option FunctionDecl}
    (each : ∀ {m f}, read m = some f → f.BuiltFrom cx m []) :
    ∀ f ∈ (root.moduleLevel kinds.functions kinds.wrappers).filterMap read,
      cx.DeclaredBy ((Sites.module kinds).functions cx root) f := by
  intro f member
  obtain ⟨m, found, result⟩ := List.mem_filterMap.mp member
  exact Context.declared_below found (each result)

theorem module_classes {read : Node → Option ClassDecl}
    (each : ∀ {m c}, read m = some c → c.Located (cx.DeclaredBy m.preorder) (cx.Spanned m)) :
    ∀ c ∈ (root.moduleLevel kinds.classes kinds.wrappers).filterMap read,
      c.Located (cx.Homed ((Sites.module kinds).homes cx root)) (cx.Placed root) :=
  classes_located (fun _ => List.mem_append_left _) (fun _ => Node.collected_below) each

theorem module_interfaces {read : Node → Option InterfaceDecl}
    (each : ∀ {m i}, read m = some i → i.Located (cx.DeclaredBy m.preorder) (cx.Spanned m)) :
    ∀ i ∈ (root.moduleLevel kinds.interfaces kinds.wrappers).filterMap read,
      i.Located (cx.Homed ((Sites.module kinds).homes cx root)) (cx.Placed root) :=
  interfaces_located (fun _ => List.mem_append_right _) (fun _ => Node.collected_below) each

section Separated

variable {r : Rules} {s : Sites} {h o : Node}

theorem Separates.unhomed (separates : r.Separates s) (site : n ∈ s.functions cx root)
    (home : h ∈ s.homes cx root) : n ∉ h.preorder := by
  intro below
  obtain ⟨inside, stop⟩ := separates.homes h home
  rcases Node.preorder_cases below with rfl | deeper
  · exact separates.apart n site home
  · exact stop ((separates.reached n site).1.between inside deeper)

theorem Separates.unnested (separates : r.Separates s) (site : n ∈ s.functions cx root)
    (other : o ∈ s.functions cx root) : n ∉ o.descendants := fun deeper =>
  (separates.reached o other).2
    ((separates.reached n site).1.between (separates.inOrder.subset other) deeper)

theorem module_reached {kinds : NodeKinds} (stops : ∀ k ∈ kinds.functions, k ∉ kinds.wrappers) :
    ∀ n ∈ root.moduleLevel kinds.functions kinds.wrappers,
      root.Reaches kinds.wrappers n ∧ n.kind ∉ kinds.wrappers := by
  intro n member
  obtain ⟨reached, wanted⟩ := Node.moduleLevel_reached member
  exact ⟨reached, stops _ wanted⟩

theorem module_separates
    (functions : ∀ k ∈ r.kinds.functions,
      k ∉ r.kinds.wrappers ∧ k ∉ r.kinds.classes ++ r.kinds.interfaces)
    (types : ∀ k ∈ r.kinds.classes ++ r.kinds.interfaces, k ∉ r.kinds.wrappers) :
    r.Separates (.module r.kinds) := by
  have kindOf {cx : Context} {root h : Node} (home : h ∈ (Sites.module r.kinds).homes cx root) :
      h.kind ∈ r.kinds.classes ++ r.kinds.interfaces := by
    rcases List.mem_append.mp home with declared | declared
    · exact List.mem_append_left _ (Node.moduleLevel_reached declared).2
    · exact List.mem_append_right _ (Node.moduleLevel_reached declared).2
  refine ⟨Node.collectBelow_descends _ _, module_reached fun k wanted => (functions k wanted).1,
    fun h home => ⟨?_, types _ (kindOf home)⟩, fun n site home => ?_⟩
  · rcases List.mem_append.mp home with declared | declared
    · exact Node.collected_descends declared
    · exact Node.collected_descends declared
  · exact (functions _ (Node.moduleLevel_reached site).2).2 (kindOf home)

end Separated

theorem functionOf_built {f : FunctionDecl}
    (found : (plain kinds visibility).functionOf cx n = some f) : f.BuiltFrom cx n [] :=
  Context.function_read (Node.around_self n) found

theorem functionOf_located {f : FunctionDecl}
    (found : (plain kinds visibility).functionOf cx n = some f) : f.location = cx.location n :=
  Context.location_map (fun _ => rfl) found

theorem classOf_located {c : ClassDecl} (found : (plain kinds visibility).classOf cx n = some c) :
    c.Located (cx.DeclaredBy n.preorder) (cx.Spanned n) := by
  obtain ⟨name, _, rfl⟩ := Option.map_eq_some_iff.mp found
  refine ⟨Context.spanned_self cx n, ?_, ?_, ?_⟩
  · intro m member
    obtain ⟨k, child, result⟩ := List.mem_filterMap.mp member
    obtain ⟨f, read, rfl⟩ := Option.map_eq_some_iff.mp result
    have below := Node.bodyChild_below (List.mem_filter.mp child).1
    exact Context.declared_below below (functionOf_built kinds visibility read)
  · simp
  · simp

theorem typeAliasOf_located {a : TypeAliasDecl}
    (found : (plain kinds visibility).typeAliasOf cx n = some a) : a.location = cx.location n :=
  Context.location_map (fun _ => rfl) found

theorem plain_locates : (plain kinds visibility).Locates (.module kinds) where
  functions := module_functions kinds (functionOf_built kinds visibility)
  classes := module_classes kinds (classOf_located kinds visibility)
  interfaces := none_found
  typeAliases _ :=
    spanned_filterMap (fun _ => Node.collected_below) (typeAliasOf_located kinds visibility)
  bindings _ := empty_found
  imports _ := empty_found
  exports _ := List.forall_mem_nil _

theorem plain_orders : (plain kinds visibility).Orders where
  functions placed _ :=
    inOrder_filterMap placed (Node.moduleLevel_sublist _ _ _) (functionOf_located kinds visibility)
  interfaces _ := none_inOrder
  typeAliases placed :=
    inOrder_filterMap placed (Node.moduleLevel_sublist _ _ _) (typeAliasOf_located kinds visibility)
  bindings _ := empty_inOrder
  imports _ := empty_inOrder
  exports _ := .nil

theorem classOf_location {c : ClassDecl} (found : (plain kinds visibility).classOf cx n = some c) :
    c.location = cx.location n :=
  Context.location_map (fun _ => rfl) found

theorem plain_ordersClasses : (plain kinds visibility).OrdersClasses := fun placed _ =>
  inOrder_filterMap placed (Node.moduleLevel_sublist _ _ _) (classOf_location kinds visibility)

theorem functionOf_filled {f : FunctionDecl}
    (found : (plain kinds visibility).functionOf cx n = some f) : f.name ≠ "" :=
  named_map (fun _ => rfl) found

theorem classOf_filled {c : ClassDecl} (found : (plain kinds visibility).classOf cx n = some c) :
    c.name ≠ "" :=
  named_map (fun _ => rfl) found

theorem typeAliasOf_filled {a : TypeAliasDecl}
    (found : (plain kinds visibility).typeAliasOf cx n = some a) : a.name ≠ "" :=
  named_map (fun _ => rfl) found

theorem plain_names : (plain kinds visibility).Names {} where
  functions _ _ := filled_filterMap (functionOf_filled kinds visibility)
  classes _ _ := filled_filterMap (classOf_filled kinds visibility)
  interfaces _ _ := filled_filterMap nofun
  typeAliases _ _ := filled_filterMap (typeAliasOf_filled kinds visibility)
  bindings _ _ := filled_flatMap nofun

end Rules

end CodeEntities
