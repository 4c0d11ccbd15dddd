import CodeEntities.Proofs.Rules.Attached
import CodeEntities.Rules.Rust

namespace CodeEntities.Rust

def ImplBlock.under (o : Options) (b : ImplBlock) : ImplBlock :=
  { b with methods := b.methods.map (·.under o) }

section Under

variable (cx : Context) (n : Node)

@[simp]
theorem visibility_full : visibility cx.full = visibility cx := rfl

@[simp]
theorem modifiers_full : modifiers cx.full = modifiers cx := rfl

@[simp]
theorem implType_full : implType? cx.full = implType? cx := rfl

theorem functionOf_under : functionOf cx n = (functionOf cx.full n).map (·.under cx.options) := by
  unfold functionOf
  rw [Option.map_map, Context.callable_full]
  exact Option.map_congr fun name _ => Context.function_under cx n name _

theorem implMethod_under (inTrait : Bool) :
    implMethod? cx inTrait n = (implMethod? cx.full inTrait n).map (·.under cx.options) := by
  unfold implMethod?
  rw [Option.map_map, Context.callable_full, modifiers_full, visibility_full]
  exact Option.map_congr fun name _ => Context.method_under cx n name _ _

theorem bodyMethods_under (inTrait : Bool) :
    bodyMethods cx n inTrait = (bodyMethods cx.full n inTrait).map (·.under cx.options) :=
  filterMap_under (fun m => implMethod_under cx m inTrait) _

theorem fields_under : fields cx n = (fields cx.full n).map (·.under cx.options) := by
  unfold fields
  cases n.field? "body" with
  | none => rfl
  | some body =>
    simp only
    split
    · refine filterMap_under (fun f => ?_) _
      rw [Option.map_map]
      rfl
    · split
      · rw [List.map_map]
        rfl
      · split
        · refine filterMap_under (fun v => ?_) _
          rw [Option.map_map]
          rfl
        · rfl

theorem typeClass_under : typeClass? cx n = (typeClass? cx.full n).map (·.under cx.options) := by
  unfold typeClass?
  rw [Option.map_map, fields_under]
  rfl

theorem implBlock_under :
    implBlock? cx n = (implBlock? cx.full n).map (·.under cx.options) := by
  unfold implBlock?
  rw [Option.map_map, implType_full, Context.fieldText_full]
  refine Option.map_congr fun owner _ => ?_
  simp only [bodyMethods_under cx, Function.comp, ImplBlock.under]

theorem extend_under (o : Options) (block : ImplBlock) (c : ClassDecl) :
    extend (block.under o) (c.under o) = (extend block c).under o := by
  simp only [extend, ClassDecl.under, ClassDecl.membersUnder, ImplBlock.under, List.map_append]
  rfl

theorem attach_under (classes : List ClassDecl) (block : ImplBlock) :
    attach cx (classes.map (·.under cx.options)) (block.under cx.options) =
      (attach cx.full classes block).map (·.under cx.options) := by
  induction classes with
  | nil =>
    simp only [attach, List.map_cons, ← extend_under]
    rfl
  | cons c rest ih =>
    have name : (c.under cx.options).name = c.name := rfl
    have owner : (block.under cx.options).owner = block.owner := rfl
    simp only [List.map_cons, attach, name, owner]
    split
    · rw [extend_under, List.map_cons]
    · rw [ih, List.map_cons]

theorem classes_under : classes cx n = (classes cx.full n).map (·.under cx.options) := by
  unfold classes
  simp only
  rw [filterMap_under (typeClass_under cx), filterMap_under (implBlock_under cx), List.foldl_map]
  exact List.foldl_hom (List.map (ClassDecl.under cx.options)) (attach_under cx)

theorem interfaceOf_under :
    interfaceOf cx n = (interfaceOf cx.full n).map (·.under cx.options) := by
  unfold interfaceOf
  rw [Option.map_map, bodyMethods_under]
  rfl

theorem typeAliasOf_under :
    typeAliasOf cx n = (typeAliasOf cx.full n).map (·.under cx.options) := by
  unfold typeAliasOf
  rw [Option.map_map]
  rfl

theorem variablesOf_under :
    variablesOf cx n = (variablesOf cx.full n).map (·.under cx.options) := by
  unfold variablesOf
  rw [Context.name_full]
  cases cx.name? n with
  | none => rfl
  | some name => rfl

@[simp]
theorem useStep_full (p : UsePlace) : useStep cx.full p = useStep cx p := rfl

theorem pathsOnStack_full (stack : List UsePlace) :
    pathsOnStack cx.full stack = pathsOnStack cx stack := by
  fun_induction pathsOnStack cx stack with
  | case1 => rw [pathsOnStack]
  | case2 p stack used read ih => rw [pathsOnStack_leaf ((useStep_full cx p).trans read), ih]
  | case3 p stack places read ih => rw [pathsOnStack_below ((useStep_full cx p).trans read), ih]

@[simp]
theorem usePaths_full (start : String) : usePaths cx.full start n = usePaths cx start n :=
  pathsOnStack_full cx _

theorem importsOf_full : importsOf cx.full = importsOf cx := by
  funext n
  unfold importsOf
  simp only [usePaths_full, Context.location_full]

theorem obeys : rules.Obeys where
  functions cx _ := filterMap_under (functionOf_under cx) _
  classes := classes_under
  interfaces cx _ := filterMap_under (interfaceOf_under cx) _
  typeAliases cx _ := filterMap_under (typeAliasOf_under cx) _
  bindings cx _ := flatMap_under (variablesOf_under cx) _
  imports cx _ := Rules.imports_full (importsOf_full cx) _
  exports _ _ := rfl

end Under

section Located

variable {cx : Context} {n k root : Node} {F : FunctionDecl → Prop} {P : Location → Prop}

theorem bodyMethods_declared {inTrait : Bool} :
    ∀ m ∈ bodyMethods cx n inTrait, cx.DeclaredBy n.preorder m.function := by
  intro m member
  obtain ⟨k, child, read⟩ := List.mem_filterMap.mp member
  obtain ⟨name, _, rfl⟩ := Option.map_eq_some_iff.mp read
  refine Context.declared_below ?_ (Context.function_built (Node.around_self k) name _)
  exact Node.partChild_below (fun _ => Node.field_below) (List.mem_filter.mp child).1

theorem fields_located : ∀ p ∈ fields cx n, cx.Spanned n p.location := by
  intro p member
  unfold fields at member
  split at member
  · cases member
  · rename_i body found
    have below := Node.field_below found
    split at member
    · obtain ⟨f, child, read⟩ := List.mem_filterMap.mp member
      obtain ⟨name, _, rfl⟩ := Option.map_eq_some_iff.mp read
      exact Context.spanned_below
        (Node.preorder_trans below (Node.namedChild_below (List.mem_filter.mp child).1))
    · split at member
      · obtain ⟨⟨type, i⟩, child, rfl⟩ := List.mem_map.mp member
        have child := List.fst_mem_of_mem_zipIdx child
        exact Context.spanned_below (Node.preorder_trans below (Node.childByField_below child))
      · split at member
        · obtain ⟨v, child, read⟩ := List.mem_filterMap.mp member
          obtain ⟨name, _, rfl⟩ := Option.map_eq_some_iff.mp read
          exact Context.spanned_below
            (Node.preorder_trans below (Node.namedChild_below (List.mem_filter.mp child).1))
        · cases member

theorem typeClass_located {c : ClassDecl} (found : typeClass? cx n = some c) :
    c.Located (cx.DeclaredBy n.preorder) (cx.Spanned n) := by
  obtain ⟨name, _, rfl⟩ := Option.map_eq_some_iff.mp found
  exact ⟨Context.spanned_self cx n, by simp, fields_located, by simp⟩

structure ImplBlock.Located (cx : Context) (F : FunctionDecl → Prop) (P : Location → Prop)
    (b : ImplBlock) : Prop where
  place : P (cx.location b.node)
  methods : ∀ m ∈ b.methods, F m.function

theorem implBlock_located {b : ImplBlock} (found : implBlock? cx n = some b) :
    b.Located cx (cx.DeclaredBy n.preorder) (cx.Spanned n) := by
  obtain ⟨owner, _, rfl⟩ := Option.map_eq_some_iff.mp found
  exact ⟨Context.spanned_self cx n, bodyMethods_declared⟩

theorem extend_located {b : ImplBlock} {c : ClassDecl} (located : c.Located F P)
    (added : ∀ m ∈ b.methods, F m.function) : (extend b c).Located F P := by
  refine ⟨located.place, ?_, located.members.properties, located.members.constructor⟩
  exact List.forall_mem_append.mpr ⟨located.members.methods, added⟩

def extension (cx : Context) (b : ImplBlock) : ClassDecl :=
  extend b {
    name := b.owner
    kind := .extension
    typeParams := cx.typeParameters b.node
    location := cx.location b.node
    docComment := cx.doc b.node }

theorem attach_attaches (classes : List ClassDecl) (b : ImplBlock) :
    Rules.Attaches b.owner (extend b) (extension cx b) classes (attach cx classes b) := by
  induction classes with
  | nil => exact .new
  | cons c rest ih =>
    unfold attach
    split
    · next own => exact .owner (beq_iff_eq.mp own)
    · next other => exact .past (fun own => other (beq_iff_eq.mpr own)) ih

theorem attach_located {classes : List ClassDecl} {b : ImplBlock} (block : b.Located cx F P)
    (located : ∀ c ∈ classes, c.Located F P) : ∀ c ∈ attach cx classes b, c.Located F P :=
  (attach_attaches classes b).forall located (fun _ => id)
    (fun _ here => extend_located here block.methods)
    (extend_located ⟨block.place, by simp, by simp, by simp⟩ block.methods)

theorem classes_located : ∀ c ∈ classes cx root,
    c.Located (cx.Homed ((Rules.Sites.module .rust).homes cx root)) (cx.Placed root) := by
  refine List.foldlRecOn (motive := fun found : List ClassDecl => ∀ c ∈ found,
    c.Located (cx.Homed ((Rules.Sites.module .rust).homes cx root)) (cx.Placed root)) _ _ ?_ ?_
  · exact Rules.classes_located
      (fun _ member => List.mem_append_left _ (List.mem_filter.mp member).1)
      (fun _ member => Node.collected_below (List.mem_filter.mp member).1) typeClass_located
  · intro found located block member
    obtain ⟨n, candidate, read⟩ := List.mem_filterMap.mp member
    have site := (List.mem_filter.mp candidate).1
    have own := implBlock_located read
    refine attach_located ⟨fun _ => own.place.up (Node.collected_below site), ?_⟩ located
    intro m member
    exact ⟨n, List.mem_append_left _ site, own.methods m member⟩

theorem interfaceOf_located {i : InterfaceDecl} (found : interfaceOf cx n = some i) :
    i.Located (cx.DeclaredBy n.preorder) (cx.Spanned n) := by
  obtain ⟨name, _, rfl⟩ := Option.map_eq_some_iff.mp found
  exact ⟨Context.spanned_self cx n, bodyMethods_declared, by simp, by simp⟩

theorem variablesOf_located {v : VariableDecl} (member : v ∈ variablesOf cx n) :
    v.location = cx.location n := by
  unfold variablesOf at member
  split at member
  · cases member
  · rw [List.mem_singleton.mp member]

theorem addSpecifier_located {place : Location} {imports : List ImportDecl}
    {entry : String × ImportSpecifier} (located : ∀ i ∈ imports, i.location = place) :
    ∀ i ∈ addSpecifier place imports entry, i.location = place := by
  induction imports with
  | nil =>
    intro i member
    rw [List.mem_singleton.mp member]
  | cons first rest ih =>
    obtain ⟨here, later⟩ := List.forall_mem_cons.mp located
    unfold addSpecifier
    split
    · exact List.forall_mem_cons.mpr ⟨here, later⟩
    · exact List.forall_mem_cons.mpr ⟨here, ih later⟩

theorem importsOf_located {i : ImportDecl} (member : i ∈ importsOf cx n) :
    i.location = cx.location n := by
  unfold importsOf at member
  split at member
  · cases member
  · rename_i argument _
    let entries := (usePaths cx "" argument).map useSpecifier
    have all := List.foldlRecOn
      (motive := fun found : List ImportDecl => ∀ i ∈ found, i.location = cx.location n)
      entries (addSpecifier (cx.location n)) (List.forall_mem_nil _)
      fun found located entry _ => addSpecifier_located located
    rw [all i member]

theorem locates : rules.Locates (.module .rust) where
  functions := Rules.module_functions .rust (Context.function_read (Node.around_self _))
  classes := classes_located
  interfaces := Rules.module_interfaces .rust interfaceOf_located
  typeAliases _ := Rules.spanned_filterMap (fun _ => Node.collected_below)
    (Context.location_map fun _ => rfl)
  bindings _ := Rules.spanned_flatMap (fun _ => Node.collected_below) variablesOf_located
  imports _ := Rules.spanned_flatMap (fun _ => Node.collected_below) importsOf_located
  exports _ := List.forall_mem_nil _

theorem orders : rules.Orders where
  functions placed _ := Rules.inOrder_filterMap placed (Node.moduleLevel_sublist _ _ _)
    (Context.location_map fun _ => rfl)
  interfaces placed := Rules.inOrder_filterMap placed (Node.moduleLevel_sublist _ _ _)
    (Context.location_map fun _ => rfl)
  typeAliases placed := Rules.inOrder_filterMap placed (Node.moduleLevel_sublist _ _ _)
    (Context.location_map fun _ => rfl)
  bindings placed := Rules.inOrder_flatMap placed (Node.moduleLevel_sublist _ _ _)
    variablesOf_located
  imports placed := Rules.inOrder_flatMap placed (Node.moduleLevel_sublist _ _ _) importsOf_located
  exports _ := .nil

theorem typeClass_kind {c : ClassDecl} (found : typeClass? cx n = some c) :
    c.kind ≠ .extension := by
  obtain ⟨name, _, rfl⟩ := Option.map_eq_some_iff.mp found
  simp only
  split
  · decide
  · decide

theorem implBlock_place {b : ImplBlock} (found : implBlock? cx n = some b) :
    cx.location b.node = cx.location n := by
  obtain ⟨owner, _, rfl⟩ := Option.map_eq_some_iff.mp found
  rfl

theorem classes_run : rules.AppendsExtensions := fun {cx root} placed _ => by
  have candidates := Node.moduleLevel_sublist root NodeKinds.rust.classes NodeKinds.rust.wrappers
  refine Rules.foldl_runs (fun b => (extension cx b).head)
    (fun found b => (attach_attaches found b).appends (fun _ => rfl) rfl) ?_ ?_ ?_ fun _ => rfl
  · exact Rules.inOrder_filterMap placed (List.filter_sublist.trans candidates)
      (Context.location_map fun _ => rfl)
  · have blocks : InOrder (fun b => cx.location b.node) (((root.moduleLevel
        NodeKinds.rust.classes NodeKinds.rust.wrappers).filter (·.kind == "impl_item")).filterMap
          (implBlock? cx)) :=
      Rules.inOrder_filterMap placed (List.filter_sublist.trans candidates) implBlock_place
    exact blocks
  · intro c declared
    obtain ⟨n, _, found⟩ := List.mem_filterMap.mp declared
    exact typeClass_kind found

end Located

section Named

variable {cx : Context} {n : Node}

def bareNames : Rules.BareNames where
  classes cx root :=
    ((root.moduleLevel NodeKinds.rust.classes NodeKinds.rust.wrappers).filter
      (·.kind == "impl_item")).filterMap (implType? cx)

theorem typeClass_filled {c : ClassDecl} (found : typeClass? cx n = some c) : c.name ≠ "" :=
  Rules.named_map (fun _ => rfl) found

theorem attach_names {classes : List ClassDecl} {b : ImplBlock} :
    "" ∈ (attach cx classes b).map (·.name) ↔ "" ∈ classes.map (·.name) ∨ b.owner = "" :=
  (attach_attaches classes b).names (fun _ => rfl) rfl

theorem classes_names {root : Node} : "" ∈ (classes cx root).map (·.name) ↔
    "" ∈ ((root.moduleLevel NodeKinds.rust.classes NodeKinds.rust.wrappers).filter
      (·.kind == "impl_item")).filterMap (implType? cx) := by
  unfold classes
  simp only
  rw [List.foldl_filterMap, Rules.grown_names (implType? cx), Rules.filled_filterMap typeClass_filled]
  · simp
  · intro classes m
    unfold implBlock?
    cases implType? cx m with
    | none => simp
    | some owner => simp [attach_names]

theorem variablesOf_filled {v : VariableDecl} (member : v ∈ variablesOf cx n) : v.name ≠ "" := by
  unfold variablesOf at member
  split at member
  · cases member
  · rename_i name found
    rw [List.mem_singleton.mp member]
    exact Context.name_filled found

theorem names : rules.Names bareNames where
  functions _ _ := Rules.filled_filterMap (Rules.named_map fun _ => rfl)
  classes _ _ := classes_names
  interfaces _ _ := Rules.filled_filterMap (Rules.named_map fun _ => rfl)
  typeAliases _ _ := Rules.filled_filterMap (Rules.named_map fun _ => rfl)
  bindings _ _ := Rules.filled_flatMap variablesOf_filled

end Named

end CodeEntities.Rust
