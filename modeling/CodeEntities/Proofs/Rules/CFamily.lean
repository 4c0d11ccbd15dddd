import CodeEntities.Proofs.Rules.Attached
import CodeEntities.Proofs.Rules.Declarations
import CodeEntities.Rules.CFamily

namespace CodeEntities.CFamily

def Section.under (o : Options) (s : Section) : Section := { s with members := s.members.under o }

def untemplated? (n : Node) : Option Node :=
  if n.kind == "template_declaration" then
    match _found : n.namedChildren.getLast? with
    | some m => untemplated? m
    | none => none
  else some n
termination_by n.size
decreasing_by exact size_last (by assumption)

-- The queue holds what is left of the members.
theorem readQueue_eq (cx : Context) (className : String) (s : Section) (queue : List Node) :
    readQueue cx className s queue =
      (queue.filterMap untemplated?).foldl (addMember cx className) s := by
  fun_induction readQueue cx className s queue with
  | case1 s => rfl
  | case2 s n queue isTemplate m last ih =>
    have inner : untemplated? n = untemplated? m := by
      rw [untemplated?, if_pos isTemplate]
      split
      · next other found => cases last.symm.trans found; rfl
      · next empty => cases last.symm.trans empty
    rw [ih, List.filterMap_cons, List.filterMap_cons, inner]
  | case3 s n queue isTemplate empty ih =>
    have absent : untemplated? n = none := by
      rw [untemplated?, if_pos isTemplate]
      split
      · next m last => cases empty.symm.trans last
      · rfl
    rw [ih, List.filterMap_cons_none absent]
  | case4 s n queue plain ih =>
    have own : untemplated? n = some n := by rw [untemplated?, if_neg plain]
    rw [ih, List.filterMap_cons_some own, List.foldl_cons]

theorem members_eq (cx : Context) (className : String) (body : Node) (default : Visibility) :
    members cx className body default =
      ((body.namedChildren.filterMap untemplated?).foldl (addMember cx className)
        ⟨default, {}⟩).members :=
  congrArg Section.members (readQueue_eq cx className _ _)

section Under

variable (cx : Context) (n : Node)

@[simp]
theorem resolveFrom_full (function : Option Node) (pointers : Nat) :
    resolveFrom cx.full function pointers n = resolveFrom cx function pointers n := by
  fun_induction resolveFrom cx function pointers n with
  | case1 function pointers n isQualified absent =>
    rw [resolveFrom.eq_def, if_pos isQualified]
    split
    · rfl
    · rename_i name found
      cases absent.symm.trans found
  | case2 function pointers n isQualified name found deeper ih =>
    rw [resolveFrom.eq_def, if_pos isQualified]
    split
    · rename_i absent
      cases absent.symm.trans found
    · rename_i other read
      cases found.symm.trans read
      rw [if_pos deeper]
      exact ih
  | case3 function pointers n isQualified name found last =>
    rw [resolveFrom.eq_def, if_pos isQualified, Context.text_full]
    split
    · rename_i absent
      cases absent.symm.trans found
    · rename_i other read
      cases found.symm.trans read
      rw [if_neg last]
  | case4 function pointers n notQualified isPlain =>
    rw [resolveFrom.eq_def, if_neg notQualified, if_pos isPlain, Context.text_full]
  | case5 function pointers n notQualified notPlain inner isPointer m found ih =>
    rw [resolveFrom.eq_def, if_neg notQualified, if_neg notPlain]
    extract_lets
    split
    · rename_i other read
      cases found.symm.trans read
      exact ih
    · rename_i absent
      cases absent.symm.trans found
  | case6 function pointers n notQualified notPlain absent =>
    rw [resolveFrom.eq_def, if_neg notQualified, if_neg notPlain]
    extract_lets
    split
    · rename_i m found
      cases absent.symm.trans found
    · rfl

@[simp]
theorem resolve_full : resolve cx.full = resolve cx := by
  funext n
  exact resolveFrom_full cx n none 0

@[simp]
theorem declarators_full : declarators cx.full = declarators cx := by
  funext n
  unfold declarators
  rw [resolve_full]

@[simp]
theorem templateParameters_full : templateParameters cx.full = templateParameters cx := rfl

@[simp]
theorem accessKeyword_full : accessKeyword? cx.full = accessKeyword? cx := rfl

@[simp]
theorem callable_full : callable cx.full = callable cx := by
  funext n d
  unfold callable
  rw [Context.parameters_full, Context.fieldText_full, templateParameters_full,
    Context.modifiers_full]

theorem topLevelFunction_under :
    topLevelFunction? cx n =
      (topLevelFunction? cx.full n).map fun found => (found.1.under cx.options, found.2) := by
  unfold topLevelFunction?
  rw [resolve_full, callable_full]
  cases (n.field? "declarator").bind (resolve cx) with
  | none => rfl
  | some d =>
    have same := Context.function_under cx ((template? n).getD n) d.name
    exact congrArg (fun f => some (f, d.qualifier)) (same _)

theorem memberMethod_under (d : Declarator) (visibility : Visibility) :
    memberMethod cx n d visibility = (memberMethod cx.full n d visibility).under cx.options := by
  unfold memberMethod
  rw [callable_full, Context.text_full]
  exact Context.method_under cx n d.name _ visibility

theorem addDeclarator_under (className : String) (access : Visibility) (m : Members)
    (entry : Declarator × Node) :
    addDeclarator cx className n access (m.under cx.options) entry =
      (addDeclarator cx.full className n access m entry).under cx.options := by
  unfold addDeclarator
  simp only
  rw [memberMethod_under]
  split
  · have name : ((memberMethod cx.full n entry.1 access).under cx.options).name =
        (memberMethod cx.full n entry.1 access).name := rfl
    rw [name]
    split
    · exact Members.under_addConstructor _
    · exact Members.under_addMethod _
  · rw [← Members.under_addProperties, Context.fieldText_full]
    rfl

theorem addMember_under (className : String) (s : Section) :
    addMember cx className (s.under cx.options) n =
      (addMember cx.full className s n).under cx.options := by
  unfold addMember
  rw [accessKeyword_full, declarators_full, Context.fieldText_full]
  split_ifs
  · simp only [Section.under]
  · have folded (entries : List (Declarator × Node)) :
        entries.foldl (addDeclarator cx className n s.access) (s.members.under cx.options) =
          (entries.foldl (addDeclarator cx.full className n s.access) s.members).under cx.options :=
      List.foldl_hom (Members.under cx.options) (addDeclarator_under cx n className s.access)
    exact congrArg (Section.mk s.access) (folded _)
  · cases cx.fieldText? n "name" with
    | none => rfl
    | some name =>
      refine congrArg (Section.mk s.access) ?_
      rw [← Members.under_addProperties]
      rfl
  · rfl

theorem members_under (className : String) (body : Node) (default : Visibility) :
    members cx className body default =
      (members cx.full className body default).under cx.options := by
  have folded (nodes : List Node) :
      nodes.foldl (addMember cx className) (Section.under cx.options ⟨default, {}⟩) =
        (nodes.foldl (addMember cx.full className) ⟨default, {}⟩).under cx.options :=
    List.foldl_hom (Section.under cx.options) fun s n => addMember_under cx n className s
  rw [members_eq, members_eq]
  exact congrArg Section.members (folded _)

theorem anyAbstract_under (o : Options) (methods : List MethodDecl) :
    (methods.map (·.under o)).any (·.isAbstract) = methods.any (·.isAbstract) := by
  rw [List.any_map]
  rfl

theorem classDecl_under (spec : Node) (name : String) (whole : Node) :
    classDecl cx spec name whole = (classDecl cx.full spec name whole).under cx.options := by
  unfold classDecl
  cases spec.field? "body" with
  | none => rfl
  | some body =>
    simp only [members_under cx, Members.under, anyAbstract_under]
    rfl

theorem class_under : class? cx n = (class? cx.full n).map (·.under cx.options) := by
  unfold class?
  rw [declarators_full, Context.fieldText_full]
  cases bodiedSpecifier? n with
  | none => rfl
  | some spec =>
    simp only [Option.bind_some]
    rw [Option.map_map]
    exact Option.map_congr fun name _ => classDecl_under cx spec name n

theorem replaceMethod_under (o : Options) (m : MethodDecl) (methods : List MethodDecl) :
    replaceMethod (m.under o) (methods.map (·.under o)) =
      (replaceMethod m methods).map (List.map (·.under o)) := by
  induction methods with
  | nil => rfl
  | cons first rest ih =>
    have name (x : MethodDecl) : (x.under o).name = x.name := rfl
    simp only [List.map_cons, replaceMethod, name]
    split
    · rfl
    · rw [ih, Option.map_map, Option.map_map]
      rfl

theorem define_under (o : Options) (c : ClassDecl) (m : MethodDecl) :
    define (c.under o) (m.under o) = (define c m).under o := by
  have replaced := replaceMethod_under o m c.methods
  have same : (c.under o).methods = c.methods.map (·.under o) := rfl
  unfold define
  rw [same, replaced]
  cases replaceMethod m c.methods with
  | some methods => rfl
  | none =>
    have mName : (m.under o).name = m.name := rfl
    have cName : (c.under o).name = c.name := rfl
    simp only [Option.map_none, mName, cName]
    split
    · rfl
    · simp only [ClassDecl.under, ClassDecl.membersUnder, List.map_append]
      rfl

theorem attach_under (o : Options) (classes : List ClassDecl) (owner : String) (m : MethodDecl) :
    attach (classes.map (·.under o)) owner (m.under o) =
      (attach classes owner m).map (·.under o) := by
  induction classes with
  | nil =>
    simp only [List.map_nil, attach, List.map_cons, ClassDecl.under, ClassDecl.membersUnder,
      Options.docOf_none]
    rfl
  | cons c rest ih =>
    have name : (c.under o).name = c.name := rfl
    simp only [List.map_cons, attach, name]
    split
    · rw [define_under, List.map_cons]
    · rw [ih, List.map_cons]

theorem functions_under (kinds : NodeKinds) :
    functions cx kinds n = (functions cx.full kinds n).map (·.under cx.options) := by
  refine filterMap_under (fun k => ?_) _
  rw [topLevelFunction_under]
  cases topLevelFunction? cx.full k with
  | none => rfl
  | some found =>
    obtain ⟨f, owner⟩ := found
    cases owner with
    | none => rfl
    | some owner => rfl

theorem classes_under (kinds : NodeKinds) :
    classes cx kinds n = (classes cx.full kinds n).map (·.under cx.options) := by
  unfold classes
  simp only
  rw [filterMap_under (class_under cx)]
  refine List.foldl_hom (List.map (ClassDecl.under cx.options)) fun found k => ?_
  rw [topLevelFunction_under]
  cases topLevelFunction? cx.full k with
  | none => rfl
  | some read =>
    obtain ⟨f, owner⟩ := read
    cases owner with
    | none => rfl
    | some owner => exact attach_under cx.options found owner (.ofFunction f .isPublic)

theorem aliases_under : aliases cx n = (aliases cx.full n).map (·.under cx.options) := by
  unfold aliases
  rw [Context.fieldText_full, declarators_full]
  split
  · cases cx.fieldText? n "name" with
    | none => rfl
    | some name => rfl
  · split
    · rfl
    · rw [List.map_map]
      rfl

theorem variablesOf_under :
    variablesOf cx n = (variablesOf cx.full n).map (·.under cx.options) := by
  unfold variablesOf
  rw [declarators_full, Context.modifiers_full, Context.text_full, Context.fieldText_full]
  rw [List.map_map]
  rfl

theorem importsOf_full : importsOf cx.full = importsOf cx := by
  funext n
  unfold importsOf
  rw [Context.fieldText_full, Context.text_full, Context.location_full]

theorem obeys (table : NodeKinds) : (rules table).Obeys where
  functions cx root := functions_under cx root table
  classes cx root := classes_under cx root table
  interfaces cx _ := filterMap_under (fun _ => by rfl) _
  typeAliases cx _ := flatMap_under (aliases_under cx) _
  bindings cx _ := flatMap_under (variablesOf_under cx) _
  imports cx _ := Rules.imports_full (importsOf_full cx) _
  exports _ _ := rfl

end Under

section Located

variable {cx : Context} {n k root : Node} {F : FunctionDecl → Prop} {P : Location → Prop}

theorem bodiedSpecifier_below (found : bodiedSpecifier? n = some k) : k ∈ n.preorder := by
  have read := (Option.filter_eq_some_iff.mp found).1
  split at read
  · cases read
    exact Node.self_mem_preorder n
  · exact Node.field_below (Option.filter_eq_some_iff.mp read).1

theorem untemplated_below (found : untemplated? n = some k) : k ∈ n.preorder := by
  fun_induction untemplated? n with
  | case1 n isTemplate m last ih =>
    exact Node.preorder_trans (Node.namedChild_below (List.mem_of_getLast? last)) (ih found)
  | case2 n isTemplate empty => cases found
  | case3 n plain =>
    cases found
    exact Node.self_mem_preorder k

theorem template_below (inside : n ∈ root.descendants) : (template? n).getD n ∈ root.preorder :=
  Node.heldIn_below inside

theorem template_around (n : Node) : n.Around ((template? n).getD n) :=
  Node.heldIn_around (by simp [Node.holderKinds])

theorem topLevelFunction_built {f : FunctionDecl} {owner : Option String}
    (found : topLevelFunction? cx n = some (f, owner)) : f.BuiltFrom cx n [] := by
  obtain ⟨d, _, same⟩ := Option.bind_eq_some_iff.mp found
  cases same
  exact Context.function_built (template_around n) d.name _

theorem topLevelFunction_located {f : FunctionDecl} {owner : Option String}
    (found : topLevelFunction? cx n = some (f, owner)) :
    f.location = cx.location ((template? n).getD n) := by
  obtain ⟨d, _, same⟩ := Option.bind_eq_some_iff.mp found
  cases same
  rfl

theorem addDeclarator_located {members : Members} {className : String} {access : Visibility}
    {entry : Declarator × Node} (located : members.Located F P)
    (declared : ∀ f, f.BuiltFrom cx n [] → F f) (place : P (cx.location n)) :
    (addDeclarator cx className n access members entry).Located F P := by
  have built : F (memberMethod cx n entry.1 access).function :=
    declared _ (Context.function_built (Node.around_self n) entry.1.name _)
  unfold addDeclarator
  simp only
  split
  · split
    · exact located.addConstructor built
    · exact located.addMethod built
  · refine located.addProperties fun p member => ?_
    rw [List.mem_singleton.mp member]
    exact place

theorem addMember_located {s : Section} {className : String} (located : s.members.Located F P)
    (declared : ∀ f, f.BuiltFrom cx n [] → F f) (place : P (cx.location n)) :
    (addMember cx className s n).members.Located F P := by
  unfold addMember
  split
  · exact located
  · split
    · exact Members.foldl_located
        (fun members entry _ before => addDeclarator_located before declared place) located
    · split
      · split
        · refine located.addProperties fun p member => ?_
          rw [List.mem_singleton.mp member]
          exact place
        · exact located
      · exact located

theorem members_located {className : String} {default : Visibility} :
    (members cx className n default).Located (cx.DeclaredBy n.preorder) (cx.Spanned n) := by
  rw [members_eq]
  refine List.foldlRecOn (motive := fun s : Section =>
    s.members.Located (cx.DeclaredBy n.preorder) (cx.Spanned n)) _ _ Members.empty_located ?_
  intro s located k member
  obtain ⟨c, child, found⟩ := List.mem_filterMap.mp member
  have below := Node.preorder_trans (Node.namedChild_below child) (untemplated_below found)
  exact addMember_located located (fun _ => Context.declared_below below)
    (Context.spanned_below below)

theorem class_located {c : ClassDecl} (found : class? cx n = some c) :
    c.Located (cx.DeclaredBy n.preorder) (cx.Spanned n) := by
  obtain ⟨spec, bodied, found⟩ := Option.bind_eq_some_iff.mp found
  obtain ⟨name, _, rfl⟩ := Option.map_eq_some_iff.mp found
  refine ⟨Context.spanned_self cx n, ?_⟩
  unfold classDecl
  cases read : spec.field? "body" with
  | none => exact Members.empty_located
  | some body =>
    have below := Node.preorder_trans (bodiedSpecifier_below bodied) (Node.field_below read)
    exact members_located.imp (fun _ declared => declared.imp (Node.preorder_sublist below))
      fun _ spanned => spanned.up below

theorem replaceMethod_located {m : MethodDecl} {methods result : List MethodDecl}
    (located : ∀ x ∈ methods, F x.function) (declared : F m.function)
    (found : replaceMethod m methods = some result) : ∀ x ∈ result, F x.function := by
  induction methods generalizing result with
  | nil => cases found
  | cons first rest ih =>
    obtain ⟨here, later⟩ := List.forall_mem_cons.mp located
    unfold replaceMethod at found
    split at found
    · cases found
      exact List.forall_mem_cons.mpr ⟨declared, later⟩
    · obtain ⟨replaced, read, rfl⟩ := Option.map_eq_some_iff.mp found
      exact List.forall_mem_cons.mpr ⟨here, ih later read⟩

theorem define_located {c : ClassDecl} {m : MethodDecl} (located : c.Located F P)
    (declared : F m.function) : (define c m).Located F P := by
  unfold define
  split
  · rename_i methods found
    exact ⟨located.place, replaceMethod_located located.members.methods declared found,
      located.members.properties, located.members.constructor⟩
  · split
    · exact ⟨located.place, located.members.methods, located.members.properties,
        by simpa using declared⟩
    · exact ⟨located.place, located.members.addMethod declared⟩

def extension (owner : String) (m : MethodDecl) : ClassDecl where
  name := owner
  kind := .extension
  methods := [m]
  location := m.function.location

theorem attach_attaches (classes : List ClassDecl) (owner : String) (m : MethodDecl) :
    Rules.Attaches owner (define · m) (extension owner m) classes (attach classes owner m) := by
  induction classes with
  | nil => exact .new
  | cons c rest ih =>
    unfold attach
    split
    · next own => exact .owner (beq_iff_eq.mp own)
    · next other => exact .past (fun own => other (beq_iff_eq.mpr own)) ih

theorem attach_located {classes : List ClassDecl} {owner : String} {m : MethodDecl}
    (located : ∀ c ∈ classes, c.Located F P) (declared : F m.function)
    (place : P m.function.location) : ∀ c ∈ attach classes owner m, c.Located F P :=
  (attach_attaches classes owner m).forall located (fun _ => id)
    (fun _ here => define_located here declared)
    ⟨place, Members.empty_located.addMethod declared⟩

variable {kinds : NodeKinds}

theorem function_located {f : FunctionDecl}
    (found : ((topLevelFunction? cx n).filter (·.2.isNone)).map (·.1) = some f) :
    f.location = cx.location ((template? n).getD n) := by
  obtain ⟨⟨g, owner⟩, read, rfl⟩ := Option.map_eq_some_iff.mp found
  exact topLevelFunction_located (Option.filter_eq_some_iff.mp read).1

def qualified (cx : Context) (kinds : NodeKinds) (root : Node) (isQualified : Bool) : List Node :=
  (root.moduleLevel kinds.functions kinds.wrappers).filter fun n =>
    (topLevelFunction? cx n).any fun entry => entry.2.isSome == isQualified

def sites (kinds : NodeKinds) : Rules.Sites where
  functions cx root := qualified cx kinds root false
  homes cx root := root.moduleLevel kinds.classes kinds.wrappers ++ qualified cx kinds root true

theorem functions_declared :
    ∀ f ∈ functions cx kinds root, cx.DeclaredBy ((sites kinds).functions cx root) f := by
  intro f member
  obtain ⟨n, candidate, found⟩ := List.mem_filterMap.mp member
  obtain ⟨⟨g, owner⟩, read, rfl⟩ := Option.map_eq_some_iff.mp found
  obtain ⟨read, bare⟩ := Option.filter_eq_some_iff.mp read
  refine Context.declared_below ?_ (topLevelFunction_built read)
  refine List.mem_filter.mpr ⟨candidate, ?_⟩
  rw [read]
  simpa using bare

theorem classes_located : ∀ c ∈ classes cx kinds root,
    c.Located (cx.Homed ((sites kinds).homes cx root)) (cx.Placed root) := by
  refine List.foldlRecOn (motive := fun found : List ClassDecl => ∀ c ∈ found,
    c.Located (cx.Homed ((sites kinds).homes cx root)) (cx.Placed root)) _ _ ?_ ?_
  · exact Rules.classes_located (fun _ => List.mem_append_left _) (fun _ => Node.collected_below)
      class_located
  · intro found located n candidate
    cases read : topLevelFunction? cx n with
    | none => exact located
    | some result =>
      obtain ⟨f, owner⟩ := result
      cases owner with
      | none => exact located
      | some owner =>
        have home : n ∈ qualified cx kinds root true := by
          refine List.mem_filter.mpr ⟨candidate, ?_⟩
          rw [read]
          rfl
        refine attach_located located ⟨n, List.mem_append_right _ home, ?_⟩ fun _ => ?_
        · exact Context.declared_below (Node.self_mem_preorder n) (topLevelFunction_built read)
        · rw [MethodDecl.ofFunction, topLevelFunction_located read]
          exact Context.spanned_below (template_below (Node.collected_descends candidate))

theorem aliases_located {a : TypeAliasDecl} (member : a ∈ aliases cx n) :
    a.location = cx.location n := by
  unfold aliases at member
  simp only at member
  split at member
  · split at member
    · rw [List.mem_singleton.mp member]
    · cases member
  · split at member
    · cases member
    · obtain ⟨entry, _, rfl⟩ := List.mem_map.mp member
      rfl

theorem variablesOf_located {v : VariableDecl} (member : v ∈ variablesOf cx n) :
    v.location = cx.location n := by
  obtain ⟨entry, _, rfl⟩ := List.mem_map.mp member
  rfl

theorem importsOf_located {i : ImportDecl} (member : i ∈ importsOf cx n) :
    i.location = cx.location n := by
  unfold importsOf at member
  split at member
  · split at member
    · rw [List.mem_singleton.mp member]
    · cases member
  · simp only at member
    split at member
    · rw [List.mem_singleton.mp member]
    · rw [List.mem_singleton.mp member]

theorem locates (table : NodeKinds) : (rules table).Locates (sites table) where
  functions := functions_declared
  classes := classes_located
  interfaces := Rules.none_found
  typeAliases _ := Rules.spanned_flatMap (fun _ => Node.collected_below) aliases_located
  bindings _ := Rules.spanned_flatMap (fun _ => Node.collected_below) variablesOf_located
  imports _ := Rules.spanned_flatMap (fun _ => Node.collected_below) importsOf_located
  exports _ := List.forall_mem_nil _

theorem separates {table : NodeKinds}
    (functions : ∀ k ∈ table.functions, k ∉ table.wrappers ∧ k ∉ table.classes)
    (types : ∀ k ∈ table.classes, k ∉ table.wrappers) : (rules table).Separates (sites table) where
  inOrder := List.filter_sublist.trans (Node.collectBelow_descends _ _)
  reached n site := Rules.module_reached (fun k wanted => (functions k wanted).1) n
    (List.mem_filter.mp site).1
  homes h home := by
    rcases List.mem_append.mp home with declared | definition
    · exact ⟨Node.collected_descends declared, types _ (Node.moduleLevel_reached declared).2⟩
    · have candidate := (List.mem_filter.mp definition).1
      exact ⟨Node.collected_descends candidate,
        (functions _ (Node.moduleLevel_reached candidate).2).1⟩
  apart n site home := by
    obtain ⟨candidate, bare⟩ := List.mem_filter.mp site
    rcases List.mem_append.mp home with declared | definition
    · exact (functions _ (Node.moduleLevel_reached candidate).2).2
        (Node.moduleLevel_reached declared).2
    · have qualified := (List.mem_filter.mp definition).2
      cases read : topLevelFunction? _ n with
      | none =>
        rw [read] at bare
        cases bare
      | some entry =>
        rw [read, Option.any_some, beq_iff_eq] at bare qualified
        rw [bare] at qualified
        cases qualified

theorem orders (table : NodeKinds) : (rules table).Orders where
  functions placed single := Context.inOrder_filterMap _ (fun n => (template? n).getD n)
    (Node.heldIn_inOrder placed fun w below holder =>
      single w below (by simp [holder, Node.holderKinds]))
    fun _ _ _ found => congrArg Location.opening (function_located found)
  interfaces _ := Rules.none_inOrder
  typeAliases placed := Rules.inOrder_flatMap placed (Node.moduleLevel_sublist _ _ _)
    aliases_located
  bindings placed := Rules.inOrder_flatMap placed (Node.moduleLevel_sublist _ _ _)
    variablesOf_located
  imports placed := Rules.inOrder_flatMap placed (Node.moduleLevel_sublist _ _ _) importsOf_located
  exports _ := .nil

end Located

section Named

variable {cx : Context} {n k root : Node}

def bareNames (table : NodeKinds) : Rules.BareNames where
  classes cx root := (root.moduleLevel table.functions table.wrappers).filterMap fun n =>
    ((n.field? "declarator").bind (resolve cx)).bind (·.qualifier)

theorem resolveFrom_filled {function : Option Node} {pointers : Nat} {d : Declarator}
    (found : resolveFrom cx function pointers n = some d) : d.name ≠ "" := by
  fun_induction resolveFrom cx function pointers n with
  | case1 => cases found
  | case2 function pointers n isQualified name field deeper ih => exact ih found
  | case3 function pointers n isQualified name field last =>
    exact Rules.filled_map (fun _ => nonBlank_filled) (fun _ => rfl) found
  | case4 function pointers n notQualified isPlain =>
    exact Rules.filled_map (fun _ => nonBlank_filled) (fun _ => rfl) found
  | case5 function pointers n notQualified notPlain inner isPointer m step ih => exact ih found
  | case6 => cases found

theorem declarator_filled {entry : Declarator × Node} (member : entry ∈ declarators cx n) :
    entry.1.name ≠ "" := by
  obtain ⟨d, _, read⟩ := List.mem_filterMap.mp member
  obtain ⟨r, found, rfl⟩ := Option.map_eq_some_iff.mp read
  exact resolveFrom_filled found

theorem class_filled {c : ClassDecl} (found : class? cx n = some c) : c.name ≠ "" := by
  obtain ⟨spec, _, found⟩ := Option.bind_eq_some_iff.mp found
  refine Rules.filled_map (fun name named => ?_) (fun _ => rfl) found
  rcases Option.or_eq_some_iff.mp named with given | ⟨_, tag⟩
  · split at given
    · obtain ⟨entry, first, rfl⟩ := Option.map_eq_some_iff.mp given
      exact declarator_filled (List.mem_of_head? first)
    · cases given
  · exact Context.fieldText_filled tag

theorem define_name (c : ClassDecl) (m : MethodDecl) : (define c m).name = c.name := by
  unfold define
  split
  · rfl
  · split
    · rfl
    · rfl

theorem attach_names {classes : List ClassDecl} {owner : String} {m : MethodDecl} :
    "" ∈ (attach classes owner m).map (·.name) ↔ "" ∈ classes.map (·.name) ∨ owner = "" :=
  (attach_attaches classes owner m).names (define_name · m) rfl

theorem classes_names {table : NodeKinds} : "" ∈ (classes cx table root).map (·.name) ↔
    "" ∈ (bareNames table).classes cx root := by
  unfold classes
  simp only
  rw [Rules.grown_names fun n => ((n.field? "declarator").bind (resolve cx)).bind (·.qualifier),
    Rules.filled_filterMap class_filled]
  · simp [bareNames]
  · intro classes m
    unfold topLevelFunction?
    cases (m.field? "declarator").bind (resolve cx) with
    | none => simp
    | some d => cases owner : d.qualifier <;> simp [owner, attach_names]

theorem function_filled {f : FunctionDecl}
    (found : ((topLevelFunction? cx n).filter (·.2.isNone)).map (·.1) = some f) : f.name ≠ "" := by
  obtain ⟨⟨g, owner⟩, read, rfl⟩ := Option.map_eq_some_iff.mp found
  obtain ⟨d, resolved, same⟩ := Option.bind_eq_some_iff.mp (Option.filter_eq_some_iff.mp read).1
  cases same
  obtain ⟨declarator, _, resolved⟩ := Option.bind_eq_some_iff.mp resolved
  exact resolveFrom_filled resolved

theorem aliases_filled {a : TypeAliasDecl} (member : a ∈ aliases cx n) : a.name ≠ "" := by
  unfold aliases at member
  simp only at member
  split at member
  · split at member
    · rename_i name found
      rw [List.mem_singleton.mp member]
      exact Context.fieldText_filled found
    · cases member
  · split at member
    · cases member
    · obtain ⟨entry, listed, rfl⟩ := List.mem_map.mp member
      exact declarator_filled listed

theorem variablesOf_filled {v : VariableDecl} (member : v ∈ variablesOf cx n) : v.name ≠ "" := by
  obtain ⟨entry, listed, rfl⟩ := List.mem_map.mp member
  exact declarator_filled (List.mem_filter.mp listed).1

theorem names (table : NodeKinds) : (rules table).Names (bareNames table) where
  functions _ _ := Rules.filled_filterMap function_filled
  classes _ _ := classes_names
  interfaces _ _ := Rules.filled_filterMap nofun
  typeAliases _ _ := Rules.filled_flatMap aliases_filled
  bindings _ _ := Rules.filled_flatMap variablesOf_filled

end Named

section Declared

variable {cx : Context} {n root : Node} {table : NodeKinds}

theorem define_bare (c : ClassDecl) (m : MethodDecl) : (define c m).bare = c.bare := by
  unfold define
  split
  · rfl
  · split
    · rfl
    · rfl

theorem attach_extends (classes : List ClassDecl) (owner : String) (m : MethodDecl) :
    Rules.Extends (attach classes owner m) classes :=
  (attach_attaches classes owner m).extends (define_bare · m)
    ⟨rfl, m, List.mem_singleton_self m, rfl⟩

-- A definition of a type is a class with a body, else it is an alias.
def typeSites (table : NodeKinds) (cx : Context) (root : Node) : Rules.TypeSites where
  classes := Rules.itself (fun n => (class? cx n).toList)
    (root.moduleLevel table.classes table.wrappers)
  interfaces := []
  typeAliases := Rules.itself (aliases cx) (root.moduleLevel table.typeAliases table.wrappers)

theorem class_bodied {c : ClassDecl} (found : class? cx n = some c) :
    (bodiedSpecifier? n).isSome ∧ c.location = cx.location n := by
  obtain ⟨spec, bodied, found⟩ := Option.bind_eq_some_iff.mp found
  exact ⟨Option.isSome_of_eq_some bodied, Context.location_map (fun _ => rfl) found⟩

theorem aliases_unbodied {a : TypeAliasDecl} (other : n.kind ≠ "alias_declaration")
    (member : a ∈ aliases cx n) : ¬ (bodiedSpecifier? n).isSome := by
  unfold aliases at member
  rw [if_neg (by simpa using other)] at member
  split at member
  · cases member
  · assumption

theorem types_declared (named : "alias_declaration" ∉ table.classes) (cx : Context) (root : Node) :
    (typeSites table cx root).Declares cx ((rules table).classes cx root)
      ((rules table).interfaces cx root) ((rules table).typeAliases cx root) where
  classes := by
    refine ⟨_, Rules.foldl_extends (fun found n => ?_) _ _,
      Rules.itself_options fun _ _ _ found => (class_bodied found).2⟩
    split
    · exact attach_extends found _ _
    · exact Rules.extends_refl found
  interfaces := by
    have interfaceless : (rules table).interfaces cx root = [] :=
      List.filterMap_eq_nil_iff.mpr fun _ _ => rfl
    exact interfaceless ▸ .nil
  typeAliases := Rules.itself_matched fun _ _ _ => aliases_located
  noClassInterface := List.disjoint_nil_right _
  noClassAlias := Rules.itself_disjoint fun {n} _ _ declared _ body defined => by
    have kind : n.kind ∈ table.classes := (Node.moduleLevel_reached declared).2
    have other : n.kind ≠ "alias_declaration" := fun same => named (same ▸ kind)
    exact aliases_unbodied other defined (class_bodied (Option.mem_toList.mp body)).1
  noInterfaceAlias := List.disjoint_nil_left _

def definitionHead (cx : Context) (n : Node) : ClassHead :=
  ⟨((topLevelFunction? cx n).bind (·.2)).getD "", .extension,
    (cx.location ((template? n).getD n)).opening⟩

theorem define_head (c : ClassDecl) (m : MethodDecl) : (define c m).head = c.head := by
  have same := congrArg ClassDecl.head (define_bare c m)
  exact same

theorem class_kind {c : ClassDecl} (found : class? cx n = some c) : c.kind ≠ .extension := by
  obtain ⟨spec, _, found⟩ := Option.bind_eq_some_iff.mp found
  obtain ⟨name, _, rfl⟩ := Option.map_eq_some_iff.mp found
  simp only [classDecl]
  unfold classKind
  split
  · decide
  · split
    · decide
    · decide

theorem classes_run (table : NodeKinds) : (rules table).AppendsExtensions :=
  fun {cx root} placed single => by
    refine Rules.foldl_runs (definitionHead cx) (fun found n => ?_) ?_ ?_ ?_ fun _ => rfl
    · split
      · next f owner read =>
        have head : definitionHead cx n =
            (extension owner (.ofFunction f .isPublic)).head := by
          rw [definitionHead, read, ← topLevelFunction_located read]
          rfl
        exact head ▸ (attach_attaches found owner _).appends (define_head · _) rfl
      · exact Rules.appends_self _ found
    · exact Rules.inOrder_filterMap placed (Node.moduleLevel_sublist _ _ _)
        fun found => (class_bodied found).2
    · have starts : (root.moduleLevel table.functions table.wrappers).Pairwise fun a b =>
          ((template? a).getD a).label.start ≤ ((template? b).getD b).label.start :=
        Node.heldIn_inOrder placed fun w below holder =>
          single w below (by simp [holder, Node.holderKinds])
      exact starts.imp cx.opening_mono
    · intro c declared
      obtain ⟨n, _, found⟩ := List.mem_filterMap.mp declared
      exact class_kind found

end Declared

end CodeEntities.CFamily
