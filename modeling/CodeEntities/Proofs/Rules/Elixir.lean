import CodeEntities.Proofs.Rules.Declarations
import CodeEntities.Rules.Elixir
import Mathlib.Data.List.Basic
import Mathlib.Tactic.SplitIfs

namespace CodeEntities.Elixir

section Under

variable (cx : Context) (n : Node)

@[simp]
theorem target_full : target? cx.full = target? cx := rfl

@[simp]
theorem attribute_full : attribute? cx.full = attribute? cx := rfl

@[simp]
theorem docText_full : docText? cx.full = docText? cx := rfl

@[simp]
theorem head_full : head? cx.full = head? cx := rfl

@[simp]
theorem aliasOption_full : aliasOption? cx.full = aliasOption? cx := rfl

@[simp]
theorem parameter_full : parameter cx.full = parameter cx := rfl

theorem definition_under (pending : Pending) :
    definition? cx pending n = (definition? cx.full pending n).map (·.under cx.options) := by
  unfold definition?
  rw [target_full, head_full, parameter_full]
  cases target? cx n with
  | none => rfl
  | some macroName =>
    cases head? cx n with
    | none => rfl
    | some head =>
      simp only [Option.bind_eq_bind, Option.bind_some]
      rw [Context.method_under]
      rfl

theorem joinClauses_under (earlier later : MethodDecl) :
    joinClauses cx (earlier.under cx.options) (later.under cx.options) =
      (joinClauses cx.full earlier later).under cx.options := by
  simp only [joinClauses, MethodDecl.under, FunctionDecl.under, Options.docOf_or]
  cases counted : cx.options.complexity with
  | false => simp [Options.complexityOf, counted]
  | true => simp [Options.complexityOf, counted, Context.full]

theorem addClause_under (m : MethodDecl) (methods : List MethodDecl) :
    addClause cx (m.under cx.options) (methods.map (·.under cx.options)) =
      (addClause cx.full m methods).map (·.under cx.options) := by
  induction methods with
  | nil => rfl
  | cons e rest ih =>
    have joins : ((e.under cx.options).name == (m.under cx.options).name &&
        (e.under cx.options).function.params.length ==
          (m.under cx.options).function.params.length) =
        (e.name == m.name && e.function.params.length == m.function.params.length) := rfl
    simp only [List.map_cons, addClause, joins]
    split
    · rw [List.map_cons, joinClauses_under]
    · rw [List.map_cons, ih]

theorem structField_under :
    structField? cx n = (structField? cx.full n).map (·.under cx.options) := by
  unfold structField?
  split
  · rw [Option.map_map]
    rfl
  · rfl

-- The doc comment of a module is no matter of the options: it comes from an attribute.
def Body.under (o : Options) (body : Body) : Body :=
  { body with declared := body.declared.membersUnder o }

theorem addAttribute_under (body : Body) (name : String) (value : Option Node) :
    addAttribute cx (body.under cx.options) n name value =
      (addAttribute cx.full body n name value).under cx.options := by
  unfold addAttribute
  rw [docText_full, Context.text_full, Context.trimmed_full]
  simp only
  split_ifs
  · rfl
  · rfl
  · rfl
  · rfl
  · rfl
  · simp only [Body.under, ClassDecl.membersUnder, List.map_append]
    rfl

theorem addStatement_under (body : Body) :
    addStatement cx (body.under cx.options) n =
      (addStatement cx.full body n).under cx.options := by
  unfold addStatement
  rw [attribute_full, target_full]
  cases attribute? cx n with
  | some entry => exact addAttribute_under cx n body _ _
  | none =>
    cases target? cx n with
    | none => rfl
    | some name =>
      simp only
      split_ifs
      · have pending : (body.under cx.options).pending = body.pending := rfl
        rw [pending, definition_under cx]
        cases definition? cx.full body.pending n with
        | none => rfl
        | some m =>
          simp only [Option.map_some, Body.under, ClassDecl.membersUnder, addClause_under]
      · rw [filterMap_under (structField_under cx)]
        simp only [Body.under, ClassDecl.membersUnder, List.map_append]
      · rfl

theorem body_under (start : Body) (nodes : List Node) :
    nodes.foldl (addStatement cx) (start.under cx.options) =
      (nodes.foldl (addStatement cx.full) start).under cx.options :=
  List.foldl_hom (Body.under cx.options) fun body n => addStatement_under cx n body

theorem module_under : module? cx n = (module? cx.full n).map (·.membersUnder cx.options) := by
  have declared (body : Body) :
      body.declared.membersUnder cx.options = (body.under cx.options).declared := rfl
  unfold module?
  rw [Option.map_map, Context.trimmed_full, Context.location_full]
  refine Option.map_congr fun name _ => ?_
  simp only [Function.comp, declared, ← body_under]
  rfl

@[simp]
theorem moduleCalls_full : moduleCalls cx.full n = moduleCalls cx n := by
  fun_induction moduleCalls cx n with
  | case1 n ih =>
    rw [moduleCalls, target_full]
    refine congrArg (List.flatMap · _) (funext fun ⟨c, child⟩ => ?_)
    simp only
    cases target? cx c with
    | none => rfl
    | some name =>
      refine congrArg (List.cons _) ?_
      split
      · split
        · rename_i block found
          exact ih c child block found
        · rfl
      · rfl

theorem containers_under (target : String) :
    containers cx n target =
      (containers cx.full n target).map (·.membersUnder cx.options) := by
  unfold containers
  rw [moduleCalls_full, List.map_filterMap]
  simp only [← module_under]

theorem clauses_under (methods : List MethodDecl) :
    (methods.map (·.under cx.options)).foldl (fun joined m => addClause cx m joined) [] =
      (methods.foldl (fun joined m => addClause cx.full m joined) []).map
        (·.under cx.options) := by
  rw [List.foldl_map]
  exact foldl_under (fun joined m => addClause_under cx m joined) methods

theorem functions_under : functions cx n = (functions cx.full n).map (·.under cx.options) := by
  unfold functions
  rw [target_full]
  simp only
  rw [filterMap_under fun n => definition_under cx n {}, clauses_under, List.map_map, List.map_map]
  rfl

theorem interfaces_under :
    interfaces cx n = (interfaces cx.full n).map (·.membersUnder cx.options) := by
  unfold interfaces
  rw [containers_under cx, List.map_map, List.map_map]
  rfl

theorem importOf_full : importOf? cx.full = importOf? cx := by
  funext macroName n
  unfold importOf?
  rw [Context.trimmed_full, Context.location_full, aliasOption_full]

theorem obeys : rules.Obeys ClassDecl.membersUnder InterfaceDecl.membersUnder where
  functions := functions_under
  classes cx root := containers_under cx root "defmodule"
  interfaces := interfaces_under
  typeAliases cx _ := filterMap_under (Rules.typeAliasOf_under .elixir .isPublic cx) _
  bindings cx _ := flatMap_under (fun _ => by rfl) _
  imports cx _ := by
    simp only [rules]
    rw [importOf_full]
    simp only [moduleCalls_full]
  exports _ _ := rfl

end Under

section Located

variable {cx : Context} {n k root : Node} {seen : List Node}

theorem argument_below (member : k ∈ arguments n) : k ∈ n.preorder :=
  Node.partChild_below (fun _ => Node.childOfKind_below) member

theorem statements_sublist (n : Node) :
    (((doBlock? n).map Node.namedChildren).getD []).Sublist n.preorder := by
  cases found : doBlock? n with
  | none => exact List.nil_sublist _
  | some block =>
    have inside := Node.preorder_sublist (Node.childOfKind_below found)
    exact (Node.namedChildren_sublist block).trans inside

theorem moduleCalls_sublist (cx : Context) (n : Node) :
    ((moduleCalls cx n).map (·.2)).Sublist n.descendants := by
  fun_induction moduleCalls cx n with
  | case1 n ih =>
    rw [List.map_flatMap]
    refine List.Sublist.trans (List.Sublist.flatMap_right _ (g := fun c => c.1.preorder) ?_) ?_
    · rintro ⟨c, child⟩ _
      simp only
      split
      · exact List.nil_sublist _
      · rw [List.map_cons, Node.preorder_eq]
        refine List.Sublist.cons_cons c ?_
        split
        · split
          · rename_i block found
            have child := List.mem_of_find?_eq_some found
            exact (ih c ‹_› block found).trans ((Node.descendants_sublist block).trans
              (List.sublist_flatten_of_mem (List.mem_map_of_mem child)))
          · exact List.nil_sublist _
        · exact List.nil_sublist _
    · exact Node.attached_preorders n ▸ List.Sublist.refl _

theorem moduleCalls_below {name : String} (member : (name, k) ∈ moduleCalls cx n) :
    k ∈ n.preorder :=
  (Node.descendants_sublist n).subset
    ((moduleCalls_sublist cx n).subset (List.mem_map_of_mem member))

theorem moduleCalls_target {name : String} (member : (name, k) ∈ moduleCalls cx n) :
    target? cx k = some name := by
  fun_induction moduleCalls cx n with
  | case1 n ih =>
    obtain ⟨⟨c, child⟩, _, member⟩ := List.mem_flatMap.mp member
    simp only at member
    split at member
    · cases member
    · rename_i called target
      rcases List.mem_cons.mp member with same | inner
      · cases same
        exact target
      · split at inner
        · split at inner
          · rename_i block found
            exact ih c child block found inner
          · cases inner
        · cases inner

-- What a definition says of its node, joined to further clauses or not.
structure DefinedBy (cx : Context) (n : Node) (m : MethodDecl) : Prop where
  built : m.function.BuiltFrom cx n []
  place : m.function.location = cx.location n
  branches : m.function.complexity = cx.complexity n

theorem definition_defined {pending : Pending} {m : MethodDecl}
    (found : definition? cx pending n = some m) : DefinedBy cx n m := by
  obtain ⟨macroName, _, found⟩ := Option.bind_eq_some_iff.mp found
  obtain ⟨⟨name, args⟩, _, same⟩ := Option.bind_eq_some_iff.mp found
  cases same
  exact ⟨Context.function_built (Node.around_self n) name _, rfl, rfl⟩

theorem joinClauses_declared {e m : MethodDecl} (declared : cx.DeclaredBy seen e.function)
    (defined : DefinedBy cx k m) : cx.DeclaredBy (seen ++ [k]) (joinClauses cx e m).function := by
  obtain ⟨first, more, listed, whole, around, body, place, branches⟩ := declared
  refine ⟨first, more ++ [k], listed.append (List.Sublist.refl [k]), whole, around, body, ?_, ?_⟩
  · rw [List.getLast?_concat]
    simp only [joinClauses, place, defined.place]
    rfl
  · simp only [joinClauses, branches, defined.branches, List.foldl_append, List.foldl_cons,
      List.foldl_nil]
    split
    · rfl
    · rfl

theorem addClause_declared {m : MethodDecl} {methods : List MethodDecl}
    (defined : DefinedBy cx k m) (declared : ∀ e ∈ methods, cx.DeclaredBy seen e.function) :
    ∀ e ∈ addClause cx m methods, cx.DeclaredBy (seen ++ [k]) e.function := by
  have pass := fun e member => (declared e member).pass k
  induction methods with
  | nil =>
    intro e member
    rw [List.mem_singleton.mp member]
    have last := List.mem_append_right seen (List.mem_singleton_self k)
    exact Context.declared_below last defined.built
  | cons first rest ih =>
    obtain ⟨here, others⟩ := List.forall_mem_cons.mp declared
    obtain ⟨passed, passes⟩ := List.forall_mem_cons.mp pass
    unfold addClause
    split
    · exact List.forall_mem_cons.mpr ⟨joinClauses_declared here defined, passes⟩
    · exact List.forall_mem_cons.mpr ⟨passed, ih others passes⟩

theorem fieldNodes_below (member : k ∈ fieldNodes n) : k ∈ n.preorder := by
  obtain ⟨argument, inside, found⟩ := List.mem_flatMap.mp member
  exact Node.preorder_trans (argument_below inside) ((Node.collect_sublist _ argument).subset found)

theorem structField_located {p : PropertyDecl} (found : structField? cx n = some p) :
    p.location = cx.location n := by
  unfold structField? at found
  split at found
  · obtain ⟨key, _, rfl⟩ := Option.map_eq_some_iff.mp found
    rfl
  · cases found
    rfl

structure Collected (cx : Context) (n : Node) (seen : List Node) (body : Body) : Prop where
  place : body.declared.location = cx.location n
  methods : ∀ m ∈ body.declared.methods, cx.DeclaredBy seen m.function
  properties : ∀ p ∈ body.declared.properties, cx.Spanned n p.location
  constructor : body.declared.constructor = none

theorem Collected.pass {body : Body} (collected : Collected cx n seen body) (k : Node) :
    Collected cx n (seen ++ [k]) body where
  place := collected.place
  methods m member := (collected.methods m member).pass k
  properties := collected.properties
  constructor := collected.constructor

theorem addAttribute_collected {body : Body} {name : String} {value : Option Node}
    (below : k ∈ n.preorder) (collected : Collected cx n seen body) :
    Collected cx n seen (addAttribute cx body k name value) := by
  obtain ⟨place, methods, properties, constructor⟩ := collected
  unfold addAttribute
  simp only
  split_ifs
  · exact ⟨place, methods, properties, constructor⟩
  · exact ⟨place, methods, properties, constructor⟩
  · exact ⟨place, methods, properties, constructor⟩
  · exact ⟨place, methods, properties, constructor⟩
  · exact ⟨place, methods, properties, constructor⟩
  · refine ⟨place, methods, ?_, constructor⟩
    intro p member
    rcases List.mem_append.mp member with old | new
    · exact properties p old
    · rw [List.mem_singleton.mp new]
      exact Context.spanned_below below

theorem addStatement_collected {body : Body} (below : k ∈ n.preorder)
    (collected : Collected cx n seen body) :
    Collected cx n (seen ++ [k]) (addStatement cx body k) := by
  have passed := collected.pass k
  unfold addStatement
  cases attribute? cx k with
  | some entry => exact addAttribute_collected below passed
  | none =>
    cases target? cx k with
    | none => exact passed
    | some name =>
      simp only
      split_ifs
      · cases found : definition? cx body.pending k with
        | none => exact ⟨passed.place, passed.methods, passed.properties, passed.constructor⟩
        | some m =>
          have methods := addClause_declared (definition_defined found) collected.methods
          exact ⟨passed.place, methods, passed.properties, passed.constructor⟩
      · refine ⟨passed.place, passed.methods, ?_, passed.constructor⟩
        intro p member
        rcases List.mem_append.mp member with old | new
        · exact passed.properties p old
        · obtain ⟨field, inside, read⟩ := List.mem_filterMap.mp new
          rw [structField_located read]
          exact Context.spanned_below (Node.preorder_trans below (fieldNodes_below inside))
      · exact passed

theorem module_collected {c : ClassDecl} (found : module? cx n = some c) :
    ∃ body, c = body.declared ∧
      Collected cx n (((doBlock? n).map Node.namedChildren).getD []) body := by
  obtain ⟨name, _, rfl⟩ := Option.map_eq_some_iff.mp found
  refine ⟨_, rfl, Context.foldl_seen (motive := Collected cx n) ?_ ?_⟩
  · exact ⟨rfl, List.forall_mem_nil _, List.forall_mem_nil _, rfl⟩
  · intro seen k body statement collected
    have listed := statement.subset (List.mem_append_right seen (List.mem_singleton_self k))
    exact addStatement_collected ((statements_sublist n).subset listed) collected

theorem module_located {c : ClassDecl} (found : module? cx n = some c) :
    c.Located (cx.DeclaredBy n.preorder) (cx.Spanned n) := by
  obtain ⟨body, rfl, collected⟩ := module_collected found
  refine ⟨collected.place ▸ Context.spanned_self cx n, ?_, collected.properties, ?_⟩
  · exact fun m member => (collected.methods m member).imp (statements_sublist n)
  · simp [collected.constructor]

theorem module_place {c : ClassDecl} (found : module? cx n = some c) :
    c.location = cx.location n := by
  obtain ⟨body, rfl, collected⟩ := module_collected found
  exact collected.place

def sites : Rules.Sites where
  functions cx root :=
    root.namedChildren.filter fun n => (target? cx n).any definitionMacros.contains
  homes cx root :=
    ((moduleCalls cx root).filter fun call =>
      ["defmodule", "defprotocol"].contains call.1).map (·.2)

theorem containers_located {target : String} (isContainer : target ∈ ["defmodule", "defprotocol"]) :
    ∀ c ∈ containers cx root target,
      c.Located (cx.Homed (sites.homes cx root)) (cx.Placed root) := by
  intro c member
  obtain ⟨⟨name, n⟩, called, found⟩ := List.mem_filterMap.mp member
  obtain ⟨called, named⟩ := List.mem_filter.mp called
  have home : n ∈ sites.homes cx root := by
    refine List.mem_map.mpr ⟨(name, n), List.mem_filter.mpr ⟨called, ?_⟩, rfl⟩
    exact List.contains_iff_mem.mpr (eq_of_beq named ▸ isContainer)
  exact (module_located found).imp (fun _ declared => ⟨n, home, declared⟩)
    fun _ spanned _ => spanned.up (moduleCalls_below called)

theorem clauses_declared (cx : Context) (nodes : List Node) :
    ∀ m ∈ (nodes.filterMap (definition? cx {})).foldl (fun methods m => addClause cx m methods) [],
      cx.DeclaredBy nodes m.function := by
  rw [List.foldl_filterMap]
  refine Context.foldl_seen (motive := fun seen (methods : List MethodDecl) =>
    ∀ m ∈ methods, cx.DeclaredBy seen m.function) (List.forall_mem_nil _) ?_
  intro seen k methods _ declared
  cases found : definition? cx {} k with
  | none => exact fun m member => (declared m member).pass k
  | some m => exact addClause_declared (definition_defined found) declared

theorem functions_declared :
    ∀ f ∈ functions cx root, cx.DeclaredBy (sites.functions cx root) f := by
  intro f member
  obtain ⟨m, joined, rfl⟩ := List.mem_map.mp member
  exact clauses_declared cx _ m joined

-- A clause joins a function in its place, or makes a new one at the end.
theorem addClause_openings (cx : Context) (m : MethodDecl) (methods : List MethodDecl) :
    (addClause cx m methods).map (·.function.location.opening) =
        methods.map (·.function.location.opening) ∨
      (addClause cx m methods).map (·.function.location.opening) =
        methods.map (·.function.location.opening) ++ [m.function.location.opening] := by
  induction methods with
  | nil => exact .inr rfl
  | cons e rest ih =>
    unfold addClause
    split
    · exact .inl rfl
    · rw [List.map_cons, List.map_cons]
      rcases ih with same | added
      · exact .inl (congrArg _ same)
      · exact .inr (congrArg _ added)

theorem addClause_inOrder {m : MethodDecl} {methods : List MethodDecl}
    (ordered : InOrder (·.function.location) methods)
    (last : ∀ e ∈ methods, e.function.location.opening ≤ m.function.location.opening) :
    InOrder (·.function.location) (addClause cx m methods) := by
  unfold InOrder at ordered ⊢
  rw [← List.pairwise_map (R := (· ≤ ·))] at ordered ⊢
  rcases addClause_openings cx m methods with same | added
  · rwa [same]
  · rw [added, List.pairwise_append]
    refine ⟨ordered, List.pairwise_singleton _ _, ?_⟩
    intro a old b new
    obtain ⟨e, member, rfl⟩ := List.mem_map.mp old
    rw [List.mem_singleton.mp new]
    exact last e member

theorem clauses_inOrder {nodes : List Node} (placed : root.WellPlaced)
    (inside : nodes.Sublist root.descendants) :
    InOrder (·.function.location)
      ((nodes.filterMap (definition? cx {})).foldl
        (fun methods m => addClause cx m methods) []) := by
  rw [List.foldl_filterMap]
  refine (Context.foldl_seen (motive := fun seen (methods : List MethodDecl) =>
    InOrder (·.function.location) methods ∧ ∀ m ∈ methods, cx.DeclaredBy seen m.function)
    ⟨.nil, List.forall_mem_nil _⟩ ?_).1
  rintro seen k methods candidates ⟨ordered, declared⟩
  cases found : definition? cx {} k with
  | none =>
    exact ⟨ordered, fun m member => (declared m member).pass k⟩
  | some m =>
    have defined := definition_defined found
    refine ⟨addClause_inOrder ordered fun e member => ?_, addClause_declared defined declared⟩
    rw [defined.place]
    exact (declared e member).opening_le placed (candidates.sublist.trans inside)

theorem functions_inOrder (placed : root.WellPlaced) :
    InOrder (·.location) (functions cx root) := by
  unfold functions InOrder
  simp only
  rw [List.pairwise_map]
  exact clauses_inOrder placed (List.filter_sublist.trans (Node.namedChildren_descend root))

theorem calls_starts (placed : root.WellPlaced) (keep : String × Node → Bool) :
    ((moduleCalls cx root).filter keep).Pairwise fun a b => a.2.label.start ≤ b.2.label.start := by
  have starts := placed.preorder_starts.sublist
    ((moduleCalls_sublist cx root).trans (Node.descendants_sublist root))
  rw [List.pairwise_map] at starts
  exact starts.sublist List.filter_sublist

theorem containers_inOrder {target : String} (placed : root.WellPlaced) :
    InOrder (·.location) (containers cx root target) :=
  cx.inOrder_filterMap (·.2) (calls_starts placed _)
    fun _ _ _ found => congrArg Location.opening (module_place found)

theorem interfaces_located : ∀ i ∈ interfaces cx root,
    i.Located (cx.Homed (sites.homes cx root)) (cx.Placed root) := by
  intro i member
  obtain ⟨c, declared, rfl⟩ := List.mem_map.mp member
  have located := containers_located (by simp) c declared
  exact ⟨located.place, located.members.methods, by simp, by simp⟩

theorem importOf_located {macroName : String} {i : ImportDecl}
    (found : importOf? cx macroName n = some i) : i.location = cx.location n := by
  unfold importOf? at found
  cases listed : arguments n with
  | nil =>
    rw [listed] at found
    cases found
  | cons first options =>
    rw [listed] at found
    simp only at found
    split at found
    · split at found
      · exact Option.some.inj found ▸ rfl
      · exact Option.some.inj found ▸ rfl
    · split at found
      · exact Option.some.inj found ▸ rfl
      · exact Option.some.inj found ▸ rfl

theorem locates : rules.Locates sites where
  functions := functions_declared
  classes := containers_located (by simp)
  interfaces := interfaces_located
  typeAliases _ := Rules.spanned_filterMap (fun _ => Node.collected_below)
    (Rules.typeAliasOf_located .elixir .isPublic)
  bindings _ := Rules.empty_found
  imports _ i member := by
    obtain ⟨⟨name, n⟩, called, found⟩ := List.mem_filterMap.mp member
    rw [importOf_located found]
    exact Context.spanned_below (moduleCalls_below (List.mem_filter.mp called).1)
  exports _ := List.forall_mem_nil _

theorem separates : rules.Separates sites where
  inOrder := List.filter_sublist.trans (Node.namedChildren_descend _)
  reached n site :=
    ⟨.child (List.mem_filter.mp (List.mem_filter.mp site).1).1, List.not_mem_nil⟩
  homes h home := by
    refine ⟨?_, List.not_mem_nil⟩
    exact ((List.filter_sublist.map _).trans (moduleCalls_sublist _ _)).subset home
  apart n site home := by
    obtain ⟨⟨name, k⟩, called, rfl⟩ := List.mem_map.mp home
    obtain ⟨called, container⟩ := List.mem_filter.mp called
    have definition := (List.mem_filter.mp site).2
    rw [moduleCalls_target called, Option.any_some] at definition
    exact (by decide : ∀ name ∈ ["defmodule", "defprotocol"], name ∉ definitionMacros) name
      (List.contains_iff_mem.mp container) (List.contains_iff_mem.mp definition)

theorem orders : rules.Orders where
  functions placed _ := functions_inOrder placed
  interfaces placed := by
    simp only [rules, interfaces, InOrder]
    rw [List.pairwise_map]
    exact containers_inOrder placed
  typeAliases placed := Rules.inOrder_filterMap placed (Node.moduleLevel_sublist _ _ _)
    (Rules.typeAliasOf_located .elixir .isPublic)
  bindings _ := Rules.empty_inOrder
  imports placed := Context.inOrder_filterMap _ (·.2) (calls_starts placed _)
    fun _ _ _ found => congrArg Location.opening (importOf_located found)
  exports _ := .nil

theorem classes_inOrder : rules.OrdersClasses := fun placed _ => containers_inOrder placed

end Located

section Named

variable {cx : Context} {n root : Node}

def bareContainers (cx : Context) (root : Node) (target : String) : List String :=
  ((moduleCalls cx root).filter (·.1 == target)).filterMap fun (_, n) =>
    (arguments n).head?.map cx.trimmed

def bareNames : Rules.BareNames where
  functions cx root :=
    (root.namedChildren.filter fun n => (target? cx n).any definitionMacros.contains).filterMap
      fun n => (head? cx n).map (·.1)
  classes cx root := bareContainers cx root "defmodule"
  interfaces cx root := bareContainers cx root "defprotocol"

theorem addStatement_name (cx : Context) (body : Body) (k : Node) :
    (addStatement cx body k).declared.name = body.declared.name := by
  unfold addStatement addAttribute
  split
  · simp only
    split_ifs <;> rfl
  · simp only
    split
    · rfl
    · split_ifs <;> rfl

theorem module_name : (module? cx n).map (·.name) = (arguments n).head?.map cx.trimmed := by
  unfold module?
  rw [Option.map_map]
  refine Option.map_congr fun name _ => ?_
  refine List.foldlRecOn (motive := fun body : Body => body.declared.name = cx.trimmed name)
    _ _ rfl ?_
  intro body same k _
  rw [addStatement_name, same]

theorem containers_names (target : String) :
    (containers cx root target).map (·.name) = bareContainers cx root target := by
  unfold containers bareContainers
  rw [List.map_filterMap]
  exact congrArg (List.filterMap · _) (funext fun call => module_name)

theorem interfaces_names :
    (interfaces cx root).map (·.name) = bareContainers cx root "defprotocol" := by
  rw [← containers_names, interfaces, List.map_map]
  rfl

theorem definition_name {pending : Pending}
    (called : (target? cx n).any definitionMacros.contains) :
    (definition? cx pending n).map (·.name) = (head? cx n).map (·.1) := by
  obtain ⟨macroName, found, _⟩ := (Option.any_eq_true ..).mp called
  cases head : head? cx n with
  | none => simp [definition?, found, head]
  | some entry => simp [definition?, found, head]; rfl

theorem addClause_names {m : MethodDecl} {methods : List MethodDecl} :
    "" ∈ (addClause cx m methods).map (·.name) ↔ "" ∈ methods.map (·.name) ∨ m.name = "" := by
  induction methods with
  | nil =>
    rw [addClause, List.map_cons, List.map_nil, List.mem_singleton, eq_comm]
    simp
  | cons e rest ih =>
    unfold addClause
    split
    · rename_i same
      have kept : (joinClauses cx e m).name = e.name := rfl
      have name := eq_of_beq (Bool.and_eq_true_iff.mp same).1
      rw [List.map_cons, List.map_cons, kept, name, List.mem_cons]
      tauto
    · rw [List.map_cons, List.map_cons, List.mem_cons, List.mem_cons, ih, or_assoc]

theorem functions_names : "" ∈ (functions cx root).map (·.name) ↔
    "" ∈ bareNames.functions cx root := by
  unfold functions
  simp only
  have kept (methods : List MethodDecl) : (methods.map fun m =>
      ({ m.function with modifiers := .ofList [.exported] } : FunctionDecl)).map (·.name) =
        methods.map (·.name) := by
    rw [List.map_map]
    rfl
  rw [kept, List.foldl_filterMap, Rules.grown_names fun n => (definition? cx {} n).map (·.name)]
  · have heads : ∀ n ∈ root.namedChildren.filter fun n =>
        (target? cx n).any definitionMacros.contains,
        (definition? cx {} n).map (·.name) = (head? cx n).map (·.1) :=
      fun n member => definition_name (List.mem_filter.mp member).2
    rw [List.filterMap_congr heads]
    simp [bareNames]
  · intro methods m
    cases definition? cx {} m with
    | none => simp
    | some method => simp [addClause_names]

theorem names : rules.Names bareNames where
  functions _ _ := functions_names
  classes _ _ := by
    simp only [rules, containers_names]
    rfl
  interfaces _ _ := by
    simp only [rules, interfaces_names]
    rfl
  typeAliases _ _ := Rules.filled_filterMap (Rules.typeAliasOf_filled .elixir .isPublic)
  bindings _ _ := Rules.filled_flatMap nofun

end Named

section Declared

variable {cx : Context} {n root : Node}

def containerCalls (cx : Context) (root : Node) (target : String) : List Node :=
  ((moduleCalls cx root).filter (·.1 == target)).map (·.2)

theorem containers_eq (cx : Context) (root : Node) (target : String) :
    containers cx root target = (containerCalls cx root target).filterMap (module? cx) := by
  rw [containerCalls, List.filterMap_map]
  rfl

theorem containerCalls_target {target : String} (member : n ∈ containerCalls cx root target) :
    target? cx n = some target := by
  obtain ⟨⟨name, k⟩, called, rfl⟩ := List.mem_map.mp member
  obtain ⟨called, named⟩ := List.mem_filter.mp called
  exact eq_of_beq named ▸ moduleCalls_target called

def protocol (m : ClassDecl) : InterfaceDecl where
  name := m.name
  methods := m.methods
  location := m.location
  modifiers := m.modifiers
  docComment := m.docComment

theorem interfaces_eq (cx : Context) (root : Node) : rules.interfaces cx root =
    (containerCalls cx root "defprotocol").filterMap fun n => (module? cx n).map protocol := by
  rw [← List.map_filterMap, ← containers_eq]
  rfl

def typeSites (cx : Context) (root : Node) : Rules.TypeSites where
  classes := Rules.itself (fun n => (module? cx n).toList) (containerCalls cx root "defmodule")
  interfaces := Rules.itself (fun n => ((module? cx n).map protocol).toList)
    (containerCalls cx root "defprotocol")
  typeAliases := []

theorem types_declared (cx : Context) (root : Node) :
    (typeSites cx root).Declares cx (rules.classes cx root) (rules.interfaces cx root)
      (rules.typeAliases cx root) where
  classes := by
    refine ⟨containers cx root "defmodule", Rules.extends_refl _, ?_⟩
    rw [containers_eq]
    exact Rules.itself_options fun _ _ _ => module_place
  interfaces := by
    rw [interfaces_eq]
    refine Rules.itself_options fun n _ i read => ?_
    obtain ⟨c, found, rfl⟩ := Option.map_eq_some_iff.mp read
    exact module_place found
  typeAliases := by
    have aliasless : rules.typeAliases cx root = [] := List.filterMap_eq_nil_iff.mpr fun n member =>
      absurd (Node.moduleLevel_reached member).2 List.not_mem_nil
    exact aliasless ▸ .nil
  noClassInterface := Rules.itself_disjoint fun declared other _ _ => by
    have same := (containerCalls_target declared).symm.trans (containerCalls_target other)
    exact absurd same (by decide)
  noClassAlias := List.disjoint_nil_right _
  noInterfaceAlias := List.disjoint_nil_right _

end Declared

end CodeEntities.Elixir
