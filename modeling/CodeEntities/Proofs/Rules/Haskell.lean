import CodeEntities.Proofs.Rules.Basic
import CodeEntities.Proofs.Rules.Grouped
import CodeEntities.Rules.Haskell

namespace CodeEntities.Haskell

open Grouped (keys group keys_concat mem_keys_concat group_own group_other)

section Merged

variable {cx : Context} {root : Node} {t : EquationTable} {entries : List (String × Node)}

def named? (cx : Context) (n : Node) : Option (String × Node) :=
  (cx.name? n).map fun name => (name, n)

def namedEquations (cx : Context) (root : Node) : List (String × Node) :=
  (root.moduleLevel NodeKinds.haskell.functions NodeKinds.haskell.wrappers).filterMap (named? cx)

def equationsOf (entries : List (String × Node)) (name : String) : List Node :=
  (group (·.1) entries name).map (·.2)

theorem equationsOf_head {name : String} {first : Node} {more : List Node}
    (listed : equationsOf entries name = first :: more) :
    ∃ e, (group (·.1) entries name).head? = some e ∧ e.2 = first := by
  obtain ⟨e, rest, grouped, same, _⟩ := List.map_eq_cons_iff.mp listed
  exact ⟨e, grouped ▸ rfl, same⟩

def functionOf? (cx : Context) (root : Node) (name : String) : List Node → Option FunctionDecl
  | [] => none
  | first :: more => some (function cx root name first more)

theorem functionOf_some {name : String} {equations : List Node} {f : FunctionDecl}
    (merged : functionOf? cx root name equations = some f) :
    ∃ first more, equations = first :: more ∧ f = function cx root name first more := by
  cases equations with
  | nil => cases merged
  | cons first more => exact ⟨first, more, rfl, (Option.some.inj merged).symm⟩

structure EquationTable.Holds (t : EquationTable) (entries : List (String × Node)) : Prop where
  order : t.order = keys (·.1) entries
  known (name) : (t.equations name).isSome ↔ name ∈ keys (·.1) entries
  listed (name) : (t.equations name).getD [] = equationsOf entries name

theorem EquationTable.empty_holds : EquationTable.Holds {} [] where
  order := rfl
  known name := by simp [EquationMap.empty, keys]
  listed _ := rfl

theorem EquationTable.Holds.add (holds : t.Holds entries) (n : Node) :
    (t.add cx n).Holds (entries ++ (named? cx n).toList) := by
  unfold EquationTable.add named?
  cases cx.name? n with
  | none => simpa using holds
  | some name =>
    obtain ⟨order, known, listed⟩ := holds
    simp only [Option.map_some, Option.toList_some]
    refine ⟨?_, fun other => ?_, fun other => ?_⟩
    · simp only [keys_concat, known, order]
    · rw [mem_keys_concat, ← known]
      by_cases same : other = name
      · simp [EquationMap.insert, same]
      · simp [EquationMap.insert, same, Ne.symm same]
    · by_cases same : other = name
      · subst same
        simp [EquationMap.insert, listed, equationsOf, group_own (·.1) entries (other, n)]
      · have apart : (name, n).1 ≠ other := Ne.symm same
        simp [EquationMap.insert, listed, equationsOf, same, group_other apart]

theorem table_holds (cx : Context) (root : Node) :
    ((root.moduleLevel NodeKinds.haskell.functions NodeKinds.haskell.wrappers).foldl
      (EquationTable.add cx) {}).Holds (namedEquations cx root) := by
  refine Context.foldl_seen (motive := fun seen (t : EquationTable) =>
    t.Holds (seen.filterMap (named? cx))) EquationTable.empty_holds ?_
  intro seen n t _ holds
  rw [List.filterMap_append]
  have one : [n].filterMap (named? cx) = (named? cx n).toList := by
    cases found : named? cx n <;> simp [found]
  exact one ▸ holds.add n

-- A name's equations are still in the map when its turn comes.
theorem mergeEquations_eq (cx : Context) (root : Node) {names : List String} (once : names.Nodup)
    (m : EquationMap) :
    mergeEquations cx root names m =
      names.filterMap fun name => functionOf? cx root name ((m name).getD []) := by
  induction names generalizing m with
  | nil => rfl
  | cons name names ih =>
    obtain ⟨other, once⟩ := List.nodup_cons.mp once
    have kept : ∀ later ∈ names, m.erase name later = m later := by
      intro later member
      exact if_neg fun same : later = name => other (same ▸ member)
    have others : mergeEquations cx root names (m.erase name) =
        names.filterMap fun name => functionOf? cx root name ((m name).getD []) := by
      rw [ih once]
      exact List.filterMap_congr fun later member => by rw [kept later member]
    rw [mergeEquations, others]
    rcases listed : m name with _ | _ | ⟨first, more⟩
    · simp [listed, functionOf?]
    · simp [listed, functionOf?]
    · simp [listed, functionOf?]

theorem functions_eq (cx : Context) (root : Node) : functions cx root =
    (keys (·.1) (namedEquations cx root)).filterMap fun name =>
      functionOf? cx root name (equationsOf (namedEquations cx root) name) := by
  have holds := table_holds cx root
  unfold functions
  simp only
  rw [mergeEquations_eq cx root (holds.order ▸ Grouped.keys_nodup ..), holds.order]
  exact List.filterMap_congr fun name _ => by rw [holds.listed]

end Merged

section Under

variable (cx : Context) (n : Node)

@[simp]
theorem exportList_full : exportList? cx.full = exportList? cx := rfl

@[simp]
theorem signatureTypes_full : signatureTypes cx.full = signatureTypes cx := rfl

@[simp]
theorem signatureNames_full : signatureNames cx.full = signatureNames cx := rfl

@[simp]
theorem signatureOf_full : signatureOf? cx.full = signatureOf? cx := rfl

@[simp]
theorem patternParameters_full : patternParameters cx.full = patternParameters cx := rfl

@[simp]
theorem isNullary_full : isNullary cx.full = isNullary cx := rfl

theorem complexity_more (more : List Node) (count : Nat) :
    (if cx.options.complexity then
        more.foldl (fun total n => total + cx.complexity n) (cx.options.complexityOf count)
      else cx.options.complexityOf count) =
      cx.options.complexityOf (more.foldl (fun total n => total + cx.full.complexity n) count) := by
  cases counted : cx.options.complexity with
  | false => simp [Options.complexityOf, counted]
  | true => simp [Options.complexityOf, counted, Context.complexity, Context.full]

theorem function_under (root : Node) (name : String) (first : Node) (more : List Node) :
    function cx root name first more =
      (function cx.full root name first more).under cx.options := by
  unfold function
  rw [exportList_full, signatureOf_full, signatureTypes_full, patternParameters_full,
    Context.location_full]
  simp only
  rw [Context.bind_doc_under cx, Context.function_docOf, Context.function_under]
  generalize cx.full.function first name _ = declared
  have counted := complexity_more cx more declared.complexity
  unfold FunctionDecl.under
  simp only
  rw [counted]
  rfl

theorem functions_under : functions cx n = (functions cx.full n).map (·.under cx.options) := by
  have same : namedEquations cx.full n = namedEquations cx n := rfl
  rw [functions_eq, functions_eq, same]
  refine filterMap_under (fun name => ?_) _
  cases equationsOf (namedEquations cx n) name with
  | nil => rfl
  | cons first more => exact congrArg some (function_under cx n name first more)

theorem recordFields_under :
    recordFields cx n = (recordFields cx.full n).map (·.under cx.options) := by
  unfold recordFields
  rw [Context.text_full]
  obtain ⟨names, type⟩ := (Text.cut? (cx.text n) "::").getD (cx.text n, "")
  simp only
  rw [List.map_map]
  rfl

theorem constructorValue_under :
    constructorValue? cx n = (constructorValue? cx.full n).map (·.under cx.options) := by
  unfold constructorValue?
  rw [Option.map_map]
  rfl

theorem classOf_under (exported : Option (List String)) :
    classOf cx exported n = (classOf cx.full exported n).map (·.under cx.options) := by
  unfold classOf
  rw [Option.map_map, isNullary_full]
  refine Option.map_congr fun name _ => ?_
  simp only [Function.comp, ClassDecl.under, ClassDecl.membersUnder, apply_ite]
  rw [flatMap_under (recordFields_under cx), filterMap_under (constructorValue_under cx)]
  rfl

theorem method_under (defaults : List String) (name : String) :
    method cx defaults n name = (method cx.full defaults n name).under cx.options := by
  unfold method
  simp only [signatureTypes_full]
  rw [Context.method_under]
  rfl

theorem methods_under (defaults : List String) :
    (signatureNames cx n).map (method cx defaults n) =
      ((signatureNames cx n).map (method cx.full defaults n)).map (·.under cx.options) := by
  rw [List.map_map]
  exact List.map_congr_left fun name _ => method_under cx n defaults name

theorem interfaceOf_under :
    interfaceOf cx n = (interfaceOf cx.full n).map (·.under cx.options) := by
  unfold interfaceOf
  rw [Option.map_map, signatureNames_full, Context.name_full]
  refine Option.map_congr fun name _ => ?_
  simp only [Function.comp, InterfaceDecl.under, InterfaceDecl.membersUnder]
  rw [flatMap_under fun s => methods_under cx s _]
  rfl

theorem variablesOf_under :
    variablesOf cx n = (variablesOf cx.full n).map (·.under cx.options) := by
  unfold variablesOf
  rw [Context.name_full]
  cases cx.name? n with
  | none => rfl
  | some name =>
    simp only [List.map_cons, List.map_nil, VariableDecl.under, Options.docOf_or,
      ← Context.bind_doc_under, ← Context.doc_under]
    rfl

theorem importsOf_full : importsOf cx.full = importsOf cx := by
  funext n
  unfold importsOf
  rw [Context.trimmed_full, Context.location_full]

theorem obeys : rules.Obeys where
  functions := functions_under
  classes cx root := by
    simp only [rules]
    rw [exportList_full]
    exact filterMap_under (fun n => classOf_under cx n _) _
  interfaces cx _ := filterMap_under (interfaceOf_under cx) _
  typeAliases cx _ := filterMap_under (Rules.typeAliasOf_under .haskell .isPublic cx) _
  bindings cx _ := flatMap_under (variablesOf_under cx) _
  imports cx _ := Rules.imports_full (importsOf_full cx) _
  exports _ _ := rfl

end Under

section Located

variable {cx : Context} {n root : Node}

theorem function_built (cx : Context) (root : Node) (name : String) (first : Node)
    (more : List Node) : (function cx root name first more).BuiltFrom cx first more := by
  refine ⟨first, Node.around_self first, rfl, rfl, ?_⟩
  simp only [function, Context.function, Context.complexity]
  split
  · rfl
  · rfl

theorem named_own {e : String × Node} (found : named? cx n = some e) : e.2 = n := by
  obtain ⟨name, _, rfl⟩ := Option.map_eq_some_iff.mp found
  rfl

theorem namedEquations_sublist (cx : Context) (root : Node) :
    ((namedEquations cx root).map (·.2)).Sublist
      (root.moduleLevel NodeKinds.haskell.functions NodeKinds.haskell.wrappers) :=
  sites_sublist named_own _

theorem equationsOf_sublist (cx : Context) (root : Node) (name : String) :
    (equationsOf (namedEquations cx root) name).Sublist
      (root.moduleLevel NodeKinds.haskell.functions NodeKinds.haskell.wrappers) :=
  (List.filter_sublist.map _).trans (namedEquations_sublist cx root)

theorem functions_declared : ∀ f ∈ functions cx root,
    cx.DeclaredBy (root.moduleLevel NodeKinds.haskell.functions NodeKinds.haskell.wrappers) f := by
  intro f member
  rw [functions_eq] at member
  obtain ⟨name, _, merged⟩ := List.mem_filterMap.mp member
  obtain ⟨first, more, listed, rfl⟩ := functionOf_some merged
  exact ⟨first, more, listed ▸ equationsOf_sublist cx root name,
    function_built cx root name first more⟩

theorem functions_inOrder (placed : root.WellPlaced) :
    InOrder (·.location) (functions cx root) := by
  have starts := placed.preorder_starts.sublist ((namedEquations_sublist cx root).trans
    (Node.moduleLevel_sublist root NodeKinds.haskell.functions NodeKinds.haskell.wrappers))
  rw [List.pairwise_map] at starts
  -- Every function starts with its first equation, and these keep their order.
  have firsts := starts.sublist (Grouped.firsts_sublist (·.1) _)
  rw [List.pairwise_filterMap] at firsts
  unfold InOrder
  rw [functions_eq, List.pairwise_filterMap]
  refine firsts.imp fun {name other} ordered f merged g mergedOther => ?_
  obtain ⟨first, more, listed, rfl⟩ := functionOf_some merged
  obtain ⟨next, others, listedOther, rfl⟩ := functionOf_some mergedOther
  obtain ⟨e, head, rfl⟩ := equationsOf_head listed
  obtain ⟨d, headOther, rfl⟩ := equationsOf_head listedOther
  exact cx.opening_mono (ordered e head d headOther)

theorem recordFields_located : ∀ p ∈ recordFields cx n, p.location = cx.location n := by
  intro p member
  obtain ⟨name, _, rfl⟩ := List.mem_map.mp member
  rfl

theorem constructorValue_located {p : PropertyDecl} (found : constructorValue? cx n = some p) :
    p.location = cx.location n := by
  obtain ⟨name, _, rfl⟩ := Option.map_eq_some_iff.mp found
  rfl

theorem classOf_located {exported : Option (List String)} {c : ClassDecl}
    (found : classOf cx exported n = some c) :
    c.Located (cx.DeclaredBy n.preorder) (cx.Spanned n) := by
  obtain ⟨name, _, rfl⟩ := Option.map_eq_some_iff.mp found
  refine ⟨Context.spanned_self cx n, by simp, ?_, by simp⟩
  intro p member
  simp only at member
  split at member
  · obtain ⟨field, inside, member⟩ := List.mem_flatMap.mp member
    obtain ⟨constructor, below, inside⟩ := List.mem_flatMap.mp inside
    rw [recordFields_located p member]
    exact Context.spanned_below
      (Node.preorder_trans (Node.collected_below below) (Node.collected_below inside))
  · obtain ⟨constructor, below, read⟩ := List.mem_filterMap.mp member
    rw [constructorValue_located read]
    exact Context.spanned_below (Node.collected_below below)

theorem interfaceOf_located {i : InterfaceDecl} (found : interfaceOf cx n = some i) :
    i.Located (cx.DeclaredBy n.preorder) (cx.Spanned n) := by
  obtain ⟨name, _, rfl⟩ := Option.map_eq_some_iff.mp found
  refine ⟨Context.spanned_self cx n, ?_, by simp, by simp⟩
  intro m member
  obtain ⟨signature, inside, member⟩ := List.mem_flatMap.mp member
  obtain ⟨_, _, rfl⟩ := List.mem_map.mp member
  refine Context.declared_below (Node.collected_below (List.mem_filter.mp inside).1) ?_
  exact Context.function_built (Node.around_self signature) _ _

theorem variablesOf_located {v : VariableDecl} (member : v ∈ variablesOf cx n) :
    v.location = cx.location n := by
  unfold variablesOf at member
  split at member
  · cases member
  · rw [List.mem_singleton.mp member]

theorem importsOf_located {i : ImportDecl} (member : i ∈ importsOf cx n) :
    i.location = cx.location n := by
  unfold importsOf at member
  simp only at member
  split at member
  · cases member
  · rw [List.mem_singleton.mp member]

theorem locates : rules.Locates (.module .haskell) where
  functions := functions_declared
  classes := Rules.module_classes .haskell classOf_located
  interfaces := Rules.module_interfaces .haskell interfaceOf_located
  typeAliases _ := Rules.spanned_filterMap (fun _ => Node.collected_below)
    (Rules.typeAliasOf_located .haskell .isPublic)
  bindings _ := Rules.spanned_flatMap (fun _ => Node.collected_below) variablesOf_located
  imports _ := Rules.spanned_flatMap (fun _ => Node.collected_below) importsOf_located
  exports _ := List.forall_mem_nil _

theorem orders : rules.Orders where
  functions placed _ := functions_inOrder placed
  interfaces placed := Rules.inOrder_filterMap placed (Node.moduleLevel_sublist _ _ _)
    (Context.location_map fun _ => rfl)
  typeAliases placed := Rules.inOrder_filterMap placed (Node.moduleLevel_sublist _ _ _)
    (Rules.typeAliasOf_located .haskell .isPublic)
  bindings placed := Rules.inOrder_flatMap placed (Node.moduleLevel_sublist _ _ _)
    variablesOf_located
  imports placed := Rules.inOrder_flatMap placed (Node.moduleLevel_sublist _ _ _) importsOf_located
  exports _ := .nil

theorem classes_inOrder : rules.OrdersClasses := fun placed _ =>
  Rules.inOrder_filterMap placed (Node.moduleLevel_sublist _ _ _)
    (Context.location_map fun _ => rfl)

end Located

section Named

variable {cx : Context} {n root : Node}

theorem functions_filled : ∀ f ∈ functions cx root, f.name ≠ "" := by
  intro f member
  rw [functions_eq] at member
  obtain ⟨name, listed, merged⟩ := List.mem_filterMap.mp member
  obtain ⟨first, more, _, rfl⟩ := functionOf_some merged
  obtain ⟨e, equation, rfl⟩ := Grouped.mem_keys.mp listed
  obtain ⟨m, _, read⟩ := List.mem_filterMap.mp equation
  obtain ⟨name, named, rfl⟩ := Option.map_eq_some_iff.mp read
  exact Context.name_filled named

theorem variablesOf_filled {v : VariableDecl} (member : v ∈ variablesOf cx n) : v.name ≠ "" := by
  unfold variablesOf at member
  split at member
  · cases member
  · rename_i name found
    rw [List.mem_singleton.mp member]
    exact Context.name_filled found

theorem names : rules.Names {} where
  functions _ _ := Rules.filled_all functions_filled
  classes _ _ := Rules.filled_filterMap (Rules.named_map fun _ => rfl)
  interfaces _ _ := Rules.filled_filterMap (Rules.named_map fun _ => rfl)
  typeAliases _ _ := Rules.filled_filterMap (Rules.typeAliasOf_filled .haskell .isPublic)
  bindings _ _ := Rules.filled_flatMap variablesOf_filled

end Named

end CodeEntities.Haskell
