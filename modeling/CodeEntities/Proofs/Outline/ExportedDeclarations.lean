import CodeEntities.Outline.Extract
import CodeEntities.Outline.Summary
import CodeEntities.Proofs.Tree.Search

namespace CodeEntities

theorem Modifiers.contains_insertIf (s : Modifiers) (condition : Bool) (m k : Modifier) :
    (s.insertIf condition m).contains k = (condition && k == m || s.contains k) := by
  cases condition <;> simp [insertIf]

inductive Entity where
  | function (f : FunctionDecl)
  | classLike (c : ClassDecl)
  | interface (i : InterfaceDecl)
  | typeAlias (t : TypeAliasDecl)
  | binding (v : VariableDecl)

namespace Entity

def modifiers : Entity → Modifiers
  | function f => f.modifiers
  | classLike c => c.modifiers
  | interface i => i.modifiers
  | typeAlias t => t.modifiers
  | binding v => v.modifiers

def summary (o : Outline) : Entity → EntitySummary
  | function f => o.summary f.name .function f.location (some f.signature) f.docComment
      (o.isExported f.name f.modifiers)
  | classLike c => o.summary c.name .classLike c.location none c.docComment
      (o.isExported c.name c.modifiers)
  | interface i => o.summary i.name .interface i.location none i.docComment
      (o.isExported i.name i.modifiers)
  | typeAlias t => o.summary t.name .typeAlias t.location none t.docComment
      (o.isExported t.name t.modifiers)
  | binding v => o.summary v.name .var v.location none v.docComment
      (o.isExported v.name v.modifiers)

theorem reported_marked (o : Outline) {e : Entity} (marked : e.modifiers.contains .exported) :
    (e.summary o).isExported := by
  cases e <;> exact Bool.or_eq_true_iff.mpr (.inl marked)

end Entity

namespace Outline

def entities (o : Outline) : List Entity :=
  o.functions.map .function ++ o.classes.map .classLike ++ o.interfaces.map .interface ++
    o.typeAliases.map .typeAlias ++ o.bindings.map .binding

theorem classSummaries_own (o : Outline) (c : ClassDecl) :
    (o.classSummaries c).filter (·.kind != .method) = [Entity.summary o (.classLike c)] := by
  rw [classSummaries, List.filter_cons_of_pos (by rfl), List.filter_eq_nil_iff.mpr]
  · rfl
  · intro s member
    obtain ⟨m, _, rfl⟩ := List.mem_map.mp member
    exact Bool.false_ne_true

theorem summaries_entities (o : Outline) :
    o.summaries.filter (·.kind != .method) = o.entities.map (·.summary o) := by
  have others {α : Type} (entries : List α) (line : α → EntitySummary)
      (plain : ∀ a, ((line a).kind != .method) = true) :
      (entries.map line).filter (·.kind != .method) = entries.map line :=
    List.filter_eq_self.mpr fun s member => by
      obtain ⟨a, _, rfl⟩ := List.mem_map.mp member
      exact plain a
  have classes : (o.classes.flatMap o.classSummaries).filter (·.kind != .method) =
      o.classes.map fun c => Entity.summary o (.classLike c) := by
    rw [List.filter_flatMap, funext (classSummaries_own o), List.map_eq_flatMap]
  simp only [summaries, entities, List.filter_append, List.map_append, List.map_map, classes]
  rw [others _ _ fun _ => rfl, others _ _ fun _ => rfl, others _ _ fun _ => rfl,
    others _ _ fun _ => rfl]
  rfl

end Outline

namespace TypeScript

-- An entity with its declaration and the nodes whose keywords count for it.
structure Entry where
  node : Node
  keywords : List Node
  entity : Entity

namespace Entry

def isMarked (e : Entry) : Bool := e.entity.modifiers.contains .exported

-- Says so itself, other than by standing in an export statement.
def saysExport (cx : Context) (e : Entry) : Bool :=
  e.keywords.any fun k => (cx.modifiers k).contains .exported

end Entry

variable {cx : Context} {n root : Node} {e : Entry} {targets : List String}

def fromFunctions (cx : Context) (n : Node) : List Entry :=
  if isBindingList n then
    (declarators n).filterMap fun d => ((d.field? "value").filter isFunctionValue).bind fun v =>
      (promoted? cx n d v).map fun f => ⟨n, [v, n], .function f⟩
  else (functionOf cx n).toList.map fun f => ⟨n, [n], .function f⟩

def fromClass? (cx : Context) (n : Node) : Option Entry :=
  (classOf cx n).map fun c => ⟨n, [n], .classLike c⟩

def fromInterface? (cx : Context) (n : Node) : Option Entry :=
  (interfaceOf cx n).map fun i => ⟨n, [n], .interface i⟩

def fromTypeAlias? (cx : Context) (n : Node) : Option Entry :=
  (typeAliasOf cx n).map fun t => ⟨n, [n], .typeAlias t⟩

def fromBindings (cx : Context) (n : Node) : List Entry :=
  (variablesOf cx n).map fun v => ⟨n, [n], .binding v⟩

def topLevel (root : Node) (targets : List String) : List Node :=
  root.moduleLevel targets NodeKinds.typescript.wrappers

def entries (cx : Context) (root : Node) : List Entry :=
  (topLevel root NodeKinds.typescript.functions).flatMap (fromFunctions cx) ++
  (topLevel root NodeKinds.typescript.classes).filterMap (fromClass? cx) ++
  (topLevel root NodeKinds.typescript.interfaces).filterMap (fromInterface? cx) ++
  (topLevel root NodeKinds.typescript.typeAliases).filterMap (fromTypeAlias? cx) ++
  (topLevel root NodeKinds.typescript.bindings).flatMap (fromBindings cx)

theorem fromFunctions_entities (n : Node) :
    (fromFunctions cx n).map (·.entity) = (functionsOf cx n).map .function := by
  unfold fromFunctions functionsOf
  split
  · rw [List.map_filterMap, List.map_filterMap]
    refine congrArg (List.filterMap · _) (funext fun d => ?_)
    simp only [Option.map_bind, Function.comp_def, Option.map_map]
  · rw [List.map_map]
    rfl

theorem entries_entities (js : cx.language.isJsFamily) :
    (entries cx root).map (·.entity) = (Outline.extract cx root).entities := by
  have same : Rules.of cx.language = rules := by
    revert js
    cases cx.language <;> simp [Language.isJsFamily, Rules.of]
  simp only [entries, Outline.extract, Outline.entities, same, rules, List.map_append,
    List.map_flatMap, List.map_filterMap, fromFunctions_entities]
  simp [topLevel, fromClass?, fromInterface?, fromTypeAlias?, fromBindings, Function.comp_def]

theorem declarationModifiers_exported : (declarationModifiers cx n).contains .exported =
    (isExported n || (cx.modifiers n).contains .exported) := by
  rw [declarationModifiers, Modifiers.contains_insertIf, beq_self_eq_true, Bool.and_true]

-- An entity is marked where its declaration stands in an export statement or says so itself.
structure MarkedBy (cx : Context) (n : Node) (e : Entry) : Prop where
  node : e.node = n
  marked : e.isMarked = (isExported n || e.saysExport cx)

theorem fromFunctions_marked : ∀ e ∈ fromFunctions cx n, MarkedBy cx n e := by
  intro e member
  unfold fromFunctions at member
  split at member
  · obtain ⟨d, _, found⟩ := List.mem_filterMap.mp member
    obtain ⟨v, _, found⟩ := Option.bind_eq_some_iff.mp found
    obtain ⟨f, promoted, rfl⟩ := Option.map_eq_some_iff.mp found
    obtain ⟨name, _, rfl⟩ := Option.map_eq_some_iff.mp promoted
    refine ⟨rfl, ?_⟩
    have other : (Modifier.exported == Modifier.const) = false := rfl
    simp [Entry.isMarked, Entry.saysExport, Entity.modifiers, Context.function, Context.callable,
      Modifiers.contains_insertIf, other, declarationModifiers_exported, Bool.or_left_comm]
  · obtain ⟨f, read, rfl⟩ := List.mem_map.mp member
    obtain ⟨name, _, rfl⟩ := Option.map_eq_some_iff.mp (Option.mem_toList.mp read)
    refine ⟨rfl, ?_⟩
    simp +contextual [Entry.isMarked, Entry.saysExport, Entity.modifiers, Context.function,
      Context.callable, declarationModifiers_exported]

theorem fromClass_marked (read : fromClass? cx n = some e) : MarkedBy cx n e := by
  obtain ⟨c, found, rfl⟩ := Option.map_eq_some_iff.mp read
  obtain ⟨name, _, rfl⟩ := Option.map_eq_some_iff.mp found
  refine ⟨rfl, ?_⟩
  simp only [Entry.isMarked, Entity.modifiers]
  split
  · simp [enumClass, Entry.saysExport, declarationModifiers_exported]
  · simp [plainClass, Entry.saysExport, Modifiers.contains_insertIf,
      declarationModifiers_exported]

theorem fromInterface_marked (read : fromInterface? cx n = some e) : MarkedBy cx n e := by
  obtain ⟨i, found, rfl⟩ := Option.map_eq_some_iff.mp read
  obtain ⟨name, _, rfl⟩ := Option.map_eq_some_iff.mp found
  exact ⟨rfl, by simp [Entry.isMarked, Entity.modifiers, Entry.saysExport,
    declarationModifiers_exported]⟩

theorem fromTypeAlias_marked (read : fromTypeAlias? cx n = some e) : MarkedBy cx n e := by
  obtain ⟨t, found, rfl⟩ := Option.map_eq_some_iff.mp read
  obtain ⟨name, _, rfl⟩ := Option.map_eq_some_iff.mp found
  exact ⟨rfl, by simp [Entry.isMarked, Entity.modifiers, Entry.saysExport,
    declarationModifiers_exported]⟩

theorem fromBindings_marked : ∀ e ∈ fromBindings cx n, MarkedBy cx n e := by
  intro e member
  obtain ⟨v, read, rfl⟩ := List.mem_map.mp member
  obtain ⟨d, _, bound⟩ := List.mem_flatMap.mp read
  obtain ⟨name, _, rfl⟩ := List.mem_map.mp bound
  exact ⟨rfl, by simp [Entry.isMarked, Entity.modifiers, Entry.saysExport,
    Modifiers.contains_insertIf, declarationModifiers_exported]⟩

theorem entry_marked (member : e ∈ entries cx root) :
    (∃ targets, e.node ∈ topLevel root targets) ∧
      e.isMarked = (isExported e.node || e.saysExport cx) := by
  have read : ∃ targets, ∃ n ∈ topLevel root targets, MarkedBy cx n e := by
    simp only [entries, List.mem_append, List.mem_flatMap, List.mem_filterMap] at member
    rcases member with (((⟨n, site, read⟩ | ⟨n, site, read⟩) | ⟨n, site, read⟩) |
      ⟨n, site, read⟩) | ⟨n, site, read⟩
    · exact ⟨_, n, site, fromFunctions_marked e read⟩
    · exact ⟨_, n, site, fromClass_marked read⟩
    · exact ⟨_, n, site, fromInterface_marked read⟩
    · exact ⟨_, n, site, fromTypeAlias_marked read⟩
    · exact ⟨_, n, site, fromBindings_marked e read⟩
  obtain ⟨targets, n, site, node, marked⟩ := read
  subst node
  exact ⟨⟨targets, site⟩, marked⟩

def ExportedWithin (root n : Node) : Prop :=
  ∃ s ∈ root.descendants, s.kind = "export_statement" ∧ n ∈ s.descendants

theorem parent_wrapper (site : n ∈ topLevel root targets) (exported : ExportedWithin root n) :
    ∃ p, n.parent? = some p ∧ p.kind ∈ NodeKinds.typescript.wrappers := by
  obtain ⟨_, between, beyond, up, through⟩ := ((Node.moduleLevel_lists _ _ _).exact n).mp site
  obtain ⟨s, inside, _, below⟩ := exported
  have above := Node.mem_ancestors inside
  have inner : s ∈ between := by
    have member := Node.mem_ancestors below
    rw [up] at member
    rcases List.mem_append.mp member with inner | outer
    · exact inner
    · rcases List.mem_cons.mp outer with rfl | outer
      · exact absurd above Node.not_below_itself
      · rw [Node.ancestors_split up] at outer
        have := Node.ancestors_shorter outer
        have := Node.ancestors_shorter above
        omega
  cases between with
  | nil => cases inner
  | cons p rest =>
    rw [Node.ancestors_eq] at up
    cases parent : n.parent? with
    | none => rw [parent] at up; cases up
    | some q =>
      rw [parent] at up
      obtain rfl : q = p := (List.cons.inj up).1
      exact ⟨q, rfl, (through q (List.mem_cons_self ..)).1⟩

theorem ambient_iff (site : n ∈ topLevel root targets) (exported : ExportedWithin root n) :
    isExported n = false ↔ ∃ p, n.parent? = some p ∧ p.kind = "ambient_declaration" := by
  obtain ⟨p, parent, wrapper⟩ := parent_wrapper site exported
  have either : p.kind = "export_statement" ∨ p.kind = "ambient_declaration" := by
    simpa [NodeKinds.typescript] using wrapper
  rw [isExported, parent]
  rcases either with kind | kind <;> simp [kind]

-- A declaration within an export statement gives entities that are marked and reported as
-- exported if and only if the statement is its parent or it has the keyword itself; behind an
-- ambient declaration the statement is not seen.
theorem exported_declarations_marked_iff (js : cx.language.isJsFamily) (root : Node) :
    (entries cx root).map (·.entity) = (Outline.extract cx root).entities ∧
    (Outline.extract cx root).summaries.filter (·.kind != .method) =
      (entries cx root).map (fun e => e.entity.summary (Outline.extract cx root)) ∧
    ∀ e ∈ entries cx root, ExportedWithin root e.node →
      ((e.isMarked ∧ (e.entity.summary (Outline.extract cx root)).isExported) ↔
        isExported e.node ∨ e.saysExport cx) ∧
      (isExported e.node = false ↔
        ∃ p, e.node.parent? = some p ∧ p.kind = "ambient_declaration") := by
  have listed : (entries cx root).map (·.entity) = (Outline.extract cx root).entities :=
    entries_entities js
  refine ⟨listed, ?_, fun e member exported => ?_⟩
  · rw [Outline.summaries_entities, ← listed, List.map_map]
    rfl
  obtain ⟨⟨targets, site⟩, marked⟩ := entry_marked member
  refine ⟨?_, ambient_iff site exported⟩
  rw [marked, Bool.or_eq_true]
  refine and_iff_left_of_imp fun own => ?_
  exact Entity.reported_marked _ (marked.trans (Bool.or_eq_true _ _ ▸ own))

theorem class_listed {c : ClassDecl}
    (site : n ∈ topLevel root NodeKinds.typescript.classes) (read : classOf cx n = some c) :
    ⟨n, [n], .classLike c⟩ ∈ entries cx root := by
  have listed : ⟨n, [n], .classLike c⟩ ∈
      (topLevel root NodeKinds.typescript.classes).filterMap (fromClass? cx) :=
    List.mem_filterMap.mpr ⟨n, site, by rw [fromClass?, read, Option.map_some]⟩
  simp only [entries, List.mem_append, listed, true_or, or_true]

def emptyClass (start : Nat) : Tree :=
  .whole "class_declaration" start (start + 10) none [
    .token "class" start,
    .whole "type_identifier" (start + 6) (start + 7) (some "name") [],
    .whole "class_body" (start + 8) (start + 10) (some "body") [
      .token "\x7b" (start + 8), .token "\x7d" (start + 9)]]

def exportedClass : Node := .root <|
  .whole "program" 0 18 none [
    .whole "export_statement" 0 17 none [.token "export" 0, emptyClass 7]]

theorem exported_class_marked :
    let cx : Context := ⟨"export class A \x7b\x7d\n", "m.ts", .typescript, {}⟩
    cx.language.isJsFamily ∧ ∃ e ∈ entries cx exportedClass,
      ExportedWithin exportedClass e.node ∧ e.isMarked ∧
        (e.entity.summary (Outline.extract cx exportedClass)).isExported := by
  intro cx
  let s := exportedClass.children.get ⟨0, by decide +kernel⟩
  let n := s.children.get ⟨1, by decide +kernel⟩
  have outer : s ∈ exportedClass.children := List.get_mem ..
  have inner : n ∈ s.children := List.get_mem ..
  have reached : n ∈ topLevel exportedClass NodeKinds.typescript.classes := by
    refine ((Node.moduleLevel_lists _ _ _).exact n).mpr ⟨by decide +kernel, ?_⟩
    refine Node.reachedThrough_step.mpr ⟨s, outer, .inr ⟨by decide +kernel, ?_⟩⟩
    exact Node.reachedThrough_step.mpr ⟨n, inner, .inl rfl⟩
  have exported : ExportedWithin exportedClass n :=
    ⟨s, (Node.children_descend _).subset outer, by decide +kernel,
      (Node.children_descend _).subset inner⟩
  obtain ⟨c, read⟩ := Option.isSome_iff_exists.mp (by decide +kernel : (classOf cx n).isSome)
  have listed := class_listed reached read
  have js : cx.language.isJsFamily := by decide
  have parent : isExported n := by decide +kernel
  have marks := ((exported_declarations_marked_iff js exportedClass).2.2 _ listed exported).1
  exact ⟨js, _, listed, exported, marks.mpr (.inl parent)⟩

def declaredClass : Node := .root <|
  .whole "program" 0 26 none [
    .whole "export_statement" 0 25 none [
      .token "export" 0,
      .whole "ambient_declaration" 7 25 (some "declaration") [.token "declare" 7, emptyClass 15]]]

-- The class is found through the export statement, but nothing says that it is exported.
theorem declared_class_not_marked :
    let cx : Context := ⟨"export declare class A \x7b\x7d\n", "m.ts", .typescript, {}⟩
    (Outline.extract cx declaredClass).summaries.map (fun s => (s.name, s.isExported)) =
        [("A", false)] ∧
      ∃ e ∈ entries cx declaredClass, ExportedWithin declaredClass e.node ∧ e.isMarked = false := by
  intro cx
  let s := declaredClass.children.get ⟨0, by decide +kernel⟩
  let a := s.children.get ⟨1, by decide +kernel⟩
  let n := a.children.get ⟨1, by decide +kernel⟩
  have outer : s ∈ declaredClass.children := List.get_mem ..
  have middle : a ∈ s.children := List.get_mem ..
  have inner : n ∈ a.children := List.get_mem ..
  have reached : n ∈ topLevel declaredClass NodeKinds.typescript.classes := by
    refine ((Node.moduleLevel_lists _ _ _).exact n).mpr ⟨by decide +kernel, ?_⟩
    refine Node.reachedThrough_step.mpr ⟨s, outer, .inr ⟨by decide +kernel, ?_⟩⟩
    refine Node.reachedThrough_step.mpr ⟨a, middle, .inr ⟨by decide +kernel, ?_⟩⟩
    exact Node.reachedThrough_step.mpr ⟨n, inner, .inl rfl⟩
  have below : n ∈ s.descendants := Node.mem_descendants.mpr ⟨a, middle, Node.child_below inner⟩
  have exported : ExportedWithin declaredClass n :=
    ⟨s, (Node.children_descend _).subset outer, by decide +kernel, below⟩
  have unmarked : (classOf cx n).map (·.modifiers.contains .exported) = some false := by
    decide +kernel
  obtain ⟨c, read, plain⟩ := Option.map_eq_some_iff.mp unmarked
  exact ⟨by decide +kernel, _, class_listed reached read, exported, plain⟩

end TypeScript

end CodeEntities
