import Mathlib.Data.List.Forall2
import CodeEntities.Proofs.Outline.ExportedDeclarations

namespace CodeEntities

structure Heading where
  name : String
  kind : EntityKind
  location : Location
  signature : Option String := none
  docComment : Option String

-- What one summary is about: an entity, or the constructor or a method of a class.
inductive Subject where
  | entity (e : Entity)
  | member (c : ClassDecl) (m : MethodDecl)

-- An export statement that passes nothing on names it.
def Outline.Exports (o : Outline) (name : String) : Prop :=
  ∃ x ∈ o.exports, x.source = none ∧ x.localName.getD x.name = name

namespace Entity

def heading : Entity → Heading
  | function f => ⟨f.name, .function, f.location, some f.signature, f.docComment⟩
  | classLike c => ⟨c.name, .classLike, c.location, none, c.docComment⟩
  | interface i => ⟨i.name, .interface, i.location, none, i.docComment⟩
  | typeAlias t => ⟨t.name, .typeAlias, t.location, none, t.docComment⟩
  | binding v => ⟨v.name, .var, v.location, none, v.docComment⟩

def subjects : Entity → List Subject
  | classLike c => .entity (.classLike c) :: c.callables.map (.member c)
  | e => [.entity e]

def IsExportedFrom (o : Outline) (e : Entity) : Prop :=
  e.modifiers.contains .exported = true ∨ o.Exports e.heading.name

end Entity

namespace Subject

def heading : Subject → Heading
  | entity e => e.heading
  | member c m => ⟨c.name ++ "." ++ m.name, .method, m.function.location,
      some m.function.signature, m.function.docComment⟩

def IsExportedFrom (o : Outline) : Subject → Prop
  | entity e => e.IsExportedFrom o
  | member c m => (Entity.classLike c).IsExportedFrom o ∧ m.visibility = .isPublic

def summary (o : Outline) : Subject → EntitySummary
  | entity e => e.summary o
  | member c m => o.summary (c.name ++ "." ++ m.name) .method m.function.location
      (some m.function.signature) m.function.docComment
      (((Entity.classLike c).summary o).isExported && m.visibility == .isPublic)

end Subject

structure Summarizes (o : Outline) (x : Subject) (s : EntitySummary) : Prop where
  name : s.name = x.heading.name
  kind : s.kind = x.heading.kind
  file : s.filePath = o.filePath
  start : s.startLine = x.heading.location.startLine
  stop : s.endLine = x.heading.location.endLine
  signature : s.signature = x.heading.signature
  docComment : s.docComment = x.heading.docComment
  exported : s.isExported = true ↔ x.IsExportedFrom o

namespace Outline

variable {o : Outline} {c : ClassDecl}

def subjects (o : Outline) : List Subject := o.entities.flatMap Entity.subjects

theorem mem_exportedNames {name : String} : name ∈ o.exportedNames ↔ o.Exports name := by
  simp only [exportedNames, Exports, List.mem_map, List.mem_filter, Option.isNone_iff_eq_none,
    and_assoc]

theorem isExported_iff (name : String) (modifiers : Modifiers) :
    o.isExported name modifiers = true ↔
      modifiers.contains .exported = true ∨ o.Exports name := by
  rw [isExported, Bool.or_eq_true, List.contains_iff_mem, mem_exportedNames]

theorem entity_summarized (e : Entity) : Summarizes o (.entity e) (e.summary o) := by
  have exported : (e.summary o).isExported = true ↔ e.IsExportedFrom o := by
    cases e <;> exact isExported_iff ..
  cases e <;> exact ⟨rfl, rfl, rfl, rfl, rfl, rfl, rfl, exported⟩

theorem subject_summarized (x : Subject) : Summarizes o x (x.summary o) := by
  cases x with
  | entity e => exact entity_summarized e
  | member c m =>
    refine ⟨rfl, rfl, rfl, rfl, rfl, rfl, rfl, ?_⟩
    have own := (entity_summarized (o := o) (.classLike c)).exported
    simp only [Subject.summary, summary, Subject.IsExportedFrom, Bool.and_eq_true, beq_iff_eq]
    rw [own]
    rfl

theorem classSummaries_eq (o : Outline) (c : ClassDecl) :
    o.classSummaries c = (Entity.classLike c).subjects.map (·.summary o) := by
  simp only [classSummaries, Entity.subjects, List.map_cons, List.map_map]
  rfl

theorem summaries_eq (o : Outline) : o.summaries = o.subjects.map (·.summary o) := by
  have plain {α : Type} (entries : List α) (entity : α → Entity)
      (alone : ∀ a, (entity a).subjects = [.entity (entity a)]) :
      ((entries.map entity).flatMap Entity.subjects).map (·.summary o) =
        entries.map fun a => (entity a).summary o := by
    rw [List.flatMap_map, List.map_flatMap, List.map_eq_flatMap]
    simp only [alone]
    rfl
  have classes : ((o.classes.map .classLike).flatMap Entity.subjects).map (·.summary o) =
      o.classes.flatMap o.classSummaries := by
    rw [List.flatMap_map, List.map_flatMap, funext (classSummaries_eq o)]
  simp only [subjects, entities, List.flatMap_append, List.map_append, classes]
  rw [plain _ _ fun _ => rfl, plain _ _ fun _ => rfl, plain _ _ fun _ => rfl,
    plain _ _ fun _ => rfl]
  rfl

theorem summaries_length (o : Outline) :
    o.summaries.length = o.entityCount + (o.classes.flatMap (·.callables)).length := by
  have classes : (o.classes.flatMap o.classSummaries).length =
      o.classes.length + (o.classes.flatMap (·.callables)).length := by
    induction o.classes with
    | nil => rfl
    | cons c rest ih =>
      simp only [List.flatMap_cons, List.length_append, ih, classSummaries, List.length_cons,
        List.length_map]
      omega
  simp only [summaries, entityCount, List.length_append, List.length_map, classes]
  omega

theorem summaries_summarize (o : Outline) :
    List.Forall₂ (Summarizes o) o.subjects o.summaries := by
  rw [summaries_eq, List.forall₂_map_right_iff, List.forall₂_same]
  intro x _
  exact subject_summarized x

-- A class stands right before its constructor and its methods, which are exported with it.
def ListsClass (o : Outline) (c : ClassDecl) : Prop :=
  ∃ front own members back, o.summaries = front ++ own :: members ++ back ∧
    Summarizes o (.entity (.classLike c)) own ∧
    List.Forall₂ (fun m s => Summarizes o (.member c m) s ∧
      (s.isExported = true ↔ own.isExported = true ∧ m.visibility = .isPublic))
      c.callables members

theorem listsClass (member : c ∈ o.classes) : o.ListsClass c := by
  have listed : .classLike c ∈ o.entities := by
    simp only [entities, List.mem_append, List.mem_map_of_mem member, true_or, or_true]
  obtain ⟨before, after, split⟩ := List.append_of_mem listed
  refine ⟨(before.flatMap Entity.subjects).map (·.summary o), (Entity.classLike c).summary o,
    c.callables.map fun m => (Subject.member c m).summary o,
    (after.flatMap Entity.subjects).map (·.summary o), ?_, entity_summarized _, ?_⟩
  · rw [summaries_eq, subjects, split, List.flatMap_append, List.flatMap_cons, List.map_append,
      List.map_append, ← classSummaries_eq, classSummaries, List.append_assoc]
    rfl
  · rw [List.forall₂_map_right_iff, List.forall₂_same]
    intro m _
    have said : Summarizes o (.member c m) _ := subject_summarized (.member c m)
    have own : Summarizes o (.entity (.classLike c)) _ := entity_summarized (.classLike c)
    exact ⟨said, said.exported.trans (and_congr_left' own.exported.symm)⟩

theorem isExported_congr {exports : List ExportDecl}
    (same : ∀ x, x.source = none → (x ∈ exports ↔ x ∈ o.exports)) :
    ({ o with exports := exports } : Outline).isExported = o.isExported := by
  funext name modifiers
  rw [Bool.eq_iff_iff, isExported_iff, isExported_iff]
  refine or_congr_right ⟨?_, ?_⟩
  · rintro ⟨x, member, free, names⟩
    exact ⟨x, (same x free).mp member, free, names⟩
  · rintro ⟨x, member, free, names⟩
    exact ⟨x, (same x free).mpr member, free, names⟩

theorem summaries_congr {exports : List ExportDecl}
    (same : ∀ x, x.source = none → (x ∈ exports ↔ x ∈ o.exports)) :
    ({ o with exports := exports } : Outline).summaries = o.summaries := by
  have each (x : Subject) : x.summary { o with exports := exports } = x.summary o := by
    rcases x with (f | c | i | t | v) | ⟨c, m⟩ <;>
      simp only [Subject.summary, Entity.summary, summary, isExported_congr same]
  rw [summaries_eq, summaries_eq o]
  exact congrArg (o.subjects.map ·) (funext each)

-- One summary for each entity and member in the order of the file, each with all that the file
-- says of its subject. Of the exports only the set of those that pass nothing on counts.
theorem summaries_exact (o : Outline) :
    List.Forall₂ (Summarizes o) o.subjects o.summaries ∧
    o.summaries.length = o.entityCount + (o.classes.flatMap (·.callables)).length ∧
    (∀ c ∈ o.classes, o.ListsClass c) ∧
    ∀ exports : List ExportDecl,
      (∀ x, x.source = none → (x ∈ exports ↔ x ∈ o.exports)) →
        ({ o with exports := exports } : Outline).summaries = o.summaries := by
  refine ⟨summaries_summarize o, summaries_length o, ?_, ?_⟩
  · intro c member
    exact listsClass member
  · intro exports same
    exact summaries_congr same

def sampleSpot (first last : Nat) : Location := ⟨"a.ts", first, last, 0, 1⟩

def sampleFunction (name : String) (first last : Nat) : FunctionDecl where
  name := name
  params := []
  returnType := none
  typeParams := []
  body := ""
  location := sampleSpot first last
  modifiers := .empty
  docComment := none
  signature := name ++ "()"
  complexity := 1

def sampleFile : Outline where
  filePath := "a.ts"
  language := .typescript
  functions := [sampleFunction "helper" 1 3]
  classes := [{
    name := "Service"
    constructor := some ⟨sampleFunction "constructor" 6 7, .isPublic, false, false, false, false⟩
    methods := [⟨sampleFunction "hidden" 8 9, .isPrivate, false, false, false, false⟩]
    location := sampleSpot 5 10
    modifiers := .ofList [.exported] }]
  exports := [{
    name := "assist"
    localName := some "helper"
    kind := .named
    location := sampleSpot 12 12 }]

def passedOn : ExportDecl where
  name := "hidden"
  kind := .reExport
  source := some "./hidden"
  location := sampleSpot 13 13

theorem passing_on_changes_no_summary :
    sampleFile.summaries.map (fun s => (s.name, s.isExported)) =
        [("helper", true), ("Service", true), ("Service.constructor", true),
          ("Service.hidden", false)] ∧
      sampleFile.summaries.length = 4 ∧ (∀ c ∈ sampleFile.classes, sampleFile.ListsClass c) ∧
      (∀ x, x.source = none →
        (x ∈ passedOn :: sampleFile.exports ++ sampleFile.exports ↔ x ∈ sampleFile.exports)) ∧
      ({ sampleFile with exports := passedOn :: sampleFile.exports ++ sampleFile.exports }
        : Outline).summaries = sampleFile.summaries := by
  have same : ∀ x, x.source = none →
      (x ∈ passedOn :: sampleFile.exports ++ sampleFile.exports ↔ x ∈ sampleFile.exports) := by
    intro x free
    have other : x ≠ passedOn := by
      rintro rfl
      cases free
    simp only [List.cons_append, List.mem_cons, List.mem_append, or_self, other, false_or]
  obtain ⟨_, size, classes, unchanged⟩ := summaries_exact sampleFile
  exact ⟨by decide +kernel, size, classes, same, unchanged _ same⟩

end Outline

end CodeEntities
