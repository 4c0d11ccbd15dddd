import CodeEntities.Proofs.Rules.All

namespace CodeEntities

namespace Options

def nothing : Options where
  includeBodies := false
  docComments := false
  complexity := false

variable {o o' : Options}

theorem bodyOf_congr (included : o.includeBodies = o'.includeBodies)
    (limit : o.maxBodyBytes = o'.maxBodyBytes) : o.bodyOf = o'.bodyOf := by
  funext text
  unfold bodyOf
  rw [included, limit]

theorem bodyOf_excluded (excluded : o.includeBodies = false) (text : String) :
    o.bodyOf text = "" := by
  simp [bodyOf, excluded]

theorem docOf_congr (same : o.docComments = o'.docComments) : o.docOf = o'.docOf := by
  funext found
  unfold docOf
  rw [same]

theorem docOf_excluded (excluded : o.docComments = false) (found : Option String) :
    o.docOf found = none := by
  simp [docOf, excluded]

theorem complexityOf_congr (same : o.complexity = o'.complexity) :
    o.complexityOf = o'.complexityOf := by
  funext count
  unfold complexityOf
  rw [same]

theorem complexityOf_excluded (excluded : o.complexity = false) (count : Nat) :
    o.complexityOf count = 1 := by
  simp [complexityOf, excluded]

end Options

theorem Language.ownDocOf_congr {o o' : Options} (l : Language)
    (same : o.docComments = o'.docComments) : l.ownDocOf o = l.ownDocOf o' := by
  cases l with
  | elixir => rfl
  | _ => exact Options.docOf_congr same

theorem ClassDecl.callables_under (l : Language) (o : Options) (c : ClassDecl) :
    (l.classUnder o c).callables = c.callables.map (·.under o) := by
  simp only [callables, Language.classUnder, membersUnder, Option.toList_map, List.map_append]

-- What options leave out before everything is left out makes no difference.

theorem ClassDecl.under_nothing (l : Language) (o : Options) (c : ClassDecl) :
    (l.classUnder o c).under .nothing = c.under .nothing := by
  simp only [Language.classUnder, under, membersUnder, List.map_map, Option.map_map]
  rfl

theorem InterfaceDecl.under_nothing (l : Language) (o : Options) (i : InterfaceDecl) :
    (l.interfaceUnder o i).under .nothing = i.under .nothing := by
  simp only [Language.interfaceUnder, under, membersUnder, List.map_map]
  rfl

namespace Outline

def callables (u : Outline) : List FunctionDecl :=
  u.functions ++ (u.classes.flatMap fun c => c.callables.map (·.function)) ++
    u.interfaces.flatMap fun i => i.methods.map (·.function)

def bodies (u : Outline) : List String := u.callables.map (·.body)

def complexities (u : Outline) : List Nat := u.callables.map (·.complexity)

def properties (u : Outline) : List PropertyDecl :=
  u.classes.flatMap (·.properties) ++ u.interfaces.flatMap (·.properties)

-- The doc comments of a file, with a place for every declaration that can have one.

def typeDocs (u : Outline) : List (Option String) :=
  u.classes.map (·.docComment) ++ u.interfaces.map (·.docComment)

def otherDocs (u : Outline) : List (Option String) :=
  u.callables.map (·.docComment) ++ u.properties.map (·.docComment) ++
    u.typeAliases.map (·.docComment) ++ u.bindings.map (·.docComment)

def docComments (u : Outline) : List (Option String) := u.typeDocs ++ u.otherDocs

def erased (u : Outline) : Outline :=
  { u with
    functions := u.functions.map (·.under .nothing)
    classes := u.classes.map (·.under .nothing)
    interfaces := u.interfaces.map (·.under .nothing)
    typeAliases := u.typeAliases.map (·.under .nothing)
    bindings := u.bindings.map (·.under .nothing) }

def under (o : Options) (u : Outline) : Outline :=
  { u with
    functions := u.functions.map (·.under o)
    classes := u.classes.map (u.language.classUnder o)
    interfaces := u.interfaces.map (u.language.interfaceUnder o)
    typeAliases := u.typeAliases.map (·.under o)
    bindings := u.bindings.map (·.under o) }

theorem extract_under (cx : Context) (root : Node) :
    extract cx root = (extract cx.full root).under cx.options := by
  have rules := Rules.of_obeys cx.language
  unfold extract under
  simp only
  rw [rules.functions, rules.classes, rules.interfaces, rules.typeAliases, rules.bindings,
    rules.imports, rules.exports]
  rfl

section Under

variable (o : Options) (u : Outline)

theorem erased_under : (u.under o).erased = u.erased := by
  unfold erased under
  simp only [List.map_map, Function.comp_def, ClassDecl.under_nothing,
    InterfaceDecl.under_nothing]
  rfl

theorem callables_under : (u.under o).callables = u.callables.map (·.under o) := by
  unfold callables under
  simp only [List.map_append, List.map_flatMap, List.flatMap_map, ClassDecl.callables_under,
    Language.interfaceUnder, InterfaceDecl.membersUnder, List.map_map]
  rfl

theorem bodies_under : (u.under o).bodies = u.bodies.map o.bodyOf := by
  unfold bodies
  rw [callables_under, List.map_map, List.map_map]
  rfl

theorem complexities_under : (u.under o).complexities = u.complexities.map o.complexityOf := by
  unfold complexities
  rw [callables_under, List.map_map, List.map_map]
  rfl

theorem properties_under : (u.under o).properties = u.properties.map (·.under o) := by
  unfold properties under
  simp only [List.map_append, List.map_flatMap, List.flatMap_map]
  rfl

theorem typeDocs_under : (u.under o).typeDocs = u.typeDocs.map (u.language.ownDocOf o) := by
  unfold typeDocs under
  simp only [List.map_append, List.map_map]
  rfl

theorem otherDocs_under : (u.under o).otherDocs = u.otherDocs.map o.docOf := by
  unfold otherDocs
  rw [callables_under, properties_under]
  simp only [under, List.map_append, List.map_map]
  rfl

end Under

-- Two extractions that differ in their options alone.
theorem options_govern_their_own_fields (cx : Context) (o o' : Options) (root : Node) :
    let u := extract { cx with options := o } root
    let u' := extract { cx with options := o' } root
    u.erased = u'.erased ∧
      (o.includeBodies = o'.includeBodies → o.maxBodyBytes = o'.maxBodyBytes →
        u.bodies = u'.bodies) ∧
      (o.includeBodies = false → ∀ body ∈ u.bodies, body = "") ∧
      (o.docComments = o'.docComments → u.docComments = u'.docComments) ∧
      (o.complexity = o'.complexity → u.complexities = u'.complexities) ∧
      (o.complexity = false → ∀ count ∈ u.complexities, count = 1) := by
  intro u u'
  have seen : u = (extract cx.full root).under o := extract_under { cx with options := o } root
  have seen' : u' = (extract cx.full root).under o' := extract_under { cx with options := o' } root
  rw [seen, seen']
  refine ⟨?_, ?_, ?_, ?_, ?_, ?_⟩
  · rw [erased_under, erased_under]
  · intro included limit
    rw [bodies_under, bodies_under, Options.bodyOf_congr included limit]
  · intro excluded body member
    rw [bodies_under] at member
    obtain ⟨text, _, rfl⟩ := List.mem_map.mp member
    exact Options.bodyOf_excluded excluded text
  · intro same
    unfold docComments
    rw [typeDocs_under, typeDocs_under, otherDocs_under, otherDocs_under,
      Options.docOf_congr same, Language.ownDocOf_congr _ same]
  · intro same
    rw [complexities_under, complexities_under, Options.complexityOf_congr same]
  · intro excluded count member
    rw [complexities_under] at member
    obtain ⟨full, _, rfl⟩ := List.mem_map.mp member
    exact Options.complexityOf_excluded excluded full

-- Two clauses of one function, `def f, do: 1` and `def f, do: 2`.
def clause (start : Nat) : Tree :=
  .whole "call" start (start + 12) none [
    .whole "identifier" start (start + 3) (some "target") [],
    .whole "arguments" (start + 4) (start + 12) none [
      .whole "identifier" (start + 4) (start + 5) none [],
      .token "," (start + 5),
      .whole "keywords" (start + 7) (start + 12) none []]]

def clauses : Node := .root (.whole "source" 0 26 none [clause 0, clause 13])

def clausesContext : Context where
  source := "def f, do: 1\ndef f, do: 2\n"
  filePath := "f.ex"
  language := .elixir
  options := {}

theorem joined_clauses_counted_on_demand :
    let uncounted := extract { clausesContext with options := { complexity := false } } clauses
    let counted := extract { clausesContext with options := {} } clauses
    counted.complexities = [2] ∧ uncounted.erased = counted.erased ∧
      uncounted.bodies = counted.bodies ∧ uncounted.docComments = counted.docComments ∧
      ∀ count ∈ uncounted.complexities, count = 1 := by
  intro uncounted counted
  have joined : counted.complexities = [2] := by decide +kernel
  obtain ⟨same, bodies, _, docs, _, ones⟩ :=
    options_govern_their_own_fields clausesContext { complexity := false } {} clauses
  exact ⟨joined, same, bodies rfl rfl, docs rfl, ones rfl⟩

end Outline

end CodeEntities
