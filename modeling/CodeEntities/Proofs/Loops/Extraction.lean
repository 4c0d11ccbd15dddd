import CodeEntities.Proofs.Loops.Climbs
import CodeEntities.Proofs.Loops.Members
import CodeEntities.Proofs.Loops.Scans
import CodeEntities.Rules.Haskell

namespace CodeEntities

open Node (root searchLoop wantedVisit collectStep climbLoop)

structure ChainsEnd (lookup : Lookup) (t : Tree) : Prop where
  declaredNodes : ∀ n ∈ (root t).preorder,
    ∃ d, lookup.declaredLoop.within n.size (lookup n "declarator") = some d
  declarators : ∀ cx, ∀ n ∈ (root t).preorder,
    ∃ d, (lookup.resolveLoop cx).within n.size { current := n } = some d
  definitionNames : ∀ source, ∀ n ∈ (root t).preorder,
    ∃ name, lookup.nameWithin source n.size n = some name

def Node.kindVisit (kinds stop : List String) (n : Node) : Visit :=
  if kinds.contains n.kind then .report else if stop.contains n.kind then .pass else .enter

def Node.levelVisit (targets wrappers : List String) (n : Node) : Visit :=
  if targets.contains n.kind then .report else if wrappers.contains n.kind then .enter else .pass

structure SearchesEnd : Prop where
  firstDescendants : ∀ (n : Node) kinds,
    (searchLoop (wantedVisit fun m => !m.isSame n && kinds.contains m.kind)).within
      (n.size + 1) [n] = some (n.findDescendant? kinds)
  descendants : ∀ (n : Node) kinds stop,
    (Loop.listing (collectStep (Node.kindVisit kinds stop))).within n.size ([], n.children) =
      some (n.descendantsOfKind kinds stop)
  moduleLevels : ∀ (n : Node) targets wrappers,
    (Loop.listing (collectStep (Node.levelVisit targets wrappers))).within n.size ([], n.children) =
      some (n.moduleLevel targets wrappers)

theorem searches_end : SearchesEnd where
  firstDescendants n _ := Node.first_result _ n (Nat.lt_succ_self _)
  descendants n _ _ := Node.collectBelow_result _ n
  moduleLevels n _ _ := Node.collectBelow_result _ n

def faultVisit (n : Node) : Node.Visit :=
  if isFault n then .report else if n.label.hasError then .enter else .pass

def Context.nameVisit (n m : Node) : Node.Visit :=
  if ((n.field? "type").any m.isSame) || Text.endsWith m.kind "type" ||
      m.kind == "type_annotation" then .pass
  else if !m.isSame n && m.isIdentifier && m.kind != "type_identifier" then .report
  else .enter

structure PartsEnd (cx : Context) (t : Tree) : Prop where
  bodies : ∀ n limit, (Text.boundaryLoop (cx.text n).toList).within (limit + 1) limit =
    some (Text.floorBoundary? (cx.text n).toList limit)
  comments : ∀ n ∈ (root t).preorder,
    Node.precedingWithin cx.source t.size n = some (n.precedingComment cx.source)
  faults : (root t).label.hasError →
    (Loop.listing (collectStep faultVisit)).within (t.size + 1) ([], [root t]) =
      some (faults (root t))
  parameters : ∀ n, cx.parameterLoop.within n.size ([], n.children) = some (cx.parameters n)
  parameterNames : ∀ n, (searchLoop (Context.nameVisit n)).within (n.size + 1) [n] =
    some (Context.innerName? n)
  scores : ∀ n, (Node.scoreLoop cx.source).within (n.size + 1) (1, [n]) =
    some (Node.scoreStack cx.source 1 [n])

theorem Node.children_fewer (n : Node) : n.children.length < n.size := by
  have trees := Tree.length_le_sizeAll n.focus.children
  rw [← children_focus, List.length_map, children_focus] at trees
  rw [size, Tree.size_eq]
  omega

theorem parts_end (cx : Context) (t : Tree) : PartsEnd cx t where
  bodies n limit := Text.boundary_result _ (Nat.lt_succ_self _)
  comments n := Node.preceding_result cx.source
  faults marked := by
    have whole : Node.stackSize [root t] < t.size + 1 := Nat.lt_succ_self _
    rw [Node.collect_result faultVisit whole, List.flatMap_singleton, faults, if_pos marked]
    rfl
  parameters n := cx.parameter_result n.children n.children_fewer
  parameterNames n := Node.search_result _ n (Nat.lt_succ_self _)
  scores n := Node.score_result cx.source n (Nat.lt_succ_self _)

structure RulesEnd (cx : Context) (t : Tree) : Prop where
  arrows : ∀ signature, Text.arrowLoop.within (signature.length + 1) ⟨0, [], [], signature⟩ =
    some (Text.arrowsFrom 0 [] [] signature)
  classMembers : ∀ className (body : Node) default,
    (CFamily.memberLoop cx className).within body.size (⟨default, {}⟩, body.namedChildren) =
      some (CFamily.readQueue cx className ⟨default, {}⟩ body.namedChildren)
  companions : ∀ isStatic (body : Node),
    (Loop.listing Kotlin.memberStep).within body.size
        ([], body.namedChildren.map fun m => (m, isStatic)) =
      some (Kotlin.memberNodes isStatic body)
  declarators : ∀ n, (Lookup.resolveLoop cx Node.field?).within n.size { current := n } =
    some (CFamily.resolve cx n)
  enumMembers : ∀ body : Node,
    (Loop.listing Java.memberStep).within body.size ([], body.namedChildren) =
      some (Java.memberNodes body)
  moduleCalls : ∀ n, (Loop.listing (Elixir.callStep cx)).within n.size ([], n.children) =
    some (Elixir.moduleCalls cx n)
  nestedClasses : ∀ n, (Loop.listing Ruby.classStep).within n.size ([], n.children) =
    some (Ruby.classNodes n)
  roots : ∀ n ∈ (root t).preorder,
    (climbLoop fun _ => true).within t.size n = some ((n.ancestors.getLast?).getD n)
  structFields : ∀ n, (Loop.listing Elixir.fieldStep).within n.size ([], Elixir.arguments n) =
    some (Elixir.fieldNodes n)
  useTrees : ∀ start n, (Rust.useLoop cx).within (n.size + 1) ([], [⟨start, n⟩]) =
    some (Rust.usePaths cx start n)
  values : ∀ n, Data.unwrapLoop.within n.size n = some (Data.unwrap n)

theorem rules_end (cx : Context) (t : Tree) : RulesEnd cx t where
  arrows signature := Text.arrow_result signature (Nat.lt_succ_self _)
  classMembers className body default := CFamily.member_result cx className _ body.stackSize_named
  companions := Kotlin.member_result
  declarators := Lookup.resolve_result cx
  enumMembers := Java.member_result
  moduleCalls := Elixir.call_result cx
  nestedClasses := Ruby.class_result
  roots n inside := by
    rw [Node.climb_result _ (Node.height_less inside), Node.climbed,
      List.takeWhile_eq_self_iff.mpr fun _ _ => rfl]
  structFields := Elixir.field_result
  useTrees start n := Rust.use_result cx start n (Nat.lt_succ_self _)
  values := Data.unwrap_result

structure CallSearchEnds (s : CallSearch) (t : Tree) : Prop where
  declaredNodes : ∀ n, (Lookup.declaredLoop Node.field?).within n.size (n.field? "declarator") =
    some (CallRole.declaredName? n)
  definitionNames : ∀ n, Lookup.nameWithin s.source Node.field? n.size n =
    some (CallRole.definitionName? s.source n)
  walk : (s.walkLoop.within (t.size + 1) { pending := [{ node := root t }] }).map
      (·.calls.mergeSort CallSearch.startsBy) = some (s.run (root t))

theorem callSearch_ends (s : CallSearch) (t : Tree) : CallSearchEnds s t where
  declaredNodes := Lookup.declared_result
  definitionNames := Lookup.name_result s.source
  walk := by
    have whole : (root t).size < t.size + 1 := Nat.lt_succ_self _
    rw [s.walk_result (root t) whole]
    rfl

-- The loops that extract an outline and the calls of a tree end. Whatever else an extraction does
-- goes once through a list.
structure ExtractionEnds (t : Tree) : Prop where
  searches : SearchesEnd
  parts : ∀ cx, PartsEnd cx t
  rules : ∀ cx, RulesEnd cx t
  calls : ∀ s, CallSearchEnds s t

theorem extraction_ends (t : Tree) : ExtractionEnds t where
  searches := searches_end
  parts cx := parts_end cx t
  rules cx := rules_end cx t
  calls s := callSearch_ends s t

-- What descending lookups are worth: the chains along them end, and so does an extraction that
-- reads them off the labels, for whatever fields it asks.
structure DescentEnds (lookup : Lookup) (t : Tree) : Prop where
  chains : ChainsEnd lookup t
  own : ExtractionEnds t
  given : ∀ fields, ∃ u, lookup.RealizedBy fields t u ∧ ExtractionEnds u

theorem descending_lookups_end {lookup : Lookup} {t : Tree} (descends : lookup.Descends (root t)) :
    DescentEnds lookup t where
  chains :=
    { declaredNodes := fun _ => Lookup.declared_ends descends
      declarators := fun cx _ => Lookup.resolve_ends cx descends
      definitionNames := fun source _ => Lookup.name_ends source descends }
  own := extraction_ends t
  given fields := by
    obtain ⟨u, realized⟩ := descends.realized fields
    exact ⟨u, realized, extraction_ends u⟩

def lastBelow : Lookup := fun n _ => n.descendants.getLast?

def crookedTree : Tree := .whole "function_definition" 0 2 none [
  .whole "pointer_declarator" 0 2 none [
    .token "*" 0,
    .whole "function_declarator" 1 2 none [
      .whole "ERROR" 1 2 none [.whole "identifier" 1 2 none []]]]]

def crookedContext : Context where
  source := "*f"
  filePath := "f.c"
  language := .c
  options := {}

-- Every field of a crooked tree leads past the pointer to the name at once; its own fields lead
-- nowhere, and the children are gone through one by one.
theorem crooked_lookups_end : lastBelow.Descends (root crookedTree) ∧
    DescentEnds lastBelow crookedTree ∧
    ((lastBelow.resolveLoop crookedContext).within 2 { current := root crookedTree }).map
      (·.map fun d => (d.name, d.pointers)) = some (some ("f", 0)) ∧
    ((Lookup.resolveLoop crookedContext Node.field?).within 6 { current := root crookedTree }).map
      (·.map fun d => (d.name, d.pointers)) = some (some ("f", 1)) := by
  have descends : lastBelow.Descends (root crookedTree) :=
    fun _ _ _ _ found => List.mem_of_getLast? found
  exact ⟨descends, descending_lookups_end descends, by decide +kernel, by decide +kernel⟩

end CodeEntities
