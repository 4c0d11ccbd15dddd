import CodeEntities.Outline.Extract
import CodeEntities.Proofs.Calls.Entities

namespace CodeEntities.Outline

variable {o : Outline} {c : ClassDecl} {m : MethodDecl} {place : Nat × Nat} {name : String}

-- No other function or member of the file starts where a member of a class does.
structure StartsAlone (o : Outline) (c : ClassDecl) (m : MethodDecl) : Prop where
  declared : c ∈ o.classes
  member : m ∈ members c
  functions : ∀ f ∈ o.functions, (functionSpan f).start ≠ (memberSpan c m).start
  members : ∀ d ∈ o.classes, ∀ other ∈ members d,
    (memberSpan d other).start = (memberSpan c m).start → d = c ∧ other = m

def ClassAt (o : Outline) (place : Nat × Nat) : Prop :=
  ∃ d ∈ o.classes, (classSpan d).start = place

theorem mem_declaredNames :
    (place, name) ∈ o.declaredNames ↔
      ¬ o.ClassAt place ∧ ∃ s ∈ o.spans, s.start = place ∧ s.name = name := by
  simp only [declaredNames, List.mem_reverse, List.mem_map, List.mem_filter, ClassAt,
    Prod.mk.injEq, Bool.not_eq_true', List.contains_eq_mem, decide_eq_false_iff_not]
  constructor
  · rintro ⟨s, ⟨spanned, free⟩, rfl, rfl⟩
    exact ⟨free, s, spanned, rfl, rfl⟩
  · rintro ⟨free, s, spanned, rfl, rfl⟩
    exact ⟨s, ⟨spanned, free⟩, rfl, rfl⟩

-- Where a class starts no name is declared, not even that of a member.
theorem lookup_classAt (taken : o.ClassAt place) : o.declaredNames.lookup place = none := by
  apply List.lookup_eq_none_iff.mpr
  rintro ⟨other, name⟩ member
  have free := (mem_declaredNames.mp member).1
  refine bne_iff_ne.mpr fun same => ?_
  subst same
  exact free taken

theorem StartsAlone.span (alone : o.StartsAlone c m) (free : ¬ o.ClassAt (memberSpan c m).start)
    {s : Span} (spanned : s ∈ o.spans) (same : s.start = (memberSpan c m).start) :
    s = memberSpan c m := by
  rcases List.mem_append.mp spanned with function | inClass
  · obtain ⟨f, declared, rfl⟩ := List.mem_map.mp function
    exact absurd same (alone.functions f declared)
  · obtain ⟨d, declared, inClass⟩ := List.mem_flatMap.mp inClass
    rcases List.mem_cons.mp inClass with rfl | member
    · exact absurd ⟨d, declared, same⟩ free
    · obtain ⟨other, belongs, rfl⟩ := List.mem_map.mp member
      obtain ⟨rfl, rfl⟩ := alone.members d declared other belongs same
      rfl

theorem StartsAlone.spanned (alone : o.StartsAlone c m) : memberSpan c m ∈ o.spans := by
  refine List.mem_append_right _ (List.mem_flatMap.mpr ⟨c, alone.declared, ?_⟩)
  exact List.mem_cons_of_mem _ (List.mem_map_of_mem alone.member)

theorem lookup_member (alone : o.StartsAlone c m) (free : ¬ o.ClassAt (memberSpan c m).start) :
    o.declaredNames.lookup (memberSpan c m).start = some (memberSpan c m).name := by
  cases found : o.declaredNames.lookup (memberSpan c m).start with
  | none =>
    have absent := List.lookup_eq_none_iff.mp found _
      (mem_declaredNames.mpr ⟨free, _, alone.spanned, rfl, rfl⟩)
    simp at absent
  | some name =>
    obtain ⟨before, after, split, _⟩ := List.lookup_eq_some_iff.mp found
    have member : ((memberSpan c m).start, name) ∈ o.declaredNames := by
      rw [split]
      simp
    obtain ⟨_, s, spanned, start, rfl⟩ := mem_declaredNames.mp member
    rw [alone.span free spanned start]

section Walked

variable {source own : String} {head : Option Node} {t : Tree} {n k : Node} {call : FunctionCall}

theorem given_member (alone : o.StartsAlone c m) (free : ¬ o.ClassAt (memberSpan c m).start)
    (starts : (o.search source).startOf n = (memberSpan c m).start) :
    (o.search source).givenName? n = some (memberSpan c m).name := by
  unfold CallSearch.givenName?
  rw [starts]
  exact lookup_member alone free

theorem given_classAt (taken : o.ClassAt ((o.search source).startOf n)) :
    (o.search source).givenName? n = none := lookup_classAt taken

theorem definition_caller {s : CallSearch} (role : s.role n = .definition own head)
    (nearest : s.Nearest k n) :
    s.callerOf k = s.resolveName (s.enclosingClass? n) n own := by
  unfold CallSearch.callerOf
  rw [CallSearch.nearest_exact.mp nearest]
  simp only [Option.bind_some, CallSearch.scopeName?, role, Option.getD_some]

theorem call_returned (inside : k ∈ (Node.root t).preorder)
    (found : (o.search source).callOf? k = some call) :
    o.assign call ∈ o.calls source (.root t) :=
  List.mem_map_of_mem (CallSearch.mem_run.mpr ⟨k, inside, found⟩)

theorem assign_name (different : name ≠ moduleScope) :
    (o.assign call).callerName = name ↔ call.callerName = name ∨
      call.callerName = moduleScope ∧ ∃ s, o.Owns call.line s ∧ s.name = name := by
  constructor
  · intro same
    have assigned := assign_sound o call
    generalize o.assign call = after at same assigned
    cases assigned with
    | moved topLevel owner => exact .inr ⟨topLevel, _, owner, same⟩
    | uncovered _ _ => exact .inl same
    | claimed _ => exact .inl same
  · rintro (same | ⟨topLevel, s, owner, rfl⟩)
    · have inside : call.callerName ≠ moduleScope := same ▸ different
      rw [assign_claimed inside]
      exact same
    · rw [assign_owned topLevel owner]
      rfl

-- A call that stands at a node of a tree, with a definition as its nearest scope that
-- starts where a member of a class starts alone.
structure MemberCall (o : Outline) (source : String) (t : Tree) (c : ClassDecl) (m : MethodDecl)
    (n : Node) (own : String) (k : Node) (call : FunctionCall) : Prop where
  alone : o.StartsAlone c m
  starts : (o.search source).startOf n = (memberSpan c m).start
  role : ∃ head, (o.search source).role n = .definition own head
  inside : k ∈ (Node.root t).preorder
  nearest : (o.search source).Nearest k n
  found : (o.search source).callOf? k = some call

-- The calls of a member carry the member's qualified name exactly when no class is
-- recorded at the member's start, or else the walk's own name for it is the same.
theorem member_name_kept_iff (made : o.MemberCall source t c m n own k call) :
    o.assign call ∈ o.calls source (.root t) ∧
    ((o.assign call).callerName = c.name ++ "." ++ m.name ↔
      ¬ o.ClassAt (memberSpan c m).start ∨
      let fallback := CallSearch.qualified ((o.search source).enclosingClass? n) own
      fallback = c.name ++ "." ++ m.name ∨
      fallback = moduleScope ∧ ∃ s, o.Owns call.line s ∧ s.name = c.name ++ "." ++ m.name) := by
  obtain ⟨alone, starts, ⟨head, role⟩, inside, nearest, found⟩ := made
  refine ⟨call_returned inside found, ?_⟩
  obtain ⟨_, _, caller, called, site⟩ := CallSearch.callOf_exact.mp found
  have named : call.callerName =
      (o.search source).resolveName ((o.search source).enclosingClass? n) n own := by
    rw [(CallSearch.callAt_caller site).1, ← CallSearch.callerOf_complete called]
    exact definition_caller role nearest
  rw [assign_name (memberName_ne _ _), named]
  unfold CallSearch.resolveName
  by_cases taken : o.ClassAt (memberSpan c m).start
  · rw [given_classAt (starts ▸ taken)]
    simp [taken]
  · rw [given_member alone taken starts]
    exact ⟨fun _ => .inl taken, fun _ => .inl rfl⟩

end Walked

-- Two functions of a table M, `function M:n() o() end` and `function M:k() o() end`.
-- The module M is recorded where the first of them starts.
def tableFunction (start : Nat) : Tree :=
  .whole "function_declaration" start (start + 22) none [
    .token "function" start,
    .whole "method_index_expression" (start + 9) (start + 12) (some "name") [
      .whole "identifier" (start + 9) (start + 10) (some "table") [],
      .token ":" (start + 10),
      .whole "identifier" (start + 11) (start + 12) (some "method") []],
    .whole "parameters" (start + 12) (start + 14) (some "parameters") [
      .token "(" (start + 12), .token ")" (start + 13)],
    .whole "block" (start + 15) (start + 18) (some "body") [
      .whole "function_call" (start + 15) (start + 18) none [
        .whole "identifier" (start + 15) (start + 16) (some "name") [],
        .whole "arguments" (start + 16) (start + 18) (some "arguments") [
          .token "(" (start + 16), .token ")" (start + 17)]]],
    .token "end" (start + 19)]

def tableModule : Tree := .whole "chunk" 0 46 none [tableFunction 0, tableFunction 23]

def tableSource : String := "function M:n() o() end\nfunction M:k() o() end\n"

def tableOutline : Outline :=
  extract { source := tableSource, filePath := "test.lua", language := .lua, options := {} }
    (.root tableModule)

def tableLines (startLine endLine : Nat) : Location :=
  { filePath := "test.lua", startLine, endLine, startColumn := 0, endColumn := 22 }

def tableMember (name : String) (line : Nat) : MethodDecl :=
  .ofFunction
    { name, params := [], returnType := none, typeParams := []
      body := "function M:" ++ name ++ "() o() end"
      location := tableLines line line
      modifiers := .empty, docComment := none, signature := name ++ "()", complexity := 1 }
    .isPublic

def tableClass : ClassDecl where
  name := "M"
  kind := .moduleLike
  methods := [tableMember "n" 1, tableMember "k" 2]
  location := tableLines 1 2
  modifiers := .ofList [.exported]

theorem tableOutline_classes : tableOutline.classes = [tableClass] := by decide +kernel

theorem tableOutline_alone : ∀ m ∈ tableClass.methods, tableOutline.StartsAlone tableClass m := by
  intro m member
  have functions : tableOutline.functions = [] := by decide +kernel
  refine ⟨?_, List.mem_append_left _ member, ?_, ?_⟩
  · rw [tableOutline_classes]
    exact List.mem_singleton_self _
  · rw [functions]
    exact fun _ listed => absurd listed List.not_mem_nil
  · rw [tableOutline_classes]
    revert m
    decide +kernel

def tableNode (path : List Nat) : Node :=
  ((Node.root tableModule).descend path).getD (.root tableModule)

theorem tableNode_mem {path : List Nat}
    (found : ((Node.root tableModule).descend path).isSome = true) :
    tableNode path ∈ (Node.root tableModule).preorder := by
  obtain ⟨n, found⟩ := Option.isSome_iff_exists.mp found
  unfold tableNode
  rw [found]
  exact Node.descend_mem_preorder found

theorem first_member_loses_name :
    ∃ call, tableOutline.MemberCall tableSource tableModule tableClass (tableMember "n" 1)
        (tableNode [0]) "M:n" (tableNode [0, 3, 0]) call ∧
      tableOutline.assign call ∈ tableOutline.calls tableSource (.root tableModule) ∧
      (tableOutline.assign call).callerName = "M:n" ∧
      tableClass.name ++ "." ++ (tableMember "n" 1).name = "M.n" := by
  have alone := tableOutline_alone (tableMember "n" 1) (by decide)
  have starts : (tableOutline.search tableSource).startOf (tableNode [0]) =
      (memberSpan tableClass (tableMember "n" 1)).start := by decide +kernel
  have nearest : (tableOutline.search tableSource).Nearest (tableNode [0, 3, 0]) (tableNode [0]) :=
    ⟨[tableNode [0, 3]], [tableNode []], rfl, by decide +kernel, by decide +kernel⟩
  have returned : ((tableOutline.search tableSource).callOf? (tableNode [0, 3, 0])).map
      (fun call => (tableOutline.assign call).callerName) = some "M:n" := by decide +kernel
  obtain ⟨call, found, name⟩ := Option.map_eq_some_iff.mp returned
  have inside : tableNode [0, 3, 0] ∈ (Node.root tableModule).preorder := tableNode_mem rfl
  exact ⟨call, ⟨alone, starts, ⟨none, rfl⟩, inside, nearest, found⟩, call_returned inside found,
    name, by decide⟩

theorem second_member_keeps_name :
    ∃ call, tableOutline.MemberCall tableSource tableModule tableClass (tableMember "k" 2)
        (tableNode [1]) "M:k" (tableNode [1, 3, 0]) call ∧
      tableOutline.assign call ∈ tableOutline.calls tableSource (.root tableModule) ∧
      (tableOutline.assign call).callerName = tableClass.name ++ "." ++ (tableMember "k" 2).name := by
  have alone := tableOutline_alone (tableMember "k" 2) (by decide)
  have starts : (tableOutline.search tableSource).startOf (tableNode [1]) =
      (memberSpan tableClass (tableMember "k" 2)).start := by decide +kernel
  have nearest : (tableOutline.search tableSource).Nearest (tableNode [1, 3, 0]) (tableNode [1]) :=
    ⟨[tableNode [1, 3]], [tableNode []], rfl, by decide +kernel, by decide +kernel⟩
  have called : ((tableOutline.search tableSource).callOf? (tableNode [1, 3, 0])).isSome = true := by
    decide +kernel
  obtain ⟨call, found⟩ := Option.isSome_iff_exists.mp called
  have made : tableOutline.MemberCall tableSource tableModule tableClass (tableMember "k" 2)
      (tableNode [1]) "M:k" (tableNode [1, 3, 0]) call :=
    ⟨alone, starts, ⟨none, rfl⟩, tableNode_mem rfl, nearest, found⟩
  have free : ¬ tableOutline.ClassAt (memberSpan tableClass (tableMember "k" 2)).start := by
    unfold ClassAt
    rw [tableOutline_classes]
    decide
  obtain ⟨returned, kept⟩ := member_name_kept_iff made
  exact ⟨call, made, returned, kept.mpr (.inl free)⟩

end CodeEntities.Outline
