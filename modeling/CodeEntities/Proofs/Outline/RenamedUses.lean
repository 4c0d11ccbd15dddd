import CodeEntities.Proofs.Outline.UseTrees

namespace CodeEntities.Rust

open Grouped (keys group)

variable {cx cx' : Context} {n n' leaf : Node} {name : String}

-- Two nodes that are written alike, each in its own source: they are of one kind and have one
-- text, and so have the nodes that they hold.
inductive Alike (cx cx' : Context) : Node → Node → Prop
  | intro {n n' : Node} (kind : n'.kind = n.kind) (text : cx'.text n' = cx.text n)
      (named : List.Forall₂ (Alike cx cx') n.namedChildren n'.namedChildren)
      (fields : ∀ field, Option.Rel (Alike cx cx') (n.field? field) (n'.field? field)) :
      Alike cx cx' n n'

namespace Alike

theorem kind (alike : Alike cx cx' n n') : n'.kind = n.kind := by
  cases alike with
  | intro kind => exact kind

theorem text (alike : Alike cx cx' n n') : cx'.text n' = cx.text n := by
  cases alike with
  | intro _ text => exact text

theorem named (alike : Alike cx cx' n n') :
    List.Forall₂ (Alike cx cx') n.namedChildren n'.namedChildren := by
  cases alike with
  | intro _ _ named => exact named

theorem field (alike : Alike cx cx' n n') (field : String) :
    Option.Rel (Alike cx cx') (n.field? field) (n'.field? field) := by
  cases alike with
  | intro _ _ _ fields => exact fields field

theorem trimmed (alike : Alike cx cx' n n') : cx'.trimmed n' = cx.trimmed n :=
  congrArg Text.trim alike.text

theorem childless (kind : n'.kind = n.kind) (text : cx'.text n' = cx.text n)
    (bare : n.focus.children = []) (bare' : n'.focus.children = [])
    (plain : n.label.lookups = []) (plain' : n'.label.lookups = []) : Alike cx cx' n n' := by
  have children : n.children = [] := List.map_eq_nil_iff.mp (n.children_focus.trans bare)
  have children' : n'.children = [] := List.map_eq_nil_iff.mp (n'.children_focus.trans bare')
  refine .intro kind text ?_ fun field => ?_
  · rw [Node.namedChildren, Node.namedChildren, children, children']
    exact .nil
  · rw [Node.field?, Node.field?, plain, plain', children, children']
    exact .none

theorem texts {found found' : Option Node} (alike : Option.Rel (Alike cx cx') found found') :
    found'.map cx'.text = found.map cx.text := by
  cases alike with
  | some inner => exact congrArg some inner.text
  | none => rfl

theorem fieldText (alike : Alike cx cx' n n') (field : String) :
    cx'.fieldText? n' field = cx.fieldText? n field := by
  have same := texts (alike.field field)
  unfold Context.fieldText?
  cases found : n.field? field <;> cases found' : n'.field? field <;> simp_all

theorem head {nodes nodes' : List Node} (alike : List.Forall₂ (Alike cx cx') nodes nodes') :
    Option.Rel (Alike cx cx') nodes.head? nodes'.head? := by
  cases alike with
  | nil => exact .none
  | cons first _ => exact .some first

end Alike

theorem useLeaves_list (isList : n.kind = "use_list") (enclosing : List String) :
    useLeaves cx enclosing n = n.namedChildren.flatMap (useLeaves cx enclosing) := by
  rw [useLeaves, if_neg (by simp [isList]), if_pos (by simp [isList]),
    List.flatMap_subtype fun _ _ => rfl, List.unattach_attach]

theorem useLeaves_scoped {list : Node} (isScoped : n.kind = "scoped_use_list")
    (found : n.field? "list" = some list) (enclosing : List String) :
    useLeaves cx enclosing n =
      useLeaves cx (enclosing ++ ((n.field? "path").map cx.text).toList) list := by
  rw [useLeaves, if_neg (by simp [isScoped]), if_neg (by simp [isScoped]),
    if_pos (by simp [isScoped])]
  split
  · next other read => cases found.symm.trans read; rfl
  · next absent => cases found.symm.trans absent

theorem flatMap_alike {nodes nodes' : List Node} {f f' : Node → List UseLeaf}
    (alike : List.Forall₂ (Alike cx cx') nodes nodes')
    (same : ∀ n ∈ nodes, ∀ n', Alike cx cx' n n' → f' n' = f n) :
    nodes'.flatMap f' = nodes.flatMap f := by
  induction alike with
  | nil => rfl
  | cons first _ ih =>
    obtain ⟨here, later⟩ := List.forall_mem_cons.mp same
    rw [List.flatMap_cons, List.flatMap_cons, here _ first, ih later]

theorem Alike.leaves (alike : Alike cx cx' n n') (enclosing : List String) :
    useLeaves cx' enclosing n' = useLeaves cx enclosing n := by
  fun_induction useLeaves cx enclosing n generalizing n' with
  | case1 enclosing n isClause =>
    have paths := Alike.texts (alike.field "path")
    rw [useLeaves, alike.kind, if_pos isClause, alike.fieldText]
    cases found : n.field? "path" <;> cases found' : n'.field? "path" <;> simp_all
  | case2 enclosing n notClause isList ih =>
    rw [useLeaves_list (alike.kind.trans (eq_of_beq isList)), List.flatMap_subtype fun _ _ => rfl,
      List.unattach_attach]
    exact flatMap_alike alike.named fun c member c' inner => ih c member inner
  | case3 enclosing n notClause notList isScoped list found ih =>
    have lists := alike.field "list"
    rw [found] at lists
    obtain ⟨list', found', inner⟩ : ∃ list', n'.field? "list" = some list' ∧
        Alike cx cx' list list' := by
      cases found' : n'.field? "list" <;> rw [found'] at lists <;> cases lists
      exact ⟨_, rfl, by assumption⟩
    rw [useLeaves_scoped (alike.kind.trans (eq_of_beq isScoped)) found',
      Alike.texts (alike.field "path")]
    exact ih inner
  | case4 enclosing n notClause notList isScoped absent =>
    have lists := alike.field "list"
    rw [absent] at lists
    rw [useLeaves, alike.kind, if_neg notClause, if_neg notList, if_pos isScoped]
    split
    · next list' found' => rw [found'] at lists; cases lists
    · rfl
  | case5 enclosing n notClause notList notScoped isWildcard =>
    rw [useLeaves, alike.kind, if_neg notClause, if_neg notList, if_neg notScoped,
      if_pos isWildcard, Alike.texts (Alike.head alike.named)]
  | case6 enclosing n notClause notList notScoped notWildcard isSelf =>
    rw [useLeaves, alike.kind, if_neg notClause, if_neg notList, if_neg notScoped,
      if_neg notWildcard, if_pos isSelf, alike.trimmed]
  | case7 enclosing n notClause notList notScoped notWildcard notSelf =>
    rw [useLeaves, alike.kind, if_neg notClause, if_neg notList, if_neg notScoped,
      if_neg notWildcard, if_neg notSelf, alike.trimmed]

theorem flatMap_leaves {nodes nodes' : List Node} (enclosing : List String)
    (alike : List.Forall₂ (Alike cx cx') nodes nodes') :
    nodes'.flatMap (useLeaves cx' enclosing) = nodes.flatMap (useLeaves cx enclosing) :=
  flatMap_alike alike fun _ _ _ inner => inner.leaves enclosing

-- A leaf of a use tree other than an alias and a wildcard: a name, a path, `crate`, `super` or
-- `self`.
def isPlainLeaf (n : Node) : Bool :=
  !(["use_as_clause", "use_list", "scoped_use_list", "use_wildcard"].contains n.kind)

-- The second tree is the first one with one leaf wrapped into a clause that gives it a name. All
-- else in the two is written alike.
inductive Renames (cx cx' : Context) (leaf : Node) (name : String) : Node → Node → Prop
  | here {clause path : Node} (plain : isPlainLeaf leaf) (isClause : clause.kind = "use_as_clause")
      (found : clause.field? "path" = some path) (alike : Alike cx cx' leaf path)
      (given : cx'.fieldText? clause "alias" = some name) : Renames cx cx' leaf name leaf clause
  | inList {n n' c c' : Node} {before before' after after' : List Node}
      (isList : n.kind = "use_list") (isList' : n'.kind = "use_list")
      (named : n.namedChildren = before ++ c :: after)
      (named' : n'.namedChildren = before' ++ c' :: after')
      (front : List.Forall₂ (Alike cx cx') before before')
      (behind : List.Forall₂ (Alike cx cx') after after')
      (inner : Renames cx cx' leaf name c c') : Renames cx cx' leaf name n n'
  | inScope {n n' list list' : Node}
      (isScoped : n.kind = "scoped_use_list") (isScoped' : n'.kind = "scoped_use_list")
      (path : Option.Rel (Alike cx cx') (n.field? "path") (n'.field? "path"))
      (found : n.field? "list" = some list) (found' : n'.field? "list" = some list')
      (inner : Renames cx cx' leaf name list list') : Renames cx cx' leaf name n n'

def plainLeaf (cx : Context) (enclosing : List String) (leaf : Node) : UseLeaf :=
  ⟨enclosing, some (cx.trimmed leaf), if leaf.kind == "self" then .enclosing else .path none⟩

def renamedLeaf (cx : Context) (enclosing : List String) (leaf : Node) (name : String) : UseLeaf :=
  ⟨enclosing, some (cx.text leaf), .path (some name)⟩

theorem useLeaves_plain (plain : isPlainLeaf leaf) (enclosing : List String) :
    useLeaves cx enclosing leaf = [plainLeaf cx enclosing leaf] := by
  simp only [isPlainLeaf, List.contains_cons, List.contains_nil, Bool.or_false, Bool.not_or,
    Bool.and_eq_true, Bool.not_eq_true'] at plain
  obtain ⟨notClause, notList, notScoped, notWildcard⟩ := plain
  rw [useLeaves, plainLeaf]
  simp only [notClause, notList, notScoped, notWildcard, Bool.false_eq_true, if_false]
  split <;> rfl

theorem useLeaves_clause {clause path : Node} (isClause : clause.kind = "use_as_clause")
    (found : clause.field? "path" = some path) (enclosing : List String) :
    useLeaves cx enclosing clause =
      [⟨enclosing, some (cx.text path), .path (cx.fieldText? clause "alias")⟩] := by
  rw [useLeaves, if_pos (by simp [isClause]), found]
  rfl

theorem renamed_leaves (renamed : Renames cx cx' leaf name n n') (enclosing : List String) :
    ∃ outer before after,
      useLeaves cx enclosing n = before ++ plainLeaf cx outer leaf :: after ∧
      useLeaves cx' enclosing n' = before ++ renamedLeaf cx outer leaf name :: after := by
  induction renamed generalizing enclosing with
  | here plain isClause found alike given =>
    refine ⟨enclosing, [], [], useLeaves_plain plain enclosing, ?_⟩
    rw [useLeaves_clause isClause found, alike.text, given]
    rfl
  | @inList _ _ _ _ front _ behind _ isList isList' named named' alike alike' _ ih =>
    obtain ⟨outer, before, after, read, read'⟩ := ih enclosing
    refine ⟨outer, front.flatMap (useLeaves cx enclosing) ++ before,
      after ++ behind.flatMap (useLeaves cx enclosing), ?_, ?_⟩
    · rw [useLeaves_list isList, named, List.flatMap_append, List.flatMap_cons, read]
      simp only [List.append_assoc, List.cons_append]
    · rw [useLeaves_list isList', named', List.flatMap_append, List.flatMap_cons, read',
        flatMap_leaves enclosing alike, flatMap_leaves enclosing alike']
      simp only [List.append_assoc, List.cons_append]
  | inScope isScoped isScoped' path found found' _ ih =>
    rw [useLeaves_scoped isScoped found, useLeaves_scoped isScoped' found', Alike.texts path]
    exact ih _

theorem joined_single (text : String) : joined [text] = text := joined_concat [] text

theorem join_inj {start a b : String} : join start a = join start b ↔ a = b := by
  unfold join
  split
  · rfl
  · rw [String.append_right_inj]

theorem join_adds {start text : String} : join start text = start ↔ start = "" ∧ text = "" := by
  unfold join
  split
  · next empty =>
    rw [String.isEmpty_iff.mp empty]
    exact (and_iff_right rfl).symm
  · next filled =>
    refine iff_of_false (fun same => ?_) fun empty => filled (String.isEmpty_iff.mpr empty.1)
    have size := congrArg String.length same
    have two : "::".length = 2 := rfl
    rw [String.length_append, String.length_append] at size
    omega

theorem usePaths_from (cx : Context) (start : String) (n : Node) :
    usePaths cx start n = (useLeaves cx [start] n).map UseLeaf.used := by
  have read := pathsOnStack_leaves cx [⟨[start], n⟩]
  rw [List.flatMap_singleton, List.map_singleton, UsePart.place, joined_single] at read
  exact read

theorem plainLeaf_used (enclosing : List String) (leaf : Node) :
    (plainLeaf cx enclosing leaf).used = ⟨(plainLeaf cx enclosing leaf).path, none, false⟩ := by
  unfold UseLeaf.used UseLeaf.localName? plainLeaf
  split <;> rfl

theorem plainLeaf_path (enclosing : List String) (leaf : Node) :
    (plainLeaf cx enclosing leaf).path =
      if leaf.kind = "self" then joined enclosing
      else join (joined enclosing) (cx.trimmed leaf) := by
  unfold UseLeaf.path UseLeaf.texts plainLeaf
  by_cases isSelf : leaf.kind = "self"
  · rw [if_pos (beq_iff_eq.mpr isSelf), if_pos isSelf]
  · rw [if_neg (mt beq_iff_eq.mp isSelf), if_neg isSelf]
    exact joined_concat enclosing (cx.trimmed leaf)

theorem renamedLeaf_path (enclosing : List String) (leaf : Node) (name : String) :
    (renamedLeaf cx enclosing leaf name).path = join (joined enclosing) (cx.text leaf) :=
  joined_concat enclosing (cx.text leaf)

theorem path_kept_iff (enclosing : List String) (leaf : Node) (name : String) :
    (renamedLeaf cx enclosing leaf name).path = (plainLeaf cx enclosing leaf).path ↔
      if leaf.kind = "self" then (plainLeaf cx enclosing leaf).path = "" ∧ cx.text leaf = ""
      else cx.trimmed leaf = cx.text leaf := by
  rw [renamedLeaf_path, plainLeaf_path]
  split
  · exact join_adds
  · exact join_inj.trans eq_comm

-- What the imports of a declaration say, but for the local names.

def importedNames (imports : List ImportDecl) : List (String × List (String × SpecifierKind)) :=
  imports.map fun i => (i.source, i.specifiers.map fun s => (s.imported, s.kind))

def importedName (entry : String × ImportSpecifier) : String × String × SpecifierKind :=
  (entry.1, entry.2.imported, entry.2.kind)

theorem SharedOut.importedNames {entries : List (String × ImportSpecifier)}
    {imports : List ImportDecl} (shared : SharedOut entries imports) :
    importedNames imports = (keys Prod.fst (entries.map importedName)).map fun source =>
      (source, (group Prod.fst (entries.map importedName) source).map Prod.snd) := by
  have sources : keys Prod.fst (entries.map importedName) = imports.map (·.source) := by
    rw [shared.sources, keys, keys, List.map_map]
    rfl
  rw [sources, List.map_map]
  refine List.map_congr_left fun i member => ?_
  simp only [Function.comp, shared.specifiers i member, group, List.filter_map, List.map_map]
  rfl

theorem useSpecifier_named (path name : String) :
    ∃ source imported, useSpecifier ⟨path, none, false⟩ = (source, ⟨imported, imported, .named⟩) ∧
      useSpecifier ⟨path, some name, false⟩ = (source, ⟨name, imported, .named⟩) :=
  ⟨_, _, rfl, rfl⟩

theorem leavesOf_argument {d : Node} (argument : d.field? "argument" = some n) :
    leavesOf cx d = useLeaves cx [] n := by
  rw [leavesOf, argument, Option.toList_some, List.flatMap_singleton]

-- A leaf that a clause gives a name keeps its path, unless it is `self`: its path is the one that
-- encloses it as long as it stands alone, and ends in `self` behind an `as`. Where the path is
-- kept, the imports differ in the local name of the leaf and in nothing else.
theorem renamed_path_kept_iff (renamed : Renames cx cx' leaf name n n') :
    (∀ start, ∃ before path path' after,
      usePaths cx start n = before ++ ⟨path, none, false⟩ :: after ∧
      usePaths cx' start n' = before ++ ⟨path', some name, false⟩ :: after ∧
      (path' = path ↔ if leaf.kind = "self" then path = "" ∧ cx.text leaf = ""
        else cx.trimmed leaf = cx.text leaf)) ∧
    (leaf.kind ≠ "self" → cx.trimmed leaf = cx.text leaf → ∀ d d' : Node,
      d.field? "argument" = some n → d'.field? "argument" = some n' →
      importedNames (importsOf cx' d') = importedNames (importsOf cx d) ∧
      ∃ before source imported after,
        SharedOut (before ++ (source, ⟨imported, imported, .named⟩) :: after) (importsOf cx d) ∧
        SharedOut (before ++ (source, ⟨name, imported, .named⟩) :: after)
          (importsOf cx' d')) := by
  constructor
  · intro start
    obtain ⟨outer, before, after, read, read'⟩ := renamed_leaves renamed [start]
    refine ⟨before.map UseLeaf.used, (plainLeaf cx outer leaf).path,
      (renamedLeaf cx outer leaf name).path, after.map UseLeaf.used, ?_, ?_,
      path_kept_iff outer leaf name⟩
    · rw [usePaths_from, read, List.map_append, List.map_cons, plainLeaf_used]
    · rw [usePaths_from, read', List.map_append, List.map_cons]
      rfl
  · intro other unblank d d' argument argument'
    obtain ⟨outer, before, after, read, read'⟩ := renamed_leaves renamed []
    let entry (l : UseLeaf) := useSpecifier l.used
    have kept := (path_kept_iff outer leaf name).mpr (by rwa [if_neg other])
    obtain ⟨source, imported, own, given⟩ :=
      useSpecifier_named (plainLeaf cx outer leaf).path name
    have own : entry (plainLeaf cx outer leaf) = (source, ⟨imported, imported, .named⟩) :=
      (congrArg useSpecifier (plainLeaf_used outer leaf)).trans own
    have given : entry (renamedLeaf cx outer leaf name) = (source, ⟨name, imported, .named⟩) :=
      (congrArg (fun path => useSpecifier ⟨path, some name, false⟩) kept).trans given
    have shared : SharedOut (before.map entry ++ (source, ⟨imported, imported, .named⟩) ::
        after.map entry) (importsOf cx d) := by
      rw [importsOf_leaves, leavesOf_argument argument, read, List.map_append, List.map_cons, ← own]
      exact shared_out _ _
    have shared' : SharedOut (before.map entry ++ (source, ⟨name, imported, .named⟩) ::
        after.map entry) (importsOf cx' d') := by
      rw [importsOf_leaves, leavesOf_argument argument', read', List.map_append, List.map_cons,
        ← given]
      exact shared_out _ _
    refine ⟨?_, _, source, imported, _, shared, shared'⟩
    rw [shared.importedNames, shared'.importedNames]
    simp only [List.map_append, List.map_cons, importedName]

-- `use a::` with a list in braces, of which the closing one stands at an offset.
def useOf (items : List Tree) (close : Nat) : Tree :=
  .whole "use_declaration" 0 (close + 2) none [
    .token "use" 0,
    .whole "scoped_use_list" 4 (close + 1) (some "argument") [
      .whole "identifier" 4 5 (some "path") [],
      .token "::" 5,
      .whole "use_list" 7 (close + 1) (some "list")
        (.token "\x7b" 7 :: items ++ [.token "\x7d" close])],
    .token ";" (close + 1)]

def nodeAt (t : Tree) (path : List Nat) : Node := (Node.descend path (.root t)).getD (.root t)

def nameAfterName : Tree := useOf [
  .whole "identifier" 8 9 none [],
  .token "," 9,
  .whole "identifier" 11 12 none []] 12

def clauseAfterName : Tree := useOf [
  .whole "identifier" 8 9 none [],
  .token "," 9,
  .whole "use_as_clause" 11 17 none [
    .whole "identifier" 11 12 (some "path") [],
    .token "as" 13,
    .whole "identifier" 16 17 (some "alias") []]] 17

theorem second_name_keeps_path :
    let cx : Context := ⟨"use a::\x7bb, c\x7d;\n", "m.rs", .rust, {}⟩
    let cx' : Context := ⟨"use a::\x7bb, c as d\x7d;\n", "m.rs", .rust, {}⟩
    let n := nodeAt nameAfterName [1]
    let n' := nodeAt clauseAfterName [1]
    let leaf := nodeAt nameAfterName [1, 2, 3]
    Renames cx cx' leaf "d" n n' ∧ leaf.kind ≠ "self" ∧ cx.trimmed leaf = cx.text leaf ∧
      (Node.root nameAfterName).field? "argument" = some n ∧
      (Node.root clauseAfterName).field? "argument" = some n' ∧
      usePaths cx "" n = [⟨"a::b", none, false⟩, ⟨"a::c", none, false⟩] ∧
      usePaths cx' "" n' = [⟨"a::b", none, false⟩, ⟨"a::c", some "d", false⟩] ∧
      importedNames (importsOf cx (.root nameAfterName)) = [("a", [("b", .named), ("c", .named)])] ∧
      importedNames (importsOf cx' (.root clauseAfterName)) =
        [("a", [("b", .named), ("c", .named)])] := by
  intro cx cx' n n' leaf
  have items : (nodeAt nameAfterName [1, 2]).namedChildren =
      [nodeAt nameAfterName [1, 2, 1]] ++ leaf :: [] := rfl
  have items' : (nodeAt clauseAfterName [1, 2]).namedChildren =
      [nodeAt clauseAfterName [1, 2, 1]] ++ nodeAt clauseAfterName [1, 2, 3] :: [] := rfl
  have renamed : Renames cx cx' leaf "d" n n' := by
    refine .inScope rfl rfl (.some (.childless rfl ?_ rfl rfl rfl rfl)) rfl rfl
      (.inList rfl rfl items items' (.cons (.childless rfl ?_ rfl rfl rfl rfl) .nil) .nil
        (.here rfl rfl rfl (.childless rfl ?_ rfl rfl rfl rfl) ?_))
    · decide +kernel
    · decide +kernel
    · decide +kernel
    · decide +kernel
  have other : leaf.kind ≠ "self" := by decide +kernel
  have unblank : cx.trimmed leaf = cx.text leaf := by decide +kernel
  have before : importedNames (importsOf cx (.root nameAfterName)) =
      [("a", [("b", .named), ("c", .named)])] := by decide +kernel
  have kept := (renamed_path_kept_iff renamed).2 other unblank (.root nameAfterName)
    (.root clauseAfterName) rfl rfl
  refine ⟨renamed, other, unblank, rfl, rfl, ?_, ?_, before, kept.1.trans before⟩
  · decide +kernel
  · decide +kernel

def selfAlone : Tree := useOf [.whole "self" 8 12 none []] 12

def selfInClause : Tree := useOf [
  .whole "use_as_clause" 8 17 none [
    .whole "self" 8 12 (some "path") [],
    .token "as" 13,
    .whole "identifier" 16 17 (some "alias") []]] 17

-- `self` stands for the module that encloses it; with a name given to it, it is looked for in
-- this module.
theorem renamed_self_changes_path :
    let cx : Context := ⟨"use a::\x7bself\x7d;\n", "m.rs", .rust, {}⟩
    let cx' : Context := ⟨"use a::\x7bself as b\x7d;\n", "m.rs", .rust, {}⟩
    let n := nodeAt selfAlone [1]
    let n' := nodeAt selfInClause [1]
    Renames cx cx' (nodeAt selfAlone [1, 2, 1]) "b" n n' ∧
      usePaths cx "" n = [⟨"a", none, false⟩] ∧
      usePaths cx' "" n' = [⟨"a::self", some "b", false⟩] ∧
      importedNames (importsOf cx (.root selfAlone)) = [("a", [("a", .named)])] ∧
      importedNames (importsOf cx' (.root selfInClause)) = [("a", [("self", .named)])] := by
  intro cx cx' n n'
  have items : (nodeAt selfAlone [1, 2]).namedChildren =
      [] ++ nodeAt selfAlone [1, 2, 1] :: [] := rfl
  have items' : (nodeAt selfInClause [1, 2]).namedChildren =
      [] ++ nodeAt selfInClause [1, 2, 1] :: [] := rfl
  refine ⟨?_, ?_⟩
  · refine .inScope rfl rfl (.some (.childless rfl ?_ rfl rfl rfl rfl)) rfl rfl
      (.inList rfl rfl items items' .nil .nil
        (.here rfl rfl rfl (.childless rfl ?_ rfl rfl rfl rfl) ?_))
    · decide +kernel
    · decide +kernel
    · decide +kernel
  · decide +kernel

end CodeEntities.Rust
