import CodeEntities.Proofs.Rules.Grouped
import CodeEntities.Proofs.Text.Split
import CodeEntities.Rules.Rust
import Mathlib.Data.List.Forall2

namespace CodeEntities.Rust

open Grouped (keys group)
open Text (CutsLast IsPiece)

-- What a leaf of a use tree stands for: its own path, the path that encloses it, or all names.
inductive LeafForm where
  | path (localName : Option String)
  | enclosing
  | all
  deriving DecidableEq

structure UseLeaf where
  enclosing : List String
  own : Option String
  form : LeafForm

def useLeaves (cx : Context) (enclosing : List String) (n : Node) : List UseLeaf :=
  if n.kind == "use_as_clause" then
    (n.field? "path").toList.map fun path =>
      ⟨enclosing, some (cx.text path), .path (cx.fieldText? n "alias")⟩
  else if n.kind == "use_list" then
    n.namedChildren.attach.flatMap fun ⟨c, _⟩ => useLeaves cx enclosing c
  else if n.kind == "scoped_use_list" then
    match _found : n.field? "list" with
    | some list => useLeaves cx (enclosing ++ ((n.field? "path").map cx.text).toList) list
    | none => []
  else if n.kind == "use_wildcard" then [⟨enclosing, n.namedChildren.head?.map cx.text, .all⟩]
  else if n.kind == "self" then [⟨enclosing, some (cx.trimmed n), .enclosing⟩]
  else [⟨enclosing, some (cx.trimmed n), .path none⟩]
termination_by n.size
decreasing_by
  · exact Node.size_child (List.mem_filter.mp (by assumption)).1
  · exact Node.size_field (by assumption)

def leavesOf (cx : Context) (n : Node) : List UseLeaf :=
  (n.field? "argument").toList.flatMap (useLeaves cx [])

-- Texts as one path. Empty ones in front are no part of it.
def joined (texts : List String) : String := Text.join "::" (texts.dropWhile String.isEmpty)

theorem join_filled {first : String} (filled : first ≠ "") (rest : List String) :
    Text.join "::" (first :: rest) ≠ "" := by
  cases rest with
  | nil => rwa [Text.join, String.intercalate_singleton]
  | cons second rest =>
    rw [Text.join, String.intercalate_cons_cons]
    simp [filled]

theorem joined_concat (texts : List String) (text : String) :
    joined (texts ++ [text]) = join (joined texts) text := by
  unfold joined join
  rw [List.dropWhile_append]
  cases kept : texts.dropWhile String.isEmpty with
  | nil =>
    by_cases empty : text = ""
    · subst empty
      rfl
    · have whole : [text].dropWhile String.isEmpty = [text] := by simp [empty]
      simp [whole, Text.join]
  | cons first rest =>
    have filled : first ≠ "" := by
      have head := List.head_dropWhile_not String.isEmpty (kept ▸ List.cons_ne_nil first rest)
      simpa [kept] using head
    rw [if_neg (by simp), if_neg (by simpa using join_filled filled rest)]
    exact (String.intercalate_append_of_ne_nil (List.cons_ne_nil _ _) (List.cons_ne_nil _ _)).trans
      (congrArg _ String.intercalate_singleton)

namespace UseLeaf

def texts (l : UseLeaf) : List String :=
  match l.form with
  | .enclosing => l.enclosing
  | .path _ | .all => l.enclosing ++ l.own.toList

def path (l : UseLeaf) : String := joined l.texts

def localName? (l : UseLeaf) : Option String :=
  match l.form with
  | .path localName => localName
  | .enclosing | .all => none

def used (l : UseLeaf) : UsePath := ⟨l.path, l.localName?, l.form == .all⟩

end UseLeaf

structure UsePart where
  enclosing : List String
  node : Node

def UsePart.place (part : UsePart) : UsePlace := ⟨joined part.enclosing, part.node⟩

def UsePart.leaves (cx : Context) (part : UsePart) : List UseLeaf :=
  useLeaves cx part.enclosing part.node

-- One step reads a leaf, or puts parts in the place of a node that have its leaves.
theorem useStep_leaves (cx : Context) (enclosing : List String) (n : Node) :
    (∃ leaf : UseLeaf, useStep cx ⟨joined enclosing, n⟩ = .leaf leaf.used ∧
        useLeaves cx enclosing n = [leaf]) ∨
      ∃ parts : List UsePart, useStep cx ⟨joined enclosing, n⟩ = .below (parts.map UsePart.place) ∧
        useLeaves cx enclosing n = parts.flatMap (UsePart.leaves cx) := by
  simp only [useStep, ← joined_concat]
  rw [useLeaves]
  split
  · cases n.field? "path" with
    | none => exact .inr ⟨[], rfl, rfl⟩
    | some path => exact .inl ⟨⟨enclosing, some (cx.text path), .path _⟩, rfl, rfl⟩
  split
  · refine .inr ⟨n.namedChildren.map (⟨enclosing, ·⟩), ?_, ?_⟩
    · rw [List.map_map]
      rfl
    · rw [List.flatMap_map, List.flatMap_subtype fun _ _ => rfl, List.unattach_attach]
      rfl
  split
  · refine .inr ⟨(n.field? "list").toList.map
      (⟨enclosing ++ ((n.field? "path").map cx.text).toList, ·⟩), ?_, ?_⟩
    · rw [List.map_map]
      cases n.field? "path" with
      | none => simp [Function.comp_def, UsePart.place]
      | some path => rfl
    · split
      · next list found => simp [found, UsePart.leaves]
      · next absent => rw [absent]; rfl
  split
  · refine .inl ⟨⟨enclosing, n.namedChildren.head?.map cx.text, .all⟩, ?_, rfl⟩
    cases found : n.namedChildren.head? with
    | none => simp [UseLeaf.used, UseLeaf.path, UseLeaf.texts, UseLeaf.localName?]
    | some path => rfl
  split
  · exact .inl ⟨⟨enclosing, some (cx.trimmed n), .enclosing⟩, rfl, rfl⟩
  · exact .inl ⟨⟨enclosing, some (cx.trimmed n), .path none⟩, rfl, rfl⟩

theorem pathsOnStack_leaves (cx : Context) (parts : List UsePart) :
    pathsOnStack cx (parts.map UsePart.place) =
      (parts.flatMap (UsePart.leaves cx)).map UseLeaf.used := by
  -- The recursion goes over a stack of places; that they are places of parts is carried along.
  generalize same : parts.map UsePart.place = stack
  fun_induction pathsOnStack cx stack generalizing parts with
  | case1 =>
    rw [List.map_eq_nil_iff.mp same]
    rfl
  | case2 place stack used read ih =>
    obtain ⟨part, rest, rfl, rfl, rfl⟩ := List.map_eq_cons_iff.mp same
    rcases useStep_leaves cx part.enclosing part.node with ⟨leaf, step, single⟩ | ⟨_, step, _⟩
    · cases read.symm.trans step
      rw [ih rest rfl, List.flatMap_cons, UsePart.leaves, single, List.singleton_append,
        List.map_cons]
    · cases read.symm.trans step
  | case3 place stack places read ih =>
    obtain ⟨part, rest, rfl, rfl, rfl⟩ := List.map_eq_cons_iff.mp same
    rcases useStep_leaves cx part.enclosing part.node with ⟨_, step, _⟩ | ⟨below, step, own⟩
    · cases read.symm.trans step
    · cases read.symm.trans step
      rw [ih (below ++ rest) List.map_append, List.flatMap_append, List.flatMap_cons,
        UsePart.leaves, own]

theorem usePaths_leaves (cx : Context) (n : Node) :
    usePaths cx "" n = (useLeaves cx [] n).map UseLeaf.used := by
  have read := pathsOnStack_leaves cx [⟨[], n⟩]
  rwa [List.flatMap_singleton] at read

-- How a path is cut into the source of an import and the name that is imported from it.
inductive PathCut (path : String) : String → String → Prop
  | whole (single : ¬ IsPiece "::" path) : PathCut path path path
  | front {last : String} (cut : CutsLast "::".toList path.toList [] last.toList) :
      PathCut path path last
  | last {source last : String} (filled : source ≠ "")
      (cut : CutsLast "::".toList path.toList source.toList last.toList) : PathCut path source last

inductive UseLeaf.ImportedAs (l : UseLeaf) : String × ImportSpecifier → Prop
  | named {source imported : String} (named : l.form ≠ .all)
      (cut : PathCut l.path source imported) :
      ImportedAs l (source, ⟨l.localName?.getD imported, imported, .named⟩)
  | all (all : l.form = .all) : ImportedAs l (l.path, ⟨"*", "*", .wholeModule⟩)

theorem useSpecifier_importedAs (l : UseLeaf) : l.ImportedAs (useSpecifier l.used) := by
  unfold useSpecifier
  by_cases all : l.form = .all
  · rw [if_pos (by simpa [UseLeaf.used] using all)]
    exact .all all
  · rw [if_neg (by simpa [UseLeaf.used] using all)]
    have path : l.used.path = l.path := rfl
    rw [path]
    cases found : Text.cutLast? l.path "::" with
    | none =>
      exact .named all (.whole (Text.cutLast_none.mp found))
    | some parts =>
      obtain ⟨source, last⟩ := parts
      have cut := Text.cutLast_some found
      dsimp only [Option.getD_some]
      by_cases front : source = ""
      · rw [if_pos (by simpa using front)]
        rw [front] at cut
        exact .named all (.front cut)
      · rw [if_neg (by simpa using front)]
        exact .named all (.last front cut)

-- The entries under one import for each source, in the order in which the sources come first.
structure SharedOut (entries : List (String × ImportSpecifier)) (imports : List ImportDecl) :
    Prop where
  sources : imports.map (·.source) = keys Prod.fst entries
  specifiers : ∀ i ∈ imports, i.specifiers = (group Prod.fst entries i.source).map Prod.snd

theorem addSpecifier_sources (place : Location) (imports : List ImportDecl)
    (entry : String × ImportSpecifier) :
    (addSpecifier place imports entry).map (·.source) =
      if entry.1 ∈ imports.map (·.source) then imports.map (·.source)
      else imports.map (·.source) ++ [entry.1] := by
  induction imports with
  | nil => rfl
  | cons i rest ih =>
    unfold addSpecifier
    by_cases own : i.source = entry.1
    · rw [if_pos (beq_iff_eq.mpr own), if_pos (by simp [own])]
      rfl
    · rw [if_neg (by simpa using own), List.map_cons, ih]
      have other : ¬ entry.1 = i.source := fun same => own same.symm
      simp only [List.map_cons, List.mem_cons, other, false_or]
      split <;> simp

theorem addSpecifier_specifiers {place : Location} {imports : List ImportDecl}
    {entry : String × ImportSpecifier} {before : String → List ImportSpecifier}
    (apart : (imports.map (·.source)).Nodup)
    (each : ∀ i ∈ imports, i.specifiers = before i.source)
    (fresh : entry.1 ∉ imports.map (·.source) → before entry.1 = []) :
    ∀ i ∈ addSpecifier place imports entry,
      i.specifiers = before i.source ++ if entry.1 = i.source then [entry.2] else [] := by
  induction imports with
  | nil =>
    intro i member
    rw [List.mem_singleton.mp member]
    simp [fresh]
  | cons first rest ih =>
    obtain ⟨here, later⟩ := List.forall_mem_cons.mp each
    obtain ⟨missing, apart⟩ := List.nodup_cons.mp apart
    unfold addSpecifier
    by_cases own : first.source = entry.1
    · rw [if_pos (beq_iff_eq.mpr own)]
      refine List.forall_mem_cons.mpr ⟨by simp [here, own], fun i member => ?_⟩
      have other : ¬ entry.1 = i.source := fun same =>
        missing (List.mem_map.mpr ⟨i, member, same.symm.trans own.symm⟩)
      rw [if_neg other, List.append_nil, later i member]
    · rw [if_neg (by simpa using own)]
      have other : ¬ entry.1 = first.source := fun same => own same.symm
      refine List.forall_mem_cons.mpr ⟨by simp [here, other], ih apart later fun missing => ?_⟩
      exact fresh (by simpa [other] using missing)

theorem addSpecifier_shares {place : Location} {imports : List ImportDecl}
    {entries : List (String × ImportSpecifier)} (shared : SharedOut entries imports)
    (entry : String × ImportSpecifier) :
    SharedOut (entries ++ [entry]) (addSpecifier place imports entry) := by
  obtain ⟨sources, specifiers⟩ := shared
  refine ⟨by rw [addSpecifier_sources, Grouped.keys_concat, sources], fun i member => ?_⟩
  have apart : (imports.map (·.source)).Nodup := sources ▸ Grouped.keys_nodup ..
  let before (source : String) := (group Prod.fst entries source).map Prod.snd
  have fresh (missing : entry.1 ∉ imports.map (·.source)) : before entry.1 = [] :=
    congrArg _ (Grouped.group_empty (sources ▸ missing))
  have specifiers : ∀ i ∈ imports, i.specifiers = before i.source := specifiers
  rw [addSpecifier_specifiers apart specifiers fresh i member]
  split
  · next own => rw [← own, Grouped.group_own, List.map_append, List.map_singleton]
  · next other => rw [Grouped.group_other other, List.append_nil]

theorem shared_out (place : Location) (entries : List (String × ImportSpecifier)) :
    SharedOut entries (entries.foldl (addSpecifier place) []) := by
  induction entries using List.reverseRecOn with
  | nil => exact ⟨rfl, List.forall_mem_nil _⟩
  | append_singleton entries entry ih =>
    rw [List.foldl_append]
    exact addSpecifier_shares ih entry

theorem SharedOut.perm {entries : List (String × ImportSpecifier)} {imports : List ImportDecl}
    (shared : SharedOut entries imports) :
    (imports.flatMap (·.specifiers)).Perm (entries.map Prod.snd) := by
  rw [List.flatMap_congr shared.specifiers, ← List.map_flatMap]
  exact (Grouped.shared_perm shared.sources).map Prod.snd

theorem importsOf_leaves (cx : Context) (n : Node) :
    importsOf cx n = ((leavesOf cx n).map fun l => useSpecifier l.used).foldl
      (addSpecifier (cx.location n)) [] := by
  unfold importsOf leavesOf
  cases n.field? "argument" with
  | none => rfl
  | some argument =>
    rw [Option.toList_some, List.flatMap_singleton]
    simp only [usePaths_leaves, List.map_map, Function.comp_def]

-- Every leaf of a use tree is imported once, as one entry, and the entries stand in the order of
-- the leaves under one import for each source.
theorem use_trees_flattened (cx : Context) (n : Node) :
    ∃ entries, List.Forall₂ UseLeaf.ImportedAs (leavesOf cx n) entries ∧
      ((importsOf cx n).flatMap (·.specifiers)).Perm (entries.map Prod.snd) ∧
      ((importsOf cx n).map (·.source)).Nodup ∧ SharedOut entries (importsOf cx n) := by
  let entries := (leavesOf cx n).map fun l => useSpecifier l.used
  have shared : SharedOut entries (importsOf cx n) := importsOf_leaves cx n ▸ shared_out _ entries
  refine ⟨entries, ?_, shared.perm, shared.sources ▸ Grouped.keys_nodup .., shared⟩
  exact List.forall₂_map_right_iff.mpr (List.forall₂_same.mpr fun l _ => useSpecifier_importedAs l)

def frontAndSelf : Tree :=
  .whole "use_declaration" 0 21 none [
    .token "use" 0,
    .whole "use_list" 4 20 (some "argument") [
      .token "\x7b" 4,
      .whole "scoped_identifier" 5 8 none [
        .token "::" 5,
        .whole "identifier" 7 8 (some "name") []],
      .token "," 8,
      .whole "scoped_use_list" 10 19 none [
        .whole "identifier" 10 11 (some "path") [],
        .token "::" 11,
        .whole "use_list" 13 19 (some "list") [
          .token "\x7b" 13,
          .whole "self" 14 18 none [],
          .token "\x7d" 18]],
      .token "\x7d" 19],
    .token ";" 20]

-- The first path has nothing before its last `::`, and `self` is no name behind one: neither is
-- imported as a whole or as what stands before its last `::` and behind it.
theorem front_and_self_not_cut_at_last :
    let cx : Context := ⟨"use \x7b::f, a::\x7bself\x7d\x7d;\n", "m.rs", .rust, {}⟩
    let n : Node := .root frontAndSelf
    (leavesOf cx n).map (fun l => joined (l.enclosing ++ l.own.toList)) = ["::f", "a::self"] ∧
      ∀ l ∈ leavesOf cx n, l.form ≠ .all ∧
        ∀ i ∈ importsOf cx n, ∀ s ∈ i.specifiers,
          let path := joined (l.enclosing ++ l.own.toList)
          ¬(i.source = path ∧ s.imported = path) ∧ i.source ++ "::" ++ s.imported ≠ path := by
  decide +kernel

end CodeEntities.Rust
