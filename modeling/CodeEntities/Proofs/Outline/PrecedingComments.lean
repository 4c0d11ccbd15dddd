import CodeEntities.Extract.Documentation
import CodeEntities.Proofs.Text.BareComments
import CodeEntities.Proofs.Text.Position
import CodeEntities.Proofs.Tree.Siblings
import Mathlib.Data.List.Chain

namespace CodeEntities.Node

open Text (cleanComment isBlockComment blockComment isBlank isFiller lineChars SilentLine)

def isWrapper (n : Node) : Bool := anchorWrappers.contains n.kind

def isAttribute (n : Node) : Bool := attributeKinds.contains n.kind

inductive ClimbsTo : Node → Node → Prop where
  | stays {n : Node} (free : ∀ p, n.parent? = some p → p.isWrapper = false) : ClimbsTo n n
  | climbs {n p a : Node} (up : n.parent? = some p) (wraps : p.isWrapper = true)
      (more : ClimbsTo p a) : ClimbsTo n a

structure NearestBefore (a : Node) (skipped : List Node) (p : Node) : Prop where
  attributes : ∀ q ∈ skipped, q.isAttribute = true
  siblings : skipped ++ [p] <+: a.earlierSiblings
  other : p.isAttribute = false

def openingRow (source : String) (a : Node) (skipped : List Node) : Nat :=
  ((skipped.getLast?.getD a).startPosition source).row

def IsNearest (p n : Node) : Prop := ∃ a skipped, ClimbsTo n a ∧ NearestBefore a skipped p

-- The nearest sibling is a comment that trails no code and leaves no blank row below.
structure MayDocument (trails : Node → Prop) (source : String) (p n : Node) : Prop where
  reaches : ∃ a skipped, ClimbsTo n a ∧ NearestBefore a skipped p ∧
    openingRow source a skipped ≤ p.lastRow source + 1
  comment : p.isComment = true
  apart : ¬ trails p

structure Adjoins (source : String) (below above : Node) : Prop where
  comment : above.isComment = true
  line : isBlockComment (above.commentText source) = false
  dense : (below.startPosition source).row ≤ above.lastRow source + 1

-- The longest run of line comments from a comment upwards none of which trails code, nearest first.
structure LongestRun (trails : Node → Prop) (source : String) (p : Node) (above : List Node) :
    Prop where
  siblings : above <+: p.earlierSiblings
  linked : (p :: above).IsChain (Adjoins source)
  apart : ∀ q ∈ above, ¬ trails q
  maximal : ∀ last q, (p :: above).getLast? = some last → above ++ [q] <+: p.earlierSiblings →
    Adjoins source last q → trails q

inductive ReadsWith (trails : Node → Prop) (source : String) (p : Node) : List Node → Prop where
  | block (block : isBlockComment (p.commentText source) = true) : ReadsWith trails source p []
  | lines {above : List Node} (line : isBlockComment (p.commentText source) = false)
      (run : LongestRun trails source p above) : ReadsWith trails source p above

def runText (source : String) (run : List Node) : String :=
  Text.join "\n" (run.reverse.map (commentText source))

variable {source : String} {n a p q c : Node} {skipped above siblings : List Node}
  {trails : Node → Prop} {doc body : String}

theorem anchor_eq (n : Node) : n.anchor =
    (n.parent?.map fun p => if p.isWrapper then p.anchor else n).getD n := by
  have last (m : Node) : m.anchor = ((m.ancestors.takeWhile isWrapper).getLast?).getD m := rfl
  rw [last, ancestors_eq]
  cases n.parent? with
  | none => rfl
  | some p =>
    simp only [Option.map_some, Option.getD_some, List.takeWhile_cons]
    by_cases wraps : p.isWrapper = true
    · rw [if_pos wraps, if_pos wraps, List.getLast?_cons, Option.getD_some, last]
    · rw [if_neg wraps, if_neg wraps]
      rfl

theorem climbsTo_anchor (n : Node) : ClimbsTo n n.anchor := by
  obtain ⟨focus, frames⟩ := n
  induction frames generalizing focus with
  | nil => exact .stays fun p up => nomatch up
  | cons frame frames ih =>
    rw [anchor_eq]
    simp only [parent?, Option.map_some, Option.getD_some]
    split
    · next wraps => exact .climbs rfl wraps (ih (frame.plug focus))
    · next free =>
      refine .stays fun p up => ?_
      cases up
      exact Bool.eq_false_iff.mpr free

theorem ClimbsTo.eq_anchor (climb : ClimbsTo n a) : a = n.anchor := by
  induction climb with
  | @stays n free =>
    rw [anchor_eq]
    cases up : n.parent? with
    | none => rfl
    | some p => simp [free p up]
  | climbs up wraps more ih =>
    rw [anchor_eq, up, ih]
    simp [wraps]

theorem nearestBefore_iff : NearestBefore a skipped p ↔
    skipped = a.earlierSiblings.takeWhile isAttribute ∧
      (a.earlierSiblings.dropWhile isAttribute).head? = some p := by
  constructor
  · rintro ⟨attributes, ⟨rest, siblings⟩, other⟩
    rw [← siblings, List.append_assoc, List.takeWhile_append_of_pos attributes,
      List.dropWhile_append_of_pos attributes]
    simp [other]
  · rintro ⟨rfl, first⟩
    obtain ⟨rest, behind⟩ := List.head?_eq_some_iff.mp first
    refine ⟨fun q => List.mem_takeWhile_imp, ⟨rest, ?_⟩, ?_⟩
    · rw [List.append_assoc, List.singleton_append, ← behind, List.takeWhile_append_dropWhile]
    · have visible := List.head_dropWhile_not isAttribute (l := a.earlierSiblings) (by simp [behind])
      simpa [behind] using visible

def readComments (source : String) (p : Node) : List Node :=
  if isBlockComment (p.commentText source) then [p]
  else p :: commentRun source p p.earlierSiblings

theorem precedingComment_near (near : NearestBefore n.anchor skipped p) :
    n.precedingComment source =
      if !p.isComment || p.lastRow source + 1 < openingRow source n.anchor skipped ||
          p.isTrailingComment source then none
      else if (cleanComment (runText source (readComments source p))).isEmpty then none
      else some (cleanComment (runText source (readComments source p))) := by
  obtain ⟨rfl, first⟩ := nearestBefore_iff.mp near
  have found : (n.anchor.earlierSiblings.dropWhile
      fun p => attributeKinds.contains p.kind).head? = some p := first
  simp only [precedingComment, found, Option.bind_eq_bind, Option.bind_some]
  rfl

theorem precedingComment_far (passed : n.anchor.earlierSiblings.dropWhile isAttribute = []) :
    n.precedingComment source = none := by
  have found : n.anchor.earlierSiblings.dropWhile
      (fun p => attributeKinds.contains p.kind) = [] := passed
  simp only [precedingComment, found, Option.bind_eq_bind]
  rfl

-- The code calls a comment trailing if a sibling right before it that is no comment ends on its
-- first row.
def FollowsCode (source : String) (q : Node) : Prop := q.isTrailingComment source = true

theorem followsCode_iff : FollowsCode source q ↔ ∃ p, q.previousSibling? = some p ∧
    p.isComment = false ∧ (p.endPosition source).row = (q.startPosition source).row := by
  rw [FollowsCode, isTrailingComment]
  cases q.previousSibling? with
  | none => simp
  | some p => simp

instance (source : String) (q : Node) : Decidable (FollowsCode source q) :=
  inferInstanceAs (Decidable (q.isTrailingComment source = true))

instance (source : String) (p q : Node) : Decidable (Adjoins source p q) :=
  decidable_of_iff
    (q.isComment = true ∧ isBlockComment (q.commentText source) = false ∧
      (p.startPosition source).row ≤ q.lastRow source + 1)
    ⟨fun ⟨comment, line, dense⟩ => ⟨comment, line, dense⟩,
      fun ⟨comment, line, dense⟩ => ⟨comment, line, dense⟩⟩

theorem commentRun_cons (p q : Node) (siblings : List Node) :
    commentRun source p (q :: siblings) =
      if Adjoins source p q ∧ ¬ FollowsCode source q then q :: commentRun source q siblings
      else [] := by
  have stops : (!q.isComment || q.isTrailingComment source ||
      q.lastRow source + 1 < (p.startPosition source).row ||
      isBlockComment (q.commentText source)) = true ↔
        ¬ (Adjoins source p q ∧ ¬ FollowsCode source q) := by
    have fields : Adjoins source p q ↔ q.isComment = true ∧
        isBlockComment (q.commentText source) = false ∧
        (p.startPosition source).row ≤ q.lastRow source + 1 :=
      ⟨fun ⟨comment, line, dense⟩ => ⟨comment, line, dense⟩,
        fun ⟨comment, line, dense⟩ => ⟨comment, line, dense⟩⟩
    rw [fields, FollowsCode, ← Nat.not_lt]
    cases q.isComment <;> cases isBlockComment (q.commentText source) <;>
      cases q.isTrailingComment source <;> simp
  rw [commentRun]
  by_cases joins : Adjoins source p q ∧ ¬ FollowsCode source q
  · rw [if_pos joins, if_neg (mt stops.mp (not_not_intro joins))]
  · rw [if_neg joins, if_pos (stops.mpr joins)]

theorem commentRun_prefix (p : Node) (siblings : List Node) :
    commentRun source p siblings <+: siblings := by
  induction siblings generalizing p with
  | nil => exact List.prefix_rfl
  | cons q siblings ih =>
    rw [commentRun_cons]
    split
    · exact List.cons_prefix_cons.mpr ⟨rfl, ih q⟩
    · exact List.nil_prefix

theorem commentRun_linked (p : Node) (siblings : List Node) :
    (p :: commentRun source p siblings).IsChain (Adjoins source) ∧
      ∀ q ∈ commentRun source p siblings, ¬ FollowsCode source q := by
  induction siblings generalizing p with
  | nil => exact ⟨.singleton p, fun q member => nomatch member⟩
  | cons q siblings ih =>
    rw [commentRun_cons]
    split
    · next joins =>
      obtain ⟨linked, apart⟩ := ih q
      exact ⟨linked.cons_cons joins.1, List.forall_mem_cons.mpr ⟨joins.2, apart⟩⟩
    · exact ⟨.singleton p, fun q member => nomatch member⟩

theorem commentRun_maximal {last : Node} (p : Node) (siblings : List Node)
    (ends : (p :: commentRun source p siblings).getLast? = some last)
    (next : commentRun source p siblings ++ [c] <+: siblings) (adjoins : Adjoins source last c) :
    FollowsCode source c := by
  induction siblings generalizing p with
  | nil => exact absurd next.length_le (by simp [commentRun])
  | cons q siblings ih =>
    rw [commentRun_cons] at ends next
    split at ends
    · next joins =>
      rw [if_pos joins] at next
      exact ih q (by rwa [List.getLast?_cons_cons] at ends) (List.cons_prefix_cons.mp next).2
    · next stops =>
      rw [if_neg stops] at next
      cases ends
      cases (List.cons_prefix_cons.mp next).1
      by_contra free
      exact stops ⟨adjoins, free⟩

theorem commentRun_longest (source : String) (p : Node) :
    LongestRun (FollowsCode source) source p (commentRun source p p.earlierSiblings) where
  siblings := commentRun_prefix p _
  linked := (commentRun_linked p _).1
  apart := (commentRun_linked p _).2
  maximal _ _ := commentRun_maximal p _

theorem LongestRun.not_shorter {others : List Node} (one : LongestRun trails source p above)
    (two : LongestRun trails source p (above ++ q :: others)) : False := by
  obtain ⟨last, ends⟩ : ∃ last, (p :: above).getLast? = some last :=
    ⟨_, List.getLast?_eq_some_getLast (List.cons_ne_nil p above)⟩
  have next : above ++ [q] <+: p.earlierSiblings := by
    refine List.IsPrefix.trans ?_ two.siblings
    exact (List.prefix_append_right_inj above).mpr (List.cons_prefix_cons.mpr ⟨rfl, List.nil_prefix⟩)
  have adjoins : Adjoins source last q := by
    have linked := two.linked
    rw [← List.cons_append, List.isChain_append] at linked
    exact linked.2.2 last ends q rfl
  have apart : ¬ trails q := two.apart q (List.mem_append_right _ (List.mem_cons_self ..))
  exact apart (one.maximal last q ends next adjoins)

theorem LongestRun.unique {others : List Node} (one : LongestRun trails source p above)
    (two : LongestRun trails source p others) : above = others := by
  rcases List.prefix_or_prefix_of_prefix one.siblings two.siblings with ⟨rest, rfl⟩ | ⟨rest, rfl⟩
  · cases rest with
    | nil => rw [List.append_nil]
    | cons q rest => exact (one.not_shorter two).elim
  · cases rest with
    | nil => rw [List.append_nil]
    | cons q rest => exact (two.not_shorter one).elim

theorem ReadsWith.unique {others : List Node} (one : ReadsWith trails source p above)
    (two : ReadsWith trails source p others) : above = others := by
  cases one with
  | block block =>
    cases two with
    | block => rfl
    | lines line run => exact absurd (block.symm.trans line) (by decide)
  | lines line run =>
    cases two with
    | block block => exact absurd (block.symm.trans line) (by decide)
    | lines line other => exact run.unique other

theorem IsNearest.unique (one : IsNearest p n) (two : IsNearest q n) : p = q := by
  obtain ⟨a, skipped, climb, near⟩ := one
  obtain ⟨b, passed, climbs, nearest⟩ := two
  rw [climb.eq_anchor] at near
  rw [climbs.eq_anchor] at nearest
  have first := (nearestBefore_iff.mp near).2
  rw [(nearestBefore_iff.mp nearest).2] at first
  exact (Option.some.inj first).symm

theorem MayDocument.isNearest (may : MayDocument trails source p n) : IsNearest p n := by
  obtain ⟨a, skipped, climb, near, _⟩ := may.reaches
  exact ⟨a, skipped, climb, near⟩

theorem readComments_reads (source : String) (p : Node) :
    ∃ above, readComments source p = p :: above ∧
      ReadsWith (FollowsCode source) source p above := by
  unfold readComments
  split
  · next block => exact ⟨[], rfl, .block block⟩
  · next line =>
    exact ⟨_, rfl, .lines (Bool.eq_false_iff.mpr line) (commentRun_longest source p)⟩

theorem mayDocument_iff (near : NearestBefore n.anchor skipped p) :
    (!p.isComment || p.lastRow source + 1 < openingRow source n.anchor skipped ||
      p.isTrailingComment source) = false ↔ MayDocument (FollowsCode source) source p n := by
  have rows : openingRow source n.anchor skipped ≤ p.lastRow source + 1 ↔
      ∃ a skipped, ClimbsTo n a ∧ NearestBefore a skipped p ∧
        openingRow source a skipped ≤ p.lastRow source + 1 := by
    constructor
    · intro dense
      exact ⟨_, skipped, climbsTo_anchor n, near, dense⟩
    · rintro ⟨a, passed, climb, before, dense⟩
      rw [climb.eq_anchor] at before dense
      rwa [(nearestBefore_iff.mp before).1, ← (nearestBefore_iff.mp near).1] at dense
  constructor
  · intro passed
    simp only [Bool.or_eq_false_iff, Bool.not_eq_false', decide_eq_false_iff_not, Nat.not_lt]
      at passed
    obtain ⟨⟨comment, dense⟩, free⟩ := passed
    exact ⟨rows.mp dense, comment, Bool.eq_false_iff.mp free⟩
  · rintro ⟨reaches, comment, free⟩
    simp only [Bool.or_eq_false_iff, Bool.not_eq_false', decide_eq_false_iff_not, Nat.not_lt]
    exact ⟨⟨comment, rows.mpr reaches⟩, Bool.eq_false_iff.mpr free⟩

theorem precedingComment_nearest (near : IsNearest p n) :
    n.precedingComment source = some doc ↔ doc ≠ "" ∧
      MayDocument (FollowsCode source) source p n ∧
      doc = cleanComment (runText source (readComments source p)) := by
  obtain ⟨a, skipped, climb, near⟩ := near
  rw [climb.eq_anchor] at near
  rw [precedingComment_near near, ← mayDocument_iff near]
  generalize cleanComment (runText source (readComments source p)) = text
  split
  · next refused => simp [refused]
  · next passed =>
    rw [Bool.eq_false_iff.mpr passed]
    split
    · next empty =>
      rw [String.isEmpty_iff.mp empty]
      simp only [reduceCtorEq, true_and, false_iff, not_and]
      exact fun filled same => filled same
    · next filled =>
      have some_ : text ≠ "" := mt String.isEmpty_iff.mpr filled
      rw [Option.some.injEq]
      exact ⟨fun same => ⟨same ▸ some_, rfl, same.symm⟩, fun ⟨_, _, same⟩ => same.symm⟩

theorem exists_nearest (found : n.precedingComment source = some doc) : ∃ p, IsNearest p n := by
  cases behind : n.anchor.earlierSiblings.dropWhile isAttribute with
  | nil =>
    rw [precedingComment_far behind] at found
    cases found
  | cons p rest =>
    exact ⟨p, n.anchor, _, climbsTo_anchor n, nearestBefore_iff.mpr ⟨rfl, by rw [behind]; rfl⟩⟩

theorem precedingComment_exact : n.precedingComment source = some doc ↔ doc ≠ "" ∧
    ∃ p above, MayDocument (FollowsCode source) source p n ∧
      ReadsWith (FollowsCode source) source p above ∧
      doc = cleanComment (runText source (p :: above)) := by
  constructor
  · intro found
    obtain ⟨p, near⟩ := exists_nearest found
    obtain ⟨filled, may, text⟩ := (precedingComment_nearest near).mp found
    obtain ⟨above, whole, reads⟩ := readComments_reads source p
    exact ⟨filled, p, above, may, reads, whole ▸ text⟩
  · rintro ⟨filled, p, above, may, reads, text⟩
    obtain ⟨others, whole, read⟩ := readComments_reads source p
    refine (precedingComment_nearest may.isNearest).mpr ⟨filled, may, ?_⟩
    rw [whole, read.unique reads, text]

theorem blockComment_text (text : p.text source = blockComment body) :
    p.commentText source = blockComment body ∧
      isBlockComment (p.commentText source) = true := by
  have visible : isBlank '/' = false := rfl
  have kept : p.commentText source = blockComment body := by
    have chars : (blockComment body).toList = ('/' :: '*' :: body.toList ++ ['*']) ++ ['/'] := by
      simp [blockComment]
    rw [commentText, text, Text.trimEnd, Text.trimEndChars, Text.dropTrailing_eq, chars,
      List.rdropWhile_concat, if_neg (by simp [visible]), ← chars, String.ofList_toList]
  refine ⟨kept, ?_⟩
  have start : (Text.trimStart (blockComment body)).toList =
      '/' :: '*' :: (body.toList ++ ['*', '/']) := by
    simp [Text.trimStart, Text.trimStartChars, blockComment, visible]
  rw [kept, isBlockComment]
  simp [Text.startsWith, start]

-- A block comment of stars and white space is cleaned to nothing, and documents nothing where it
-- is the nearest sibling, if and only if every line of it is silent.
theorem bare_comment_documents_nothing_iff {body : String}
    (bare : ∀ c ∈ body.toList, isFiller c = true) :
    (cleanComment (blockComment body) = "" ↔
        ∀ line ∈ lineChars (blockComment body).toList, SilentLine line) ∧
      ∀ (source : String) (n p : Node), IsNearest p n → p.text source = blockComment body →
        (n.precedingComment source = none ↔ ¬ MayDocument (FollowsCode source) source p n ∨
          ∀ line ∈ lineChars (blockComment body).toList, SilentLine line) := by
  have cleaned := Text.blockComment_empty_iff bare
  refine ⟨cleaned, fun source n p near text => ?_⟩
  obtain ⟨kept, block⟩ := blockComment_text text
  have read : runText source (readComments source p) = blockComment body := by
    rw [readComments, if_pos block, runText, List.reverse_singleton, List.map_singleton, kept,
      Text.join, String.intercalate_singleton]
  rw [← cleaned, Option.eq_none_iff_forall_ne_some]
  simp only [ne_eq, precedingComment_nearest near, read]
  constructor
  · intro nothing
    by_cases may : MayDocument (FollowsCode source) source p n
    · refine .inr ?_
      by_contra filled
      exact nothing _ ⟨filled, may, rfl⟩
    · exact .inl may
  · rintro (far | empty) doc ⟨filled, may, rfl⟩
    · exact far may
    · exact filled empty

def topComment (comment : String) : Tree := .whole "comment" 0 comment.utf8ByteSize none []

def functionBelow (comment : String) : Node :=
  let size := comment.utf8ByteSize
  { focus := .whole "function_declaration" (size + 1) (size + 16) none []
    above := [⟨(Tree.whole "program" 0 (size + 16) none []).label, [topComment comment], []⟩] }

def commentAbove (comment : String) : Node :=
  let function := functionBelow comment
  ⟨topComment comment, [⟨(Tree.whole "program" 0 function.label.stop none []).label, [],
    [function.focus]⟩]⟩

theorem commentAbove_nearest (comment : String) :
    IsNearest (commentAbove comment) (functionBelow comment) := by
  refine ⟨functionBelow comment, [], .stays fun p up => ?_, ?_⟩
  · cases up
    rfl
  · exact ⟨fun q member => (List.not_mem_nil member).elim, List.prefix_rfl, rfl⟩

theorem silent_lines_document_nothing :
    let body := "*\n * \n *"
    let source := blockComment body ++ "\nfunction f() \x7b\x7d"
    (∀ c ∈ body.toList, isFiller c = true) ∧
      (∀ line ∈ lineChars (blockComment body).toList, SilentLine line) ∧
      cleanComment (blockComment body) = "" ∧
      (functionBelow (blockComment body)).precedingComment source = none := by
  intro body source
  have bare : ∀ c ∈ body.toList, isFiller c = true := List.all_eq_true.mp (by decide)
  have silent : ∀ line ∈ lineChars (blockComment body).toList, SilentLine line := by
    have cut : lineChars (blockComment body).toList =
        ['/' :: List.replicate 2 '*' ++ [] ++ [], [' '] ++ ['*'] ++ [' '] ++ [],
          [' '] ++ [] ++ [] ++ (List.replicate 2 '*' ++ ['/'])] := by decide
    rw [cut]
    refine List.forall_mem_cons.mpr ⟨.opening 1 (by simp) .open (by simp), ?_⟩
    refine List.forall_mem_cons.mpr ⟨.within Text.blank_space (.inr rfl) Text.blank_space .open, ?_⟩
    exact List.forall_mem_singleton.mpr (.within Text.blank_space (.inl rfl) (by simp) (.closed 1))
  have bareness := bare_comment_documents_nothing_iff bare
  have text : (commentAbove (blockComment body)).text source = blockComment body := by
    decide +kernel
  refine ⟨bare, silent, bareness.1.mpr silent, ?_⟩
  exact (bareness.2 source _ _ (commentAbove_nearest _) text).mpr (.inr silent)

-- The closing mark takes the star that the opening one needs, and a slash is left.
theorem shortest_comment_documents_slash :
    (∀ c ∈ "".toList, isFiller c = true) ∧ cleanComment (blockComment "") = "/" ∧
      (functionBelow "/**/").precedingComment "/**/\nfunction f() \x7b\x7d" = some "/" ∧
      ¬ ∀ body : String, (∀ c ∈ body.toList, isFiller c = true) →
        cleanComment (blockComment body) = "" := by
  have bare : ∀ c ∈ "".toList, isFiller c = true := List.all_eq_true.mp (by decide)
  have cleaned : cleanComment (blockComment "") = "/" := by decide +kernel
  refine ⟨bare, cleaned, by decide +kernel, fun nothing => ?_⟩
  have empty : cleanComment (blockComment "") = "" := nothing "" bare
  rw [cleaned] at empty
  exact absurd empty (by decide)

end CodeEntities.Node
