import CodeEntities.Proofs.Outline.PrecedingComments

namespace CodeEntities.Node

open Text (cleanComment isBlockComment HasOuterText)

-- Code stands in front of a comment on its first row: the last character of a sibling before it
-- that is no comment.
def TrailsCode (source : String) (q : Node) : Prop :=
  ∃ p ∈ q.earlierSiblings, p.isComment = false ∧
    p.lastRow source = (q.startPosition source).row

-- The sibling right before a comment is no comment and ends with the line feed in front of it.
def FollowsLineFeed (source : String) (q : Node) : Prop :=
  ∃ p, q.previousSibling? = some p ∧ p.isComment = false ∧
    (p.endPosition source).row = (q.startPosition source).row ∧
    p.lastRow source ≠ (q.startPosition source).row

def FollowsComment (source : String) (q : Node) : Prop :=
  (∃ p, q.previousSibling? = some p ∧ p.isComment = true) ∧ TrailsCode source q

-- The line comment where a run ends although it goes on without a blank row.
structure StopsAt (source : String) (p : Node) (above : List Node) (q : Node) : Prop where
  line : isBlockComment (p.commentText source) = false
  next : above ++ [q] <+: p.earlierSiblings
  adjoins : ∃ last, (p :: above).getLast? = some last ∧ Adjoins source last q

instance (source : String) (q : Node) : Decidable (TrailsCode source q) :=
  inferInstanceAs (Decidable (∃ p ∈ q.earlierSiblings, p.isComment = false ∧
    p.lastRow source = (q.startPosition source).row))

variable {source : String} {t : Tree} {n a p q e : Node} {above : List Node} {doc : String}

theorem row_le (source : String) {i j : Nat} (le : i ≤ j) :
    (Text.Position.atOffset source i).row ≤ (Text.Position.atOffset source j).row := by
  rcases Text.Position.le_def.mp (Text.Position.atOffset_mono source le) with lower | ⟨same, _⟩
  · exact Nat.le_of_lt lower
  · exact Nat.le_of_eq same

theorem lastRow_cases (source : String) (p : Node) :
    p.lastRow source = (p.endPosition source).row ∨
      (p.startPosition source).row < (p.endPosition source).row ∧
        p.lastRow source < (p.endPosition source).row := by
  rw [lastRow]
  split
  · next feed =>
    simp only [Bool.and_eq_true, decide_eq_true_eq] at feed
    exact .inr ⟨feed.2, by omega⟩
  · exact .inl rfl

theorem lastRow_le (source : String) (p : Node) :
    p.lastRow source ≤ (p.endPosition source).row := by
  rcases lastRow_cases source p with same | ⟨_, less⟩
  · exact Nat.le_of_eq same
  · exact Nat.le_of_lt less

theorem earlier_row (placed : (root t).WellPlaced) (member : q ∈ (root t).preorder)
    (earlier : e ∈ q.earlierSiblings) :
    (e.endPosition source).row ≤ (q.startPosition source).row :=
  row_le source (List.rel_of_pairwise_cons (siblings_inOrder placed member) earlier)

theorem trailsCode_of_follows (placed : (root t).WellPlaced) (member : q ∈ (root t).preorder)
    (follows : FollowsCode source q) : TrailsCode source q ↔ ¬ FollowsLineFeed source q := by
  obtain ⟨p, found, code, same⟩ := followsCode_iff.mp follows
  have feeds : FollowsLineFeed source q ↔ p.lastRow source ≠ (q.startPosition source).row := by
    constructor
    · rintro ⟨p', found', _, _, other⟩
      cases found.symm.trans found'
      exact other
    · intro other
      exact ⟨p, found, code, same, other⟩
  rw [feeds, not_not]
  have inTree : p ∈ (root t).preorder :=
    sibling_in_tree member (earlierSiblings_eq found ▸ List.mem_cons_self ..)
  constructor
  · rintro ⟨e, earlier, _, row⟩
    by_contra other
    rw [earlierSiblings_eq found] at earlier
    rcases List.mem_cons.mp earlier with rfl | earlier
    · exact other row
    · -- The sibling starts on an earlier row than it ends, and what is before it ends there.
      have start : (e.endPosition source).row ≤ (p.startPosition source).row :=
        earlier_row placed inTree earlier
      have last := lastRow_le source e
      rcases lastRow_cases source p with whole | ⟨higher, _⟩
      · exact other (whole.trans same)
      · omega
  · intro row
    exact ⟨p, earlierSiblings_eq found ▸ List.mem_cons_self .., code, row⟩

theorem trailsCode_of_free (placed : (root t).WellPlaced) (member : q ∈ (root t).preorder)
    (free : ¬ FollowsCode source q) : TrailsCode source q ↔ FollowsComment source q := by
  refine ⟨fun trails => ⟨?_, trails⟩, And.right⟩
  obtain ⟨e, earlier, _, row⟩ := trails
  obtain ⟨p, found⟩ : ∃ p, q.previousSibling? = some p := by
    rw [previousSibling?]
    exact ⟨_, List.head?_eq_some_head (List.ne_nil_of_mem earlier)⟩
  refine ⟨p, found, ?_⟩
  by_contra code
  have plain : p.isComment = false := Bool.eq_false_iff.mpr code
  have inTree : p ∈ (root t).preorder :=
    sibling_in_tree member (earlierSiblings_eq found ▸ List.mem_cons_self ..)
  have above : (p.endPosition source).row ≤ (q.startPosition source).row :=
    earlier_row placed member (earlierSiblings_eq found ▸ List.mem_cons_self ..)
  have other : (p.endPosition source).row ≠ (q.startPosition source).row :=
    fun same => free (followsCode_iff.mpr ⟨p, found, plain, same⟩)
  have last := lastRow_le source e
  rw [earlierSiblings_eq found] at earlier
  rcases List.mem_cons.mp earlier with rfl | earlier
  · omega
  · have start : (e.endPosition source).row ≤ (p.startPosition source).row :=
      earlier_row placed inTree earlier
    have forward : (p.startPosition source).row ≤ (p.endPosition source).row :=
      row_le source (placed.forward inTree)
    omega

theorem ClimbsTo.inTree (climb : ClimbsTo n a) (member : n ∈ (root t).preorder) :
    a ∈ (root t).preorder := by
  induction climb with
  | stays free => exact member
  | climbs up wraps more ih => exact ih (parent_in_tree member up)

theorem IsNearest.inTree (near : IsNearest p n) (member : n ∈ (root t).preorder) :
    p ∈ (root t).preorder := by
  obtain ⟨a, skipped, climb, before⟩ := near
  refine sibling_in_tree (climb.inTree member) (before.siblings.subset ?_)
  exact List.mem_append_right _ (List.mem_singleton_self p)

structure WellRead (source : String) (p : Node) (above : List Node) : Prop where
  apart : ∀ q ∈ p :: above, ¬ FollowsComment source q
  ends : ∀ q, StopsAt source p above q → ¬ FollowsLineFeed source q

theorem longestRun_trails (placed : (root t).WellPlaced) (member : p ∈ (root t).preorder)
    (line : isBlockComment (p.commentText source) = false) (free : ¬ FollowsCode source p)
    (run : LongestRun (FollowsCode source) source p above) :
    ¬ TrailsCode source p ∧ LongestRun (TrailsCode source) source p above ↔
      WellRead source p above := by
  have inTree : ∀ q ∈ above, q ∈ (root t).preorder := fun q listed =>
    sibling_in_tree member (run.siblings.subset listed)
  have read : ∀ q ∈ p :: above, (TrailsCode source q ↔ FollowsComment source q) :=
    List.forall_mem_cons.mpr ⟨trailsCode_of_free placed member free,
      fun q listed => trailsCode_of_free placed (inTree q listed) (run.apart q listed)⟩
  have stops : ∀ q, StopsAt source p above q →
      (TrailsCode source q ↔ ¬ FollowsLineFeed source q) := by
    rintro q ⟨_, next, last, ends, adjoins⟩
    have listed : q ∈ p.earlierSiblings :=
      next.subset (List.mem_append_right _ (List.mem_singleton_self q))
    exact trailsCode_of_follows placed (sibling_in_tree member listed)
      (run.maximal last q ends next adjoins)
  constructor
  · rintro ⟨apart, longest⟩
    refine ⟨fun q listed => ?_, fun q stop => ?_⟩
    · refine mt (read q listed).mpr ?_
      rcases List.mem_cons.mp listed with rfl | later
      · exact apart
      · exact longest.apart q later
    · obtain ⟨last, ends, adjoins⟩ := stop.adjoins
      exact (stops q stop).mp (longest.maximal last q ends stop.next adjoins)
  · rintro ⟨apart, ends⟩
    have free : ∀ q ∈ p :: above, ¬ TrailsCode source q := fun q listed =>
      mt (read q listed).mp (apart q listed)
    obtain ⟨first, later⟩ := List.forall_mem_cons.mp free
    refine ⟨first, run.siblings, run.linked, later, fun last q found next adjoins => ?_⟩
    have stop : StopsAt source p above q := ⟨line, next, last, found, adjoins⟩
    exact (stops q stop).mpr (ends q stop)

theorem documents_trails (placed : (root t).WellPlaced) (member : n ∈ (root t).preorder)
    (may : MayDocument (FollowsCode source) source p n)
    (reads : ReadsWith (FollowsCode source) source p above) :
    MayDocument (TrailsCode source) source p n ∧ ReadsWith (TrailsCode source) source p above ↔
      WellRead source p above := by
  have inTree : p ∈ (root t).preorder := may.isNearest.inTree member
  cases reads with
  | block block =>
    have own := trailsCode_of_free placed inTree may.apart
    constructor
    · rintro ⟨documents, _⟩
      refine ⟨List.forall_mem_singleton.mpr (mt own.mpr documents.apart), fun q stop => ?_⟩
      exact absurd (block.symm.trans stop.line) (by decide)
    · rintro ⟨apart, _⟩
      have free := mt own.mp (apart p (List.mem_cons_self ..))
      exact ⟨⟨may.reaches, may.comment, free⟩, .block block⟩
  | lines line run =>
    rw [← longestRun_trails placed inTree line may.apart run]
    constructor
    · rintro ⟨documents, reads⟩
      refine ⟨documents.apart, ?_⟩
      cases reads with
      | block block => exact absurd (block.symm.trans line) (by decide)
      | lines line longest => exact longest
    · rintro ⟨apart, longest⟩
      exact ⟨⟨may.reaches, may.comment, apart⟩, .lines line longest⟩

-- A node is documented by the nearest sibling before it, if that is a comment in reach, read with
-- the run of line comments above it; the text has no blank line at its ends. No comment that is
-- read trails code and none is missing exactly if none stands behind another comment and code on
-- one row, and the run does not end behind a sibling that brings its own line feed.
theorem doc_comment_associated_iff (placed : (root t).WellPlaced)
    (member : n ∈ (root t).preorder) (source doc : String) :
    (n.precedingComment source = some doc ↔ doc ≠ "" ∧
        ∃ p above, MayDocument (FollowsCode source) source p n ∧
          ReadsWith (FollowsCode source) source p above ∧
          doc = cleanComment (runText source (p :: above))) ∧
      (n.precedingComment source = some doc → HasOuterText doc) ∧
      ∀ p above, MayDocument (FollowsCode source) source p n →
        ReadsWith (FollowsCode source) source p above →
        (MayDocument (TrailsCode source) source p n ∧
          ReadsWith (TrailsCode source) source p above ↔ WellRead source p above) := by
  refine ⟨precedingComment_exact, fun found => ?_, fun p above may reads => ?_⟩
  · obtain ⟨filled, p, above, _, _, rfl⟩ := precedingComment_exact.mp found
    exact Text.cleanComment_outer filled
  · exact documents_trails placed member may reads

def annotatedSource : String := "let x = 1; // far\n// one\n// two\n#[a]\nfn f() \x7b\x7d\n"

def annotatedTree : Tree := .whole "source_file" 0 47 none [
  .whole "let_declaration" 0 10 none [], .whole "line_comment" 11 17 none [],
  .whole "line_comment" 18 24 none [], .whole "line_comment" 25 31 none [],
  .whole "attribute_item" 32 36 none [], .whole "function_item" 37 46 none []]

theorem annotated_earlier : (root annotatedTree).children[3].earlierSiblings =
    [(root annotatedTree).children[2], (root annotatedTree).children[1],
      (root annotatedTree).children[0]] := rfl

theorem annotated_documents : MayDocument (FollowsCode annotatedSource) annotatedSource
    (root annotatedTree).children[3] (root annotatedTree).children[5] := by
  let function := (root annotatedTree).children[5]
  refine ⟨⟨function, [(root annotatedTree).children[4]], .stays fun p up => ?_, ?_, ?_⟩, ?_, ?_⟩
  · cases up
    rfl
  · exact ⟨by decide, ⟨_, rfl⟩, by decide⟩
  · decide +kernel
  · decide +kernel
  · decide +kernel

theorem annotated_reads : ReadsWith (FollowsCode annotatedSource) annotatedSource
    (root annotatedTree).children[3] [(root annotatedTree).children[2]] := by
  refine .lines (by decide +kernel) ⟨⟨_, annotated_earlier.symm⟩, ?_, ?_, ?_⟩
  · exact .cons_cons (by decide +kernel) (.singleton _)
  · exact List.forall_mem_singleton.mpr (by decide +kernel)
  · intro last q ends next adjoins
    rw [annotated_earlier] at next
    cases (List.cons_prefix_cons.mp (List.cons_prefix_cons.mp next).2).1
    decide +kernel

theorem annotated_wellRead : WellRead annotatedSource (root annotatedTree).children[3]
    [(root annotatedTree).children[2]] := by
  refine ⟨?_, fun q stop => ?_⟩
  · refine List.forall_mem_cons.mpr ⟨?_, List.forall_mem_singleton.mpr ?_⟩
    · exact fun follows => absurd follows.2 (by decide +kernel)
    · exact fun follows => absurd follows.2 (by decide +kernel)
  · have next := stop.next
    rw [annotated_earlier] at next
    cases (List.cons_prefix_cons.mp (List.cons_prefix_cons.mp next).2).1
    rintro ⟨p, before, _, _, other⟩
    cases before
    exact other (by decide +kernel)

theorem run_ends_at_trailing_comment :
    let two := (root annotatedTree).children[3]
    let one := (root annotatedTree).children[2]
    let function := (root annotatedTree).children[5]
    (root annotatedTree).WellPlaced ∧ function ∈ (root annotatedTree).preorder ∧
      function.precedingComment annotatedSource = some "one\ntwo" ∧ HasOuterText "one\ntwo" ∧
      MayDocument (TrailsCode annotatedSource) annotatedSource two function ∧
      ReadsWith (TrailsCode annotatedSource) annotatedSource two [one] := by
  intro two one function
  have placed : (root annotatedTree).WellPlaced := by decide
  have member : function ∈ (root annotatedTree).preorder :=
    child_below (List.getElem_mem _)
  have documents := doc_comment_associated_iff placed member annotatedSource "one\ntwo"
  have found : function.precedingComment annotatedSource = some "one\ntwo" :=
    documents.1.mpr
      ⟨by decide, two, [one], annotated_documents, annotated_reads, by decide +kernel⟩
  exact ⟨placed, member, found, documents.2.1 found,
    (documents.2.2 two [one] annotated_documents annotated_reads).mpr annotated_wellRead⟩

def Associated (source : String) (n : Node) (doc : String) : Prop :=
  doc ≠ "" ∧ HasOuterText doc ∧ ∃ p, MayDocument (TrailsCode source) source p n ∧
    (isBlockComment (p.commentText source) = false →
      ∃ above, LongestRun (TrailsCode source) source p above ∧
        doc = cleanComment (runText source (p :: above)))

def includeSource : String :=
  "#include <stdio.h>\n// Adds up.\n// Never fails.\nint f(void) \x7b return 1; \x7d\n"

def includeTree : Tree := .whole "translation_unit" 0 73 none [
  .whole "preproc_include" 0 19 none [], .whole "comment" 19 30 none [],
  .whole "comment" 31 46 none [], .whole "function_definition" 47 72 none []]

-- The directive ends behind its line feed, so that it seems to stand on the row of the comment.
theorem first_line_below_include_is_lost :
    let function := (root includeTree).children[3]
    (root includeTree).WellPlaced ∧ function ∈ (root includeTree).preorder ∧
      function.precedingComment includeSource = some "Never fails." ∧
      ¬ ∀ (t : Tree) (n : Node) (source doc : String), (root t).WellPlaced →
        n ∈ (root t).preorder → n.precedingComment source = some doc →
        Associated source n doc := by
  intro function
  let two := (root includeTree).children[2]
  let one := (root includeTree).children[1]
  have placed : (root includeTree).WellPlaced := by decide
  have member : function ∈ (root includeTree).preorder := child_below (List.getElem_mem _)
  have found : function.precedingComment includeSource = some "Never fails." := by decide +kernel
  refine ⟨placed, member, found, fun associates => ?_⟩
  obtain ⟨_, _, p, may, reads⟩ := associates _ _ _ _ placed member found
  have near : IsNearest two function := by
    refine ⟨function, [], .stays fun p up => ?_, ⟨by simp, ?_, by decide⟩⟩
    · cases up
      rfl
    · exact ⟨[one, (root includeTree).children[0]], rfl⟩
  cases may.isNearest.unique near
  obtain ⟨above, run, text⟩ := reads (by decide +kernel)
  have longest : LongestRun (TrailsCode includeSource) includeSource two [one] := by
    refine ⟨⟨[(root includeTree).children[0]], rfl⟩, ?_, ?_, ?_⟩
    · exact .cons_cons (by decide +kernel) (.singleton one)
    · exact List.forall_mem_singleton.mpr (by decide +kernel)
    · intro last q ends next adjoins
      cases (List.cons_prefix_cons.mp (List.cons_prefix_cons.mp next).2).1
      exact absurd adjoins.comment (by decide +kernel)
  rw [run.unique longest] at text
  revert text
  decide +kernel

end CodeEntities.Node
