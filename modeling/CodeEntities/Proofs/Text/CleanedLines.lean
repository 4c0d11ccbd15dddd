import CodeEntities.Proofs.Text.LineComments

namespace CodeEntities.Text

variable {p : Char → Bool} {cs line piece rest : List Char} {lines : List (List Char)} {raw : String}

theorem pieces_clean : ∀ piece ∈ pieces p cs, ∀ c ∈ piece, p c = false := by
  induction cs with
  | nil => simp [pieces]
  | cons c cs ih =>
    rw [pieces]
    split
    · simpa using ih
    · next other =>
      cases found : pieces p cs with
      | nil => exact absurd found (pieces_ne_nil p cs)
      | cons first others =>
        rw [found] at ih
        obtain ⟨here, later⟩ := List.forall_mem_cons.mp ih
        refine List.forall_mem_cons.mpr ⟨?_, later⟩
        exact List.forall_mem_cons.mpr ⟨Bool.eq_false_iff.mpr other, here⟩

def withoutReturn (line : List Char) : List Char :=
  match line.reverse with
  | '\r' :: rest => rest.reverse
  | _ => line

theorem withoutReturn_whole (piece : List Char) :
    piece = withoutReturn piece ∨ piece = withoutReturn piece ++ ['\r'] := by
  unfold withoutReturn
  split
  · next rest back =>
    rw [← List.reverse_cons, ← back, List.reverse_reverse]
    exact .inr rfl
  · exact .inl rfl

theorem lineChars_eq (cs : List Char) : lineChars cs =
    match (pieces (· == '\n') cs).getLast? with
    | some [] => (pieces (· == '\n') cs).dropLast.map withoutReturn
    | some last => (pieces (· == '\n') cs).dropLast.map withoutReturn ++ [last]
    | none => [] := rfl

-- A line is a piece between line feeds, up to a carriage return at its end.
theorem mem_lineChars (member : line ∈ lineChars cs) :
    ∃ piece ∈ pieces (· == '\n') cs, piece = line ∨ piece = line ++ ['\r'] := by
  have front (listed : line ∈ (pieces (· == '\n') cs).dropLast.map withoutReturn) :
      ∃ piece ∈ pieces (· == '\n') cs, piece = line ∨ piece = line ++ ['\r'] := by
    obtain ⟨piece, inside, rfl⟩ := List.mem_map.mp listed
    exact ⟨piece, List.mem_of_mem_dropLast inside, withoutReturn_whole piece⟩
  rw [lineChars_eq] at member
  split at member
  · exact front member
  · next last _ found =>
    rcases List.mem_append.mp member with listed | listed
    · exact front listed
    · rw [List.mem_singleton.mp listed]
      exact ⟨last, List.mem_of_getLast? found, .inl rfl⟩
  · cases member

theorem lineChars_single (member : line ∈ lineChars cs) : '\n' ∉ line := by
  intro inside
  obtain ⟨piece, listed, whole⟩ := mem_lineChars member
  have within : '\n' ∈ piece := by
    rcases whole with rfl | rfl
    · exact inside
    · exact List.mem_append_left _ inside
  exact absurd (pieces_clean piece listed _ within) (by decide)

theorem dropOne_suffix (cs : List Char) : dropOne p cs <:+ cs := by
  cases cs with
  | nil => exact List.suffix_rfl
  | cons c cs =>
    rw [dropOne]
    split
    · exact List.suffix_cons c cs
    · exact List.suffix_rfl

theorem afterLongBracket_suffix (found : afterLongBracket? cs = some rest) : rest <:+ cs := by
  unfold afterLongBracket? at found
  split at found
  · next cs =>
    split at found
    · next rest' level =>
      cases found
      have inside : '[' :: rest <:+ cs := level ▸ List.dropWhile_suffix _
      exact (List.suffix_cons _ _).trans (inside.trans (List.suffix_cons _ _))
    · cases found
  · cases found

theorem afterOpeningMark_suffix (found : afterOpeningMark? cs = some rest) : rest <:+ cs := by
  have skipped {q : Char → Bool} (a b : Char) (cs : List Char) :
      cs.dropWhile q <:+ a :: b :: cs :=
    (List.dropWhile_suffix q).trans ((List.suffix_cons b cs).trans (List.suffix_cons a _))
  unfold afterOpeningMark? at found
  split at found
  · next cs =>
    cases found
    exact (dropOne_suffix _).trans (skipped '/' '*' cs)
  · next cs =>
    cases found
    exact (dropOne_suffix _).trans ((List.suffix_cons _ cs).trans (List.suffix_cons _ _))
  · next cs =>
    split at found
    · next rest' level =>
      cases found
      have inside : '/' :: rest <:+ cs := level ▸ List.dropWhile_suffix _
      exact (List.suffix_cons _ _).trans (inside.trans (List.suffix_cons _ _))
    · cases found
      exact List.suffix_cons _ _
  · next cs =>
    cases found
    exact (dropOne_suffix _).trans ((List.dropWhile_suffix _).trans (List.suffix_cons _ _))
  · next cs =>
    cases found
    refine (dropOne_suffix _).trans ((List.dropWhile_suffix _).trans ?_)
    cases bracket : afterLongBracket? (cs.dropWhile (· == '-')) with
    | none => exact skipped '-' '-' cs
    | some rest => exact (afterLongBracket_suffix bracket).trans (skipped '-' '-' cs)
  · next cs =>
    cases found
    exact (dropOne_suffix _).trans ((List.dropWhile_suffix _).trans (skipped '\x7b' '-' cs))
  · next cs =>
    cases found
    exact (List.dropWhile_suffix _).trans (List.suffix_cons _ _)
  · next cs =>
    cases found
    exact (List.dropWhile_suffix _).trans (List.suffix_cons _ _)
  · cases found

theorem dropOpeningMark_suffix (line : List Char) : dropOpeningMark line <:+ line := by
  unfold dropOpeningMark
  split
  · next rest found =>
    exact (dropOne_suffix rest).trans ((afterOpeningMark_suffix found).trans
      (List.dropWhile_suffix isBlank))
  · exact List.suffix_rfl

theorem cleanLine_sublist (line : List Char) : (cleanLine line).Sublist line := by
  have ending : cleanLine line <+: dropOpeningMark (dropClosingMark line) := by
    rw [cleanLine, trimEndChars, dropTrailing_eq]
    exact List.rdropWhile_prefix _ _
  exact ending.sublist.trans ((dropOpeningMark_suffix _).sublist.trans
    (dropClosingMark_front line).sublist)

theorem dropOuterBlank_nil_iff : dropOuterBlank lines = [] ↔ ∀ line ∈ lines, line.all isBlank := by
  rw [dropOuterBlank_eq, List.rdropWhile_eq_nil_iff]
  constructor
  · intro blank
    refine List.dropWhile_eq_nil_iff.mp (List.eq_nil_iff_forall_not_mem.mpr fun line member => ?_)
    have first := List.head_dropWhile_not (fun l : List Char => l.all isBlank)
      (List.ne_nil_of_mem member)
    rw [blank _ (List.head_mem _)] at first
    cases first
  · intro blank line member
    exact blank line ((List.dropWhile_suffix _).subset member)

theorem dropOuterBlank_first (first : (dropOuterBlank lines).head? = some line) :
    ¬ line.all isBlank := by
  rw [dropOuterBlank_eq] at first
  obtain ⟨rest, found⟩ := List.head?_eq_some_iff.mp first
  obtain ⟨behind, whole⟩ := found ▸ List.rdropWhile_prefix (fun l : List Char => l.all isBlank)
    (lines.dropWhile fun l => l.all isBlank)
  have filled : lines.dropWhile (fun l => l.all isBlank) ≠ [] := by
    rw [← whole]
    exact List.cons_ne_nil _ _
  have visible := List.head_dropWhile_not (fun l : List Char => l.all isBlank) filled
  simp only [← whole, List.cons_append, List.head_cons] at visible
  exact Bool.eq_false_iff.mp visible

theorem dropOuterBlank_last (last : (dropOuterBlank lines).getLast? = some line) :
    ¬ line.all isBlank := by
  rw [dropOuterBlank_eq] at last
  have filled := List.ne_nil_of_mem (List.mem_of_getLast? last)
  have visible := List.rdropWhile_last_not (fun l : List Char => l.all isBlank) _ filled
  rw [List.getLast?_eq_some_getLast filled] at last
  exact Option.some.inj last ▸ visible

theorem cleanedLine_single (member : line ∈ dropOuterBlank ((lineChars cs).map cleanLine)) :
    '\n' ∉ line := by
  intro inside
  obtain ⟨whole, listed, rfl⟩ := List.mem_map.mp ((dropOuterBlank_sublist _).subset member)
  exact lineChars_single listed ((cleanLine_sublist whole).subset inside)

-- A comment says nothing exactly if every line of it is blank without its marks.
theorem cleanComment_empty_iff :
    cleanComment raw = "" ↔ ∀ line ∈ lineChars raw.toList, (cleanLine line).all isBlank := by
  have blank : (∀ line ∈ lineChars raw.toList, (cleanLine line).all isBlank) ↔
      dropOuterBlank ((lineChars raw.toList).map cleanLine) = [] := by
    rw [dropOuterBlank_nil_iff, List.forall_mem_map]
  rw [blank, cleanComment, String.ofList_eq_empty_iff]
  constructor
  · intro nothing
    by_contra filled
    have cut := pieces_join filled fun line => cleanedLine_single
    rw [nothing] at cut
    exact dropOuterBlank_first (congrArg List.head? cut.symm) rfl
  · intro nothing
    rw [nothing]
    rfl

theorem cleanComment_pieces (filled : cleanComment raw ≠ "") :
    pieces (· == '\n') (cleanComment raw).toList =
      dropOuterBlank ((lineChars raw.toList).map cleanLine) := by
  rw [cleanComment, String.toList_ofList]
  refine pieces_join (fun nothing => filled ?_) fun line => cleanedLine_single
  rw [cleanComment, nothing]
  rfl

def HasOuterText (text : String) : Prop :=
  ∃ first last, (split (· == '\n') text).head? = some first ∧
    (split (· == '\n') text).getLast? = some last ∧ trim first ≠ "" ∧ trim last ≠ ""

theorem trim_filled (visible : ¬ line.all isBlank) : trim (String.ofList line) ≠ "" := by
  intro empty
  rw [← String.toList_inj, trim_toList, String.toList_ofList] at empty
  exact visible (List.all_eq_true.mpr (blank_of_trimChars empty))

theorem cleanComment_outer (filled : cleanComment raw ≠ "") : HasOuterText (cleanComment raw) := by
  have cut := cleanComment_pieces filled
  have kept : dropOuterBlank ((lineChars raw.toList).map cleanLine) ≠ [] :=
    cut ▸ pieces_ne_nil _ _
  have first := List.head?_eq_some_head kept
  have last := List.getLast?_eq_some_getLast kept
  refine ⟨_, _, ?_, ?_, trim_filled (dropOuterBlank_first first),
    trim_filled (dropOuterBlank_last last)⟩
  · rw [split, cut, List.head?_map, first]
    rfl
  · rw [split, cut, List.getLast?_map, last]
    rfl

end CodeEntities.Text
