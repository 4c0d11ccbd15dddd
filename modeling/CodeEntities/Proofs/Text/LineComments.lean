import CodeEntities.Proofs.Text.Split
import CodeEntities.Text.Comment

namespace CodeEntities.Text

variable {c : Char} {cs ds mark line : List Char} {lines : List (List Char)}

inductive ClosingMark : List Char → Prop where
  | stars (n : Nat) : ClosingMark (List.replicate (n + 1) '*' ++ ['/'])
  | dashes (n : Nat) : ClosingMark (List.replicate (n + 1) '-' ++ ['}'])
  | brackets (n : Nat) : ClosingMark (']' :: List.replicate n '=' ++ [']'])

theorem all_replicate (same : cs.all (· == c) = true) :
    cs = List.replicate cs.length c :=
  List.eq_replicate_iff.mpr ⟨rfl, fun d member => eq_of_beq (List.all_eq_true.mp same d member)⟩

theorem repeated_reverse (repeated : (!cs.isEmpty && cs.all (· == c)) = true) :
    ∃ n, cs.reverse = List.replicate (n + 1) c := by
  obtain ⟨filled, same⟩ := Bool.and_eq_true_iff.mp repeated
  obtain ⟨first, others, rfl⟩ := List.exists_cons_of_ne_nil (by simpa using filled)
  exact ⟨others.length, by rw [all_replicate same, List.reverse_replicate, List.length_cons]⟩

-- The definition reads a mark from its end.
theorem closingMark_of_reverse (closes : isClosingMark cs.reverse = true) :
    ClosingMark cs.reverse := by
  unfold isClosingMark at closes
  rw [List.reverse_reverse] at closes
  split at closes
  · obtain ⟨n, stars⟩ := repeated_reverse closes
    rw [List.reverse_cons, stars]
    exact .stars n
  · obtain ⟨n, dashes⟩ := repeated_reverse closes
    rw [List.reverse_cons, dashes]
    exact .dashes n
  · split at closes
    · next level whole =>
      rw [List.reverse_cons, whole, all_replicate closes]
      exact .brackets _
    · cases closes
  · cases closes

theorem isClosingMark_iff : isClosingMark cs = true ↔ ClosingMark cs := by
  constructor
  · intro closes
    rw [← List.reverse_reverse cs] at closes ⊢
    exact closingMark_of_reverse closes
  · rintro (n | n | n) <;> simp [isClosingMark]

theorem ClosingMark.filled (closes : ClosingMark mark) : mark ≠ [] := by
  cases closes <;> simp

theorem ClosingMark.visible (closes : ClosingMark mark) : ∀ c ∈ mark, isBlank c = false := by
  intro c member
  cases closes with
  | stars n =>
    simp only [List.mem_append, List.mem_replicate, List.mem_singleton] at member
    rcases member with ⟨_, rfl⟩ | rfl <;> rfl
  | dashes n =>
    simp only [List.mem_append, List.mem_replicate, List.mem_singleton] at member
    rcases member with ⟨_, rfl⟩ | rfl <;> rfl
  | brackets n =>
    simp only [List.mem_append, List.mem_cons, List.mem_replicate, List.not_mem_nil,
      or_false] at member
    rcases member with (rfl | ⟨_, rfl⟩) | rfl <;> rfl

def opensClosing (c : Char) : Bool := ['*', '-', ']'].contains c

theorem ClosingMark.first (closes : ClosingMark (c :: cs)) : opensClosing c = true := by
  generalize whole : c :: cs = mark at closes
  cases closes with
  | stars n => cases whole; rfl
  | dashes n => cases whole; rfl
  | brackets n => cases whole; rfl

theorem ClosingMark.trimmed (closes : ClosingMark mark) : trimChars mark = mark := by
  have kept : trim (String.ofList mark) = String.ofList mark :=
    trim_unblank (by rw [String.toList_ofList]; exact closes.visible)
  simpa using trim_eq_iff.mp kept

theorem dropClosingMark_front (cs : List Char) : dropClosingMark cs <+: cs := by
  induction cs with
  | nil => exact List.prefix_refl []
  | cons c cs ih =>
    rw [dropClosingMark]
    split
    · exact List.nil_prefix
    · exact List.cons_prefix_cons.mpr ⟨rfl, ih⟩

theorem dropClosingMark_ending (cs : List Char) : dropClosingMark cs = cs ∨
    ∃ ending, cs = dropClosingMark cs ++ ending ∧ ClosingMark (trimChars ending) := by
  induction cs with
  | nil => exact .inl rfl
  | cons c cs ih =>
    rw [dropClosingMark]
    split
    · next here => exact .inr ⟨c :: cs, rfl, isClosingMark_iff.mp here⟩
    · rcases ih with whole | ⟨ending, split, closes⟩
      · exact .inl (congrArg (c :: ·) whole)
      · exact .inr ⟨ending, congrArg (c :: ·) split, closes⟩

theorem dropClosingMark_eq_iff : dropClosingMark cs = cs ↔
    ∀ ending, ending <:+ cs → ¬ ClosingMark (trimChars ending) := by
  have empty : ¬ ClosingMark (trimChars []) := fun closes => closes.filled rfl
  induction cs with
  | nil =>
    refine iff_of_true rfl fun ending last => ?_
    rw [List.suffix_nil.mp last]
    exact empty
  | cons c cs ih =>
    rw [dropClosingMark]
    by_cases here : isClosingMark (trimChars (c :: cs)) = true
    · rw [if_pos here]
      refine iff_of_false (List.cons_ne_nil c cs).symm fun unmarked => ?_
      exact unmarked _ (List.suffix_refl _) (isClosingMark_iff.mp here)
    · rw [if_neg here]
      constructor
      · intro kept ending last
        rcases List.suffix_cons_iff.mp last with rfl | last
        · exact mt isClosingMark_iff.mpr here
        · exact ih.mp (List.cons.inj kept).2 ending last
      · intro unmarked
        have later := ih.mpr fun ending last =>
          unmarked ending (List.suffix_cons_iff.mpr (.inr last))
        rw [later]

def unclosed (line : List Char) : List Char := trimEndChars (dropClosingMark line)

theorem unclosed_gap (line : List Char) :
    ∃ gap, (∀ c ∈ gap, isBlank c = true) ∧ dropClosingMark line = unclosed line ++ gap := by
  refine ⟨(dropClosingMark line).rtakeWhile isBlank, fun _ => List.mem_rtakeWhile_imp, ?_⟩
  rw [unclosed, trimEndChars, dropTrailing_eq, List.rdropWhile_append_rtakeWhile]

theorem unclosed_front (line : List Char) : unclosed line <+: line := by
  obtain ⟨gap, _, split⟩ := unclosed_gap line
  exact (split ▸ List.prefix_append (unclosed line) gap).trans (dropClosingMark_front line)

theorem unclosed_whole_iff (trimmed : trimChars cs = cs) :
    unclosed cs = cs ↔ dropClosingMark cs = cs := by
  constructor
  · intro kept
    obtain ⟨gap, _, split⟩ := unclosed_gap cs
    have longer : cs.length ≤ (dropClosingMark cs).length := by
      rw [split, kept, List.length_append]
      exact Nat.le_add_right ..
    exact (dropClosingMark_front cs).eq_of_length_le longer
  · intro kept
    rw [unclosed, kept, trimEndChars, dropTrailing_eq, trimmed_end trimmed]

theorem unclosed_loses (trimmed : trimChars cs = cs) : unclosed cs = cs ∨
    ∃ gap mark, cs = unclosed cs ++ gap ++ mark ∧ (∀ c ∈ gap, isBlank c = true) ∧
      ClosingMark mark := by
  rcases dropClosingMark_ending cs with whole | ⟨ending, split, closes⟩
  · exact .inl ((unclosed_whole_iff trimmed).mpr whole)
  · obtain ⟨gap, blank, front⟩ := unclosed_gap cs
    rw [trimmed_ending trimmed ⟨_, split.symm⟩] at closes
    refine .inr ⟨gap ++ ending.takeWhile isBlank, ending.dropWhile isBlank, ?_, ?_, closes⟩
    · rw [List.append_assoc, List.append_assoc, List.takeWhile_append_dropWhile,
        ← List.append_assoc, ← front, ← split]
    · intro c member
      rcases List.mem_append.mp member with before | behind
      · exact blank c before
      · exact List.mem_takeWhile_imp behind

-- A trimmed line loses something if and only if it ends in a closing mark.
theorem unclosed_iff (trimmed : trimChars cs = cs) :
    unclosed cs = cs ↔ ∀ mark, ClosingMark mark → ¬ mark <:+ cs := by
  rw [unclosed_whole_iff trimmed, dropClosingMark_eq_iff]
  constructor
  · intro unmarked mark closes last
    exact unmarked mark last (closes.trimmed.symm ▸ closes)
  · intro unmarked ending last closes
    have inside : trimChars ending <:+ cs := by
      rw [trimmed_ending trimmed last]
      exact (List.dropWhile_suffix isBlank).trans last
    exact unmarked _ closes inside

structure LineMark (mark : List Char) : Prop where
  visible : ∀ c ∈ mark, isBlank c = false ∧ opensClosing c = false
  alone : afterOpeningMark? mark = some []
  opens : ∀ rest, afterOpeningMark? (mark ++ ' ' :: rest) = some (' ' :: rest)

theorem slashes_lineMark : LineMark ['/', '/'] where
  visible := by simp [opensClosing, isBlank]
  alone := rfl
  opens rest := rfl

theorem hash_lineMark : LineMark ['#'] where
  visible := by simp [opensClosing, isBlank]
  alone := rfl
  opens rest := rfl

-- No closing mark reaches back into the mark that opens the comment.
theorem dropClosingMark_behind (visible : ∀ c ∈ mark, isBlank c = false ∧ opensClosing c = false)
    (cs : List Char) : dropClosingMark (mark ++ cs) = mark ++ dropClosingMark cs := by
  induction mark with
  | nil => rfl
  | cons c mark ih =>
    obtain ⟨⟨plain, other⟩, later⟩ := List.forall_mem_cons.mp visible
    have unclosed : ¬ isClosingMark (trimChars (c :: (mark ++ cs))) = true := by
      intro closes
      rw [trimChars_visible plain] at closes
      have first := (isClosingMark_iff.mp closes).first
      rw [other] at first
      cases first
    rw [List.cons_append, dropClosingMark, if_neg unclosed, ih later, List.cons_append]

namespace LineMark

theorem start (opens : LineMark mark) (rest : List Char) :
    (mark ++ rest).dropWhile isBlank = mark ++ rest := by
  cases mark with
  | nil => cases opens.alone
  | cons c mark =>
    have plain := (opens.visible c (List.mem_cons_self ..)).1
    rw [List.cons_append, List.dropWhile_cons, if_neg (by simp [plain])]

theorem dropOpening (opens : LineMark mark) (rest : List Char) :
    dropOpeningMark (mark ++ ' ' :: rest) = rest := by
  rw [dropOpeningMark, opens.start, opens.opens]
  rfl

theorem dropOpening_alone (opens : LineMark mark) : dropOpeningMark mark = [] := by
  have start := opens.start []
  rw [List.append_nil] at start
  rw [dropOpeningMark, start, opens.alone]
  rfl

-- Where the whole line is a closing mark, the blank in front of it goes with it.
theorem cleanLine_marked (opens : LineMark mark) (trimmed : trimChars line = line) :
    cleanLine (mark ++ ' ' :: line) = unclosed line := by
  have spaced : trimChars (' ' :: line) = line := (trimChars_before blank_space line).trans trimmed
  rw [cleanLine, unclosed, dropClosingMark_behind opens.visible, dropClosingMark, spaced]
  by_cases closes : isClosingMark line = true
  · rw [if_pos closes, List.append_nil, opens.dropOpening_alone]
    obtain ⟨c, cs, rfl⟩ := List.exists_cons_of_ne_nil (isClosingMark_iff.mp closes).filled
    rw [dropClosingMark, trimmed, if_pos closes]
  · rw [if_neg closes, opens.dropOpening]

theorem single (opens : LineMark mark) (whole : '\n' ∉ line) : '\n' ∉ mark ++ ' ' :: line := by
  intro member
  rcases List.mem_append.mp member with inside | behind
  · exact absurd (opens.visible _ inside).1 (by decide)
  · rcases List.mem_cons.mp behind with same | inside
    · exact absurd same (by decide)
    · exact whole inside

theorem ending (trimmed : trimChars line = line) :
    mark ++ ' ' :: line ≠ [] ∧ (mark ++ ' ' :: line).getLast? ≠ some '\r' := by
  refine ⟨by simp, fun last => ?_⟩
  rw [List.getLast?_append_of_ne_nil _ (List.cons_ne_nil ' ' line), List.getLast?_cons] at last
  cases there : line.getLast? with
  | none =>
    rw [there] at last
    exact absurd last (by decide)
  | some c =>
    rw [there] at last
    cases last
    exact absurd (trimmed_last trimmed there) (by decide)

end LineMark

theorem pieces_join (filled : lines ≠ []) (single : ∀ line ∈ lines, '\n' ∉ line) :
    pieces (· == '\n') (joinLines lines) = lines := by
  have plain {line : List Char} (whole : '\n' ∉ line) : pieces (· == '\n') line = [line] :=
    pieces_whole fun c member => by
      simpa using fun same : c = '\n' => whole (same ▸ member)
  induction lines with
  | nil => exact absurd rfl filled
  | cons line lines ih =>
    obtain ⟨here, later⟩ := List.forall_mem_cons.mp single
    cases lines with
    | nil => rw [joinLines, List.intercalate_singleton, plain here]
    | cons next lines =>
      have rest := ih (List.cons_ne_nil next lines) later
      rw [joinLines, List.intercalate_cons_cons, List.append_assoc]
      rw [List.singleton_append, pieces_append rfl, plain here]
      rw [joinLines] at rest
      rw [rest, List.singleton_append]

theorem lineChars_join (filled : lines ≠ []) (single : ∀ line ∈ lines, '\n' ∉ line)
    (ending : ∀ line ∈ lines, line ≠ [] ∧ line.getLast? ≠ some '\r') :
    lineChars (joinLines lines) = lines := by
  obtain rfl | ⟨front, last, rfl⟩ := List.eq_nil_or_concat' lines
  · exact absurd rfl filled
  · have member : last ∈ front ++ [last] := List.mem_append_right _ (List.mem_singleton_self _)
    obtain ⟨c, cs, rfl⟩ := List.exists_cons_of_ne_nil (ending last member).1
    simp only [lineChars, pieces_join filled single, List.getLast?_append, List.getLast?_singleton,
      Option.some_or, List.dropLast_concat]
    refine congrArg (· ++ [c :: cs])
      ((List.map_congr_left fun line listed => ?_).trans (List.map_id front))
    have kept := (ending line (List.mem_append_left _ listed)).2
    rw [List.getLast?_eq_head?_reverse] at kept
    split
    · next rest back => exact absurd (congrArg List.head? back) kept
    · rfl

theorem dropOuterBlank_eq (lines : List (List Char)) :
    dropOuterBlank lines = (lines.dropWhile (·.all isBlank)).rdropWhile (·.all isBlank) := rfl

theorem dropOuterBlank_sublist (lines : List (List Char)) :
    (dropOuterBlank lines).Sublist lines := by
  rw [dropOuterBlank_eq]
  exact (List.rdropWhile_prefix _ _).sublist.trans (List.dropWhile_suffix _).sublist

theorem trimmed_all_blank (trimmed : trimChars line = line) :
    line.all isBlank = true ↔ line = [] := by
  constructor
  · intro blank
    have dropped := trimChars_before (List.all_eq_true.mp blank) []
    rw [List.append_nil, trimmed] at dropped
    exact dropped
  · rintro rfl
    rfl

theorem dropOuterBlank_kept (trimmed : ∀ line ∈ lines, trimChars line = line)
    (first : lines.head? ≠ some []) (last : lines.getLast? ≠ some []) :
    dropOuterBlank lines = lines := by
  have visible {line : List Char} (listed : line ∈ lines) (filled : line ≠ []) :
      ¬ line.all isBlank = true := mt (trimmed_all_blank (trimmed line listed)).mp filled
  have start : lines.dropWhile (·.all isBlank) = lines := by
    cases lines with
    | nil => rfl
    | cons line lines =>
      have text := visible (List.mem_cons_self ..) fun empty => first (empty ▸ rfl)
      rw [List.dropWhile_cons, if_neg text]
  rw [dropOuterBlank_eq, start]
  refine List.rdropWhile_eq_self_iff.mpr fun filled => ?_
  refine visible (List.getLast_mem filled) fun empty => last ?_
  rw [List.getLast?_eq_some_getLast filled, empty]

-- Lines as a comment holds them: trimmed, and with text in the first and the last one.
structure AreLines (lines : List String) : Prop where
  filled : lines ≠ []
  single : ∀ line ∈ lines, '\n' ∉ line.toList
  trimmed : ∀ line ∈ lines, trim line = line
  first : lines.head? ≠ some ""
  last : lines.getLast? ≠ some ""

def commented (mark : String) (lines : List String) : String := join "\n" (lines.map (mark ++ ·))

def EndsInMark (line : String) : Prop := ∃ mark, ClosingMark mark ∧ mark <:+ line.toList

theorem join_toList (lines : List String) :
    (join "\n" lines).toList = joinLines (lines.map String.toList) := String.toList_intercalate

theorem cleanComment_commented {mark : List Char} (opens : LineMark mark) {lines : List String}
    (plain : AreLines lines) :
    cleanComment (commented (String.ofList (mark ++ [' '])) lines) =
      String.ofList (joinLines (dropOuterBlank (lines.map fun line => unclosed line.toList))) := by
  have raw : (commented (String.ofList (mark ++ [' '])) lines).toList =
      joinLines (lines.map fun line => mark ++ ' ' :: line.toList) := by
    rw [commented, join_toList, List.map_map]
    refine congrArg joinLines (List.map_congr_left fun line _ => ?_)
    simp
  have cut : lineChars (joinLines (lines.map fun line => mark ++ ' ' :: line.toList)) =
      lines.map fun line => mark ++ ' ' :: line.toList := by
    refine lineChars_join (by simpa using plain.filled) ?_ ?_
    all_goals
      intro text listed
      obtain ⟨line, member, rfl⟩ := List.mem_map.mp listed
    · exact opens.single (plain.single line member)
    · exact LineMark.ending (trim_eq_iff.mp (plain.trimmed line member))
  rw [cleanComment, raw, cut, List.map_map]
  refine congrArg (fun ls => String.ofList (joinLines (dropOuterBlank ls)))
    (List.map_congr_left fun line listed => ?_)
  exact opens.cleanLine_marked (trim_eq_iff.mp (plain.trimmed line listed))

theorem AreLines.unclosed_all_iff {lines : List String} (plain : AreLines lines) :
    (lines.map fun line => unclosed line.toList) = lines.map String.toList ↔
      ∀ line ∈ lines, ¬ EndsInMark line := by
  rw [List.map_inj_left]
  refine forall₂_congr fun line listed => ?_
  rw [unclosed_iff (trim_eq_iff.mp (plain.trimmed line listed)), EndsInMark]
  simp

theorem AreLines.joined_iff {lines : List String} (plain : AreLines lines)
    {others : List (List Char)} (part : others.Sublist (lines.map fun line => unclosed line.toList)) :
    joinLines others = joinLines (lines.map String.toList) ↔
      others = lines.map String.toList := by
  refine ⟨fun joined => ?_, congrArg joinLines⟩
  have cut : pieces (· == '\n') (joinLines (lines.map String.toList)) = lines.map String.toList :=
    pieces_join (by simpa using plain.filled) (by simpa using plain.single)
  have single : ∀ other ∈ others, '\n' ∉ other := by
    intro other listed inside
    obtain ⟨line, member, rfl⟩ := List.mem_map.mp (part.subset listed)
    exact plain.single line member ((unclosed_front line.toList).subset inside)
  rw [← joined] at cut
  by_cases empty : others = []
  · -- Nothing at all is one empty line, and the first line is none.
    rw [empty] at cut
    have first : (lines.map String.toList).head? = some [] := cut ▸ rfl
    rw [List.head?_map, Option.map_eq_some_iff] at first
    obtain ⟨line, head, empty⟩ := first
    exact absurd (String.toList_eq_nil_iff.mp empty ▸ head) plain.first
  · rwa [pieces_join empty single] at cut

theorem AreLines.kept {lines : List String} (plain : AreLines lines) :
    dropOuterBlank (lines.map String.toList) = lines.map String.toList := by
  refine dropOuterBlank_kept ?_ ?_ ?_
  · intro text listed
    obtain ⟨line, member, rfl⟩ := List.mem_map.mp listed
    exact trim_eq_iff.mp (plain.trimmed line member)
  · simpa using plain.first
  · simpa using plain.last

-- A line comment is read line by line, and a line loses a closing mark at its end with the blanks
-- before it. The comment is read as it was written if and only if no line ends in such a mark.
theorem line_comment_kept_iff {mark : String} (isMark : mark ∈ ["// ", "# "])
    {lines : List String} (plain : AreLines lines) :
    cleanComment (commented mark lines) =
        String.ofList (joinLines (dropOuterBlank (lines.map fun line => unclosed line.toList))) ∧
      (∀ line ∈ lines, unclosed line.toList = line.toList ∨
        ∃ gap mark, line.toList = unclosed line.toList ++ gap ++ mark ∧
          (∀ c ∈ gap, isBlank c = true) ∧ ClosingMark mark) ∧
      (cleanComment (commented mark lines) = join "\n" lines ↔
        ∀ line ∈ lines, ¬ EndsInMark line) := by
  have reads : cleanComment (commented mark lines) =
      String.ofList (joinLines (dropOuterBlank (lines.map fun line => unclosed line.toList))) := by
    rcases List.mem_cons.mp isMark with rfl | isMark
    · exact cleanComment_commented slashes_lineMark plain
    · rw [List.mem_singleton.mp isMark]
      exact cleanComment_commented hash_lineMark plain
  have loses : ∀ line ∈ lines, unclosed line.toList = line.toList ∨ _ := fun line listed =>
    unclosed_loses (trim_eq_iff.mp (plain.trimmed line listed))
  refine ⟨reads, loses, ?_⟩
  rw [reads, ← String.toList_inj, String.toList_ofList, join_toList,
    plain.joined_iff (dropOuterBlank_sublist _), ← plain.unclosed_all_iff]
  constructor
  · intro kept
    have length := congrArg List.length kept
    rw [List.length_map] at length
    have whole := (dropOuterBlank_sublist _).eq_of_length (length.trans (List.length_map _).symm)
    exact whole.symm.trans kept
  · intro kept
    rw [kept, plain.kept]

theorem bracketed_lines_are_kept :
    let lines := ["Sums up.", "", "See a[0] and (b)."]
    "# " ∈ ["// ", "# "] ∧ AreLines lines ∧ (∀ line ∈ lines, ¬ EndsInMark line) ∧
      cleanComment (commented "# " lines) = join "\n" lines := by
  intro lines
  have plain : AreLines lines :=
    ⟨by decide, by decide +kernel, by decide +kernel, by decide, by decide⟩
  have unmarked : ∀ line ∈ lines, ¬ EndsInMark line := plain.unclosed_all_iff.mp (by decide +kernel)
  exact ⟨by decide, plain, unmarked, (line_comment_kept_iff (by decide) plain).2.2.mpr unmarked⟩

-- The brackets of the text are taken for the end of a long comment.
theorem double_bracket_is_cut_off :
    AreLines ["See a[b[0]]"] ∧ cleanComment (commented "// " ["See a[b[0]]"]) = "See a[b[0" ∧
      ¬ ∀ lines, AreLines lines → cleanComment (commented "// " lines) = join "\n" lines := by
  have plain : AreLines ["See a[b[0]]"] :=
    ⟨by decide, by decide +kernel, by decide +kernel, by decide, by decide⟩
  have cleaned : cleanComment (commented "// " ["See a[b[0]]"]) = "See a[b[0" := by
    decide +kernel
  refine ⟨plain, cleaned, fun kept => ?_⟩
  have whole := kept _ plain
  rw [cleaned] at whole
  revert whole
  decide +kernel

end CodeEntities.Text
