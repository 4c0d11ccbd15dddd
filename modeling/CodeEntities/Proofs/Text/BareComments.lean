import CodeEntities.Proofs.Text.CleanedLines

namespace CodeEntities.Text

-- Nothing but stars and white space.
def isFiller (c : Char) : Bool := c == '*' || isBlank c

def blockComment (body : String) : String := "/*" ++ body ++ "*/"

inductive BlockEnd : List Char → Prop where
  | open : BlockEnd []
  | closed (n : Nat) : BlockEnd (List.replicate (n + 1) '*' ++ ['/'])

-- A line that holds nothing but marks: at most one star, or the opening mark, in front of the end
-- of the line. Only blanks keep an opening mark apart from a closing one.
inductive SilentLine : List Char → Prop where
  | within {lead star gap closing : List Char} (before : ∀ c ∈ lead, isBlank c = true)
      (single : star = [] ∨ star = ['*']) (between : ∀ c ∈ gap, isBlank c = true)
      (ending : BlockEnd closing) :
      SilentLine (lead ++ star ++ gap ++ closing)
  | opening {gap closing : List Char} (n : Nat) (between : ∀ c ∈ gap, isBlank c = true)
      (ending : BlockEnd closing) (apart : closing ≠ [] → gap ≠ []) :
      SilentLine ('/' :: List.replicate (n + 1) '*' ++ gap ++ closing)

variable {c : Char} {cs gap lead line more star text closing : List Char} {body : String}

theorem filler_cases (filler : isFiller c = true) : c = '*' ∨ isBlank c = true := by
  simpa [isFiller] using filler

theorem filler_replicate (n : Nat) : ∀ c ∈ List.replicate n '*', isFiller c = true := by
  intro c member
  rw [List.eq_of_mem_replicate member]
  rfl

theorem blank_filler (blank : ∀ c ∈ cs, isBlank c = true) : ∀ c ∈ cs, isFiller c = true :=
  fun c member => by rw [isFiller, blank c member, Bool.or_true]

-- The closing mark of a line.

theorem ClosingMark.unfilled (closes : ClosingMark cs) : ∃ c ∈ cs, isFiller c = false := by
  cases closes with
  | stars n => exact ⟨'/', by simp, rfl⟩
  | dashes n => exact ⟨'}', by simp, rfl⟩
  | brackets n => exact ⟨']', by simp, rfl⟩

theorem dropClosingMark_filler (filler : ∀ c ∈ cs, isFiller c = true) :
    dropClosingMark cs = cs := by
  refine dropClosingMark_eq_iff.mpr fun ending last closes => ?_
  obtain ⟨c, member, other⟩ := closes.unfilled
  have inside : c ∈ cs := last.subset ((trimChars_cut ending).subset member)
  rw [filler c inside] at other
  cases other

theorem dropClosingMark_whole (between : ∀ c ∈ gap, isBlank c = true)
    (closes : ClosingMark closing) : dropClosingMark (gap ++ closing) = [] := by
  have trimmed : trimChars (gap ++ closing) = closing :=
    (trimChars_before between closing).trans closes.trimmed
  cases whole : gap ++ closing with
  | nil => rfl
  | cons c cs => rw [dropClosingMark, ← whole, trimmed, if_pos (isClosingMark_iff.mpr closes)]

theorem trimChars_keeps (front gap : List Char) {first : Char} (visible : isBlank first = false)
    (solid : ∀ c ∈ closing, isBlank c = false) (filled : closing ≠ []) :
    first :: (gap ++ closing) <:+ trimChars (front ++ first :: (gap ++ closing)) := by
  have start : ∃ rest, (front ++ first :: (gap ++ closing)).dropWhile isBlank =
      rest ++ first :: (gap ++ closing) := by
    rw [List.dropWhile_append]
    split
    · exact ⟨[], by rw [List.dropWhile_cons, visible]; rfl⟩
    · exact ⟨_, rfl⟩
  obtain ⟨rest, start⟩ := start
  obtain ⟨most, last, rfl⟩ := (List.eq_nil_or_concat' closing).resolve_left filled
  have ending : isBlank last = false :=
    solid last (List.mem_append_right _ (List.mem_singleton_self last))
  have shape : rest ++ first :: (gap ++ (most ++ [last])) =
      (rest ++ first :: (gap ++ most)) ++ [last] := by simp
  rw [trimChars_eq, start, shape, List.rdropWhile_concat, if_neg (by simp [ending]), ← shape]
  exact List.suffix_append rest _

-- White space between a star and the closing mark keeps the star.
theorem not_closing_before (filled : gap ≠ []) (between : ∀ c ∈ gap, isBlank c = true)
    (closes : ClosingMark closing) (front : List Char) :
    ¬ ClosingMark (trimChars (front ++ '*' :: (gap ++ closing))) := by
  intro whole
  have kept : '*' :: (gap ++ closing) <:+ trimChars (front ++ '*' :: (gap ++ closing)) :=
    trimChars_keeps front gap rfl closes.visible closes.filled
  obtain ⟨b, member⟩ := List.exists_mem_of_ne_nil gap filled
  have inside : b ∈ trimChars (front ++ '*' :: (gap ++ closing)) :=
    kept.subset (List.mem_cons_of_mem _ (List.mem_append_left _ member))
  exact Bool.false_ne_true ((whole.visible b inside).symm.trans (between b member))

theorem dropClosingMark_behind_star (filled : gap ≠ []) (between : ∀ c ∈ gap, isBlank c = true)
    (closes : ClosingMark closing) (front : List Char) :
    dropClosingMark (front ++ '*' :: (gap ++ closing)) = front ++ ['*'] := by
  induction front with
  | nil =>
    have kept := mt isClosingMark_iff.mp (not_closing_before filled between closes [])
    rw [List.nil_append] at kept ⊢
    rw [dropClosingMark, if_neg kept, dropClosingMark_whole between closes, List.nil_append]
  | cons c front ih =>
    have kept := mt isClosingMark_iff.mp (not_closing_before filled between closes (c :: front))
    rw [List.cons_append] at kept ⊢
    rw [dropClosingMark, if_neg kept, ih, List.cons_append]

theorem trailing_split (p : Char → Bool) (cs : List Char) :
    ∃ front back, cs = front ++ back ∧ (∀ c ∈ back, p c = true) ∧
      ∀ c, front.getLast? = some c → p c = false := by
  refine ⟨cs.rdropWhile p, cs.rtakeWhile p, List.rdropWhile_append_rtakeWhile.symm,
    fun _ => List.mem_rtakeWhile_imp, fun c last => ?_⟩
  have filled := List.ne_nil_of_mem (List.mem_of_getLast? last)
  rw [List.getLast?_eq_some_getLast filled] at last
  exact Bool.eq_false_iff.mpr (Option.some.inj last ▸ List.rdropWhile_last_not p cs filled)

theorem filler_split (filler : ∀ c ∈ cs, isFiller c = true) :
    ∃ rest gap n, cs = rest ++ gap ++ List.replicate n '*' ∧ (∀ c ∈ gap, isBlank c = true) ∧
      (rest = [] ∨ ∃ front, rest = front ++ ['*'] ∧ gap ≠ []) := by
  obtain ⟨inner, stars, rfl, same, unstarred⟩ := trailing_split (· == '*') cs
  obtain ⟨rest, gap, rfl, between, unspaced⟩ := trailing_split isBlank inner
  refine ⟨rest, gap, stars.length, ?_, between, ?_⟩
  · rw [← all_replicate (List.all_eq_true.mpr same)]
  · rcases List.eq_nil_or_concat' rest with rfl | ⟨front, last, rfl⟩
    · exact .inl rfl
    · have visible : isBlank last = false := unspaced last (by simp)
      have known : last = '*' ∨ isBlank last = true := filler_cases (filler last (by simp))
      have star : last = '*' := known.resolve_right (by simp [visible])
      subst star
      refine .inr ⟨front, rfl, ?_⟩
      rintro rfl
      exact absurd (unstarred '*' (by simp)) (by decide)

theorem dropClosingMark_split (filler : ∀ c ∈ cs, isFiller c = true)
    (ending : text = [] ∨ text = ['*', '/']) :
    ∃ gap closing, cs ++ text = dropClosingMark (cs ++ text) ++ gap ++ closing ∧
      (∀ c ∈ gap, isBlank c = true) ∧ BlockEnd closing ∧
      (∀ c ∈ dropClosingMark (cs ++ text), isFiller c = true) ∧
      (closing ≠ [] → gap = [] → dropClosingMark (cs ++ text) = []) := by
  rcases ending with rfl | rfl
  · rw [List.append_nil, dropClosingMark_filler filler]
    exact ⟨[], [], by simp, by simp, .open, filler, fun filled => absurd rfl filled⟩
  · obtain ⟨rest, gap, n, rfl, between, shape⟩ := filler_split filler
    have closes : ClosingMark (List.replicate (n + 1) '*' ++ ['/']) := .stars n
    have line : rest ++ gap ++ List.replicate n '*' ++ ['*', '/'] =
        rest ++ gap ++ (List.replicate (n + 1) '*' ++ ['/']) := by
      rw [List.replicate_succ']
      simp
    have left : dropClosingMark (rest ++ gap ++ (List.replicate (n + 1) '*' ++ ['/'])) = rest := by
      rcases shape with rfl | ⟨front, rfl, filled⟩
      · exact dropClosingMark_whole between closes
      · have behind := dropClosingMark_behind_star filled between closes front
        rwa [← List.singleton_append, ← List.append_assoc, ← List.append_assoc] at behind
    rw [line, left]
    refine ⟨gap, _, rfl, between, .closed n, fun c member => filler c ?_, fun _ gapless => ?_⟩
    · exact List.mem_append_left _ (List.mem_append_left _ member)
    · exact shape.resolve_right fun ⟨_, _, filled⟩ => filled gapless

-- The opening mark of a line.

theorem dropOne_blank_iff : (dropOne isBlank cs).all isBlank ↔ cs.all isBlank := by
  cases cs with
  | nil => rfl
  | cons c cs =>
    rw [dropOne]
    split
    · next blank => rw [List.all_cons, blank, Bool.true_and]
    · rfl

theorem afterOpeningMark_star (filler : ∀ c ∈ cs, isFiller c = true) :
    afterOpeningMark? ('*' :: cs) = some cs := by
  rw [afterOpeningMark?]
  split
  · next rest found =>
    have inside : '/' ∈ cs :=
      (List.dropWhile_suffix _).subset (found ▸ List.mem_cons_self (a := '/') (l := rest))
    exact absurd (filler '/' inside) (by decide)
  · rfl

-- One star is an opening mark; a further one is text.
theorem dropOpeningMark_filler_iff (filler : ∀ c ∈ cs, isFiller c = true) :
    (dropOpeningMark cs).all isBlank ↔ ∃ lead star gap, cs = lead ++ star ++ gap ∧
      (∀ c ∈ lead, isBlank c = true) ∧ (star = [] ∨ star = ['*']) ∧
      ∀ c ∈ gap, isBlank c = true := by
  have start := List.takeWhile_append_dropWhile (p := isBlank) (l := cs)
  have lead : ∀ c ∈ cs.takeWhile isBlank, isBlank c = true := fun _ => List.mem_takeWhile_imp
  rw [dropOpeningMark]
  cases behind : cs.dropWhile isBlank with
  | nil =>
    have blank : ∀ c ∈ cs, isBlank c = true := List.dropWhile_eq_nil_iff.mp behind
    exact iff_of_true (List.all_eq_true.mpr blank) ⟨cs, [], [], by simp, blank, .inl rfl, by simp⟩
  | cons c more =>
    rw [behind] at start
    have inside : ∀ d ∈ c :: more, isFiller d = true := fun d member =>
      filler d (start ▸ List.mem_append_right _ member)
    have visible : isBlank c = false := by
      have first := List.head_dropWhile_not isBlank (l := cs) (by simp [behind])
      simpa [behind] using first
    obtain ⟨known, later⟩ := List.forall_mem_cons.mp inside
    have same : c = '*' := (filler_cases known).resolve_right (by simp [visible])
    subst same
    simp only [afterOpeningMark_star later]
    rw [dropOne_blank_iff, List.all_eq_true]
    constructor
    · intro blank
      exact ⟨_, ['*'], more, by simpa using start.symm, lead, .inr rfl, blank⟩
    · rintro ⟨before, star, gap, rfl, blank, single, between⟩
      rw [List.append_assoc, List.dropWhile_append_of_pos blank] at behind
      rcases single with rfl | rfl
      · have passed := List.dropWhile_eq_nil_iff.mpr between
        rw [List.nil_append, passed] at behind
        cases behind
      · cases behind
        exact between

theorem dropOpeningMark_block (filler : ∀ c ∈ cs, isFiller c = true) :
    (dropOpeningMark ('/' :: '*' :: cs)).all isBlank ↔ (cs.dropWhile (· == '*')).all isBlank := by
  have plain : dropOne (· == '!') (cs.dropWhile (· == '*')) = cs.dropWhile (· == '*') := by
    cases behind : cs.dropWhile (· == '*') with
    | nil => rfl
    | cons c more =>
      have inside : c ∈ cs := (List.dropWhile_suffix _).subset (behind ▸ List.mem_cons_self ..)
      have other : (c == '!') = false := by
        refine beq_eq_false_iff_ne.mpr ?_
        rintro rfl
        exact absurd (filler '!' inside) (by decide)
      rw [dropOne, if_neg (by simp [other])]
  have start : ('/' :: '*' :: cs).dropWhile isBlank = '/' :: '*' :: cs := rfl
  rw [dropOpeningMark, start, afterOpeningMark?, plain]
  exact dropOne_blank_iff

theorem cleanLine_blank_iff :
    (cleanLine line).all isBlank ↔ (dropOpeningMark (dropClosingMark line)).all isBlank := by
  have split := List.rdropWhile_append_rtakeWhile (p := isBlank)
    (l := dropOpeningMark (dropClosingMark line))
  rw [cleanLine, trimEndChars, dropTrailing_eq]
  nth_rewrite 2 [← split]
  rw [List.all_append, Bool.and_eq_true]
  refine (and_iff_left (List.all_eq_true.mpr fun c member => ?_)).symm
  exact List.mem_rtakeWhile_imp member

-- The lines of a comment of marks.

theorem dropClosingMark_slash (cs : List Char) :
    dropClosingMark ('/' :: cs) = '/' :: dropClosingMark cs := by
  have visible : ∀ c ∈ ['/'], isBlank c = false ∧ opensClosing c = false := by
    simp [opensClosing, isBlank]
  exact dropClosingMark_behind visible cs

theorem within_blank {closing : List Char} (before : ∀ c ∈ lead, isBlank c = true)
    (single : star = [] ∨ star = ['*']) (between : ∀ c ∈ gap, isBlank c = true)
    (ending : BlockEnd closing) : (cleanLine (lead ++ star ++ gap ++ closing)).all isBlank := by
  have filler : ∀ c ∈ lead ++ star ++ gap, isFiller c = true := by
    have plain : ∀ c ∈ star, isFiller c = true := by rcases single with rfl | rfl <;> simp [isFiller]
    simp only [List.forall_mem_append]
    exact ⟨⟨blank_filler before, plain⟩, blank_filler between⟩
  rw [cleanLine_blank_iff]
  cases ending with
  | «open» =>
    rw [List.append_nil, dropClosingMark_filler filler, dropOpeningMark_filler_iff filler]
    exact ⟨lead, star, gap, rfl, before, single, between⟩
  | closed n =>
    rcases single with rfl | rfl
    · have blank : ∀ c ∈ lead ++ [] ++ gap, isBlank c = true := by
        simpa using List.forall_mem_append.mpr ⟨before, between⟩
      rw [dropClosingMark_whole blank (.stars n)]
      rfl
    · rcases eq_or_ne gap [] with rfl | filled
      · have line : lead ++ ['*'] ++ [] ++ (List.replicate (n + 1) '*' ++ ['/']) =
            lead ++ (List.replicate (n + 2) '*' ++ ['/']) := by simp [List.replicate_succ]
        rw [line, dropClosingMark_whole before (.stars (n + 1))]
        rfl
      · have behind := dropClosingMark_behind_star filled between (.stars n) lead
        have line : lead ++ ['*'] ++ gap ++ (List.replicate (n + 1) '*' ++ ['/']) =
            lead ++ '*' :: (gap ++ (List.replicate (n + 1) '*' ++ ['/'])) := by simp
        rw [line, behind, dropOpeningMark_filler_iff (List.forall_mem_append.mp filler).1]
        exact ⟨lead, ['*'], [], by simp, before, .inr rfl, by simp⟩

theorem skipped_blank (n : Nat) (between : ∀ c ∈ gap, isBlank c = true) :
    (dropOpeningMark ('/' :: '*' :: (List.replicate n '*' ++ gap))).all isBlank := by
  rw [dropOpeningMark_block
      (List.forall_mem_append.mpr ⟨filler_replicate n, blank_filler between⟩),
    List.dropWhile_append_of_pos (fun c member => by simp [List.eq_of_mem_replicate member])]
  exact List.all_eq_true.mpr fun c member =>
    between c ((List.dropWhile_suffix _).subset member)

theorem opening_blank {closing : List Char} (n : Nat) (between : ∀ c ∈ gap, isBlank c = true)
    (ending : BlockEnd closing) (apart : closing ≠ [] → gap ≠ []) :
    (cleanLine ('/' :: List.replicate (n + 1) '*' ++ gap ++ closing)).all isBlank := by
  rw [cleanLine_blank_iff, List.cons_append, List.cons_append, dropClosingMark_slash]
  cases ending with
  | «open» =>
    have filler : ∀ c ∈ List.replicate (n + 1) '*' ++ gap, isFiller c = true :=
      List.forall_mem_append.mpr ⟨filler_replicate (n + 1), blank_filler between⟩
    rw [List.append_nil, dropClosingMark_filler filler]
    exact skipped_blank n between
  | closed m =>
    have behind := dropClosingMark_behind_star (apart (by simp)) between (.stars m)
      (List.replicate n '*')
    have line : List.replicate (n + 1) '*' ++ gap ++ (List.replicate (m + 1) '*' ++ ['/']) =
        List.replicate n '*' ++ '*' :: (gap ++ (List.replicate (m + 1) '*' ++ ['/'])) := by
      simp [List.replicate_succ']
    rw [line, behind, ← List.replicate_succ']
    have skipped : (dropOpeningMark ('/' :: '*' :: (List.replicate n '*' ++ []))).all isBlank :=
      skipped_blank n (List.forall_mem_nil _)
    simpa [List.replicate_succ] using skipped

theorem SilentLine.blank (silent : SilentLine line) : (cleanLine line).all isBlank := by
  cases silent with
  | within before single between ending => exact within_blank before single between ending
  | opening n between ending apart => exact opening_blank n between ending apart

theorem silent_within (filler : ∀ c ∈ cs, isFiller c = true) (ending : text = [] ∨ text = ['*', '/'])
    (blank : (cleanLine (cs ++ text)).all isBlank) : SilentLine (cs ++ text) := by
  obtain ⟨gap, closing, split, between, closes, rest, _⟩ := dropClosingMark_split filler ending
  rw [cleanLine_blank_iff, dropOpeningMark_filler_iff rest] at blank
  obtain ⟨lead, star, more, left, before, single, behind⟩ := blank
  have line : cs ++ text = lead ++ star ++ (more ++ gap) ++ closing := by
    rw [split, left]
    simp
  rw [line]
  exact .within before single (List.forall_mem_append.mpr ⟨behind, between⟩) closes

theorem silent_opening (filler : ∀ c ∈ cs, isFiller c = true)
    (ending : text = [] ∨ text = ['*', '/'])
    (blank : (cleanLine ('/' :: '*' :: (cs ++ text))).all isBlank) :
    SilentLine ('/' :: '*' :: (cs ++ text)) := by
  have fills : ∀ c ∈ '*' :: cs, isFiller c = true := List.forall_mem_cons.mpr ⟨rfl, filler⟩
  obtain ⟨gap, closing, split, between, closes, rest, apart⟩ := dropClosingMark_split fills ending
  rw [cleanLine_blank_iff, dropClosingMark_slash] at blank
  rw [List.cons_append] at split rest apart
  cases left : dropClosingMark ('*' :: (cs ++ text)) with
  | nil =>
    -- The closing mark has taken the star of the opening one.
    rw [left] at blank
    exact absurd blank (by decide)
  | cons c more =>
    rw [left] at split rest blank apart
    cases (List.cons.inj split).1
    have later : ∀ c ∈ more, isFiller c = true := (List.forall_mem_cons.mp rest).2
    rw [dropOpeningMark_block later, List.all_eq_true] at blank
    have stars := all_replicate (List.all_eq_true.mpr
      fun c member => List.mem_takeWhile_imp (p := (· == '*')) (l := more) member)
    have line : '/' :: '*' :: (cs ++ text) =
        '/' :: List.replicate ((more.takeWhile (· == '*')).length + 1) '*' ++
          (more.dropWhile (· == '*') ++ gap) ++ closing := by
      rw [split, List.replicate_succ, ← stars]
      simp [← List.append_assoc, List.takeWhile_append_dropWhile]
    rw [line]
    refine .opening _ (List.forall_mem_append.mpr ⟨blank, between⟩) closes fun filled empty => ?_
    have gapless : gap = [] := (List.append_eq_nil_iff.mp empty).2
    exact absurd (apart filled gapless) (List.cons_ne_nil _ _)

-- A line of a comment of marks: the opening mark in front if it is the first one, the closing mark
-- behind if it is the last one.
def BareLine (line : List Char) : Prop :=
  ∃ front cs text, line = front ++ (cs ++ text) ∧ (front = [] ∨ front = ['/', '*']) ∧
    (∀ c ∈ cs, isFiller c = true) ∧ (text = [] ∨ text = ['*', '/'])

theorem BareLine.silent_iff (bare : BareLine line) :
    (cleanLine line).all isBlank ↔ SilentLine line := by
  refine ⟨fun blank => ?_, SilentLine.blank⟩
  obtain ⟨front, cs, text, rfl, start, filler, ending⟩ := bare
  rcases start with rfl | rfl
  · rw [List.nil_append] at blank ⊢
    exact silent_within filler ending blank
  · rw [List.cons_append, List.cons_append, List.nil_append] at blank ⊢
    exact silent_opening filler ending blank

theorem BareLine.ofReturn (bare : BareLine (line ++ ['\r'])) : BareLine line := by
  obtain ⟨front, cs, text, whole, start, filler, ending⟩ := bare
  have last := congrArg List.getLast? whole
  rw [List.getLast?_concat] at last
  rcases ending with rfl | rfl
  · rw [List.append_nil] at whole last
    rcases List.eq_nil_or_concat' cs with rfl | ⟨inner, c, rfl⟩
    · rcases start with rfl | rfl
      · cases last
      · exact absurd last (by decide)
    · rw [← List.append_assoc] at whole
      obtain ⟨same, _⟩ := List.append_inj' whole rfl
      exact ⟨front, inner, [], by simpa using same, start,
        (List.forall_mem_append.mp filler).1, .inl rfl⟩
  · rw [← List.append_assoc, List.getLast?_append_of_ne_nil _ (by simp)] at last
    exact absurd last (by decide)

theorem bare_pieces (filler : ∀ c ∈ cs, isFiller c = true) :
    ∀ piece ∈ pieces (· == '\n') (cs ++ ['*', '/']), ∃ ds text, piece = ds ++ text ∧
      (∀ c ∈ ds, isFiller c = true) ∧ (text = [] ∨ text = ['*', '/']) := by
  induction cs with
  | nil =>
    have whole : pieces (· == '\n') ([] ++ ['*', '/']) = [['*', '/']] := rfl
    rw [whole, List.forall_mem_singleton]
    exact ⟨[], ['*', '/'], rfl, by simp, .inr rfl⟩
  | cons c cs ih =>
    obtain ⟨here, later⟩ := List.forall_mem_cons.mp filler
    have behind := ih later
    rw [List.cons_append, pieces]
    split
    · exact List.forall_mem_cons.mpr ⟨⟨[], [], rfl, by simp, .inl rfl⟩, behind⟩
    · cases found : pieces (· == '\n') (cs ++ ['*', '/']) with
      | nil => exact absurd found (pieces_ne_nil _ _)
      | cons first others =>
        rw [found] at behind
        obtain ⟨⟨ds, text, rfl, inside, ending⟩, rest⟩ := List.forall_mem_cons.mp behind
        refine List.forall_mem_cons.mpr ⟨⟨c :: ds, text, rfl, ?_, ending⟩, rest⟩
        exact List.forall_mem_cons.mpr ⟨here, inside⟩

theorem blockComment_bare (filler : ∀ c ∈ body.toList, isFiller c = true)
    (member : line ∈ lineChars (blockComment body).toList) : BareLine line := by
  have parts : ∀ piece ∈ pieces (· == '\n') (blockComment body).toList, BareLine piece := by
    have raw : (blockComment body).toList = '/' :: '*' :: (body.toList ++ ['*', '/']) := by
      simp [blockComment]
    have bare := bare_pieces filler
    rw [raw, pieces, pieces]
    cases found : pieces (· == '\n') (body.toList ++ ['*', '/']) with
    | nil => exact absurd found (pieces_ne_nil _ _)
    | cons first others =>
      rw [found] at bare
      obtain ⟨⟨ds, text, rfl, inside, ending⟩, rest⟩ := List.forall_mem_cons.mp bare
      refine List.forall_mem_cons.mpr ⟨⟨['/', '*'], ds, text, rfl, .inr rfl, inside, ending⟩, ?_⟩
      intro piece listed
      obtain ⟨ds, text, rfl, inside, ending⟩ := rest piece listed
      exact ⟨[], ds, text, rfl, .inl rfl, inside, ending⟩
  obtain ⟨piece, listed, rfl | rfl⟩ := mem_lineChars member
  · exact parts piece listed
  · exact (parts _ listed).ofReturn

-- A comment of marks is cleaned to nothing exactly if every line of it is silent.
theorem blockComment_empty_iff (filler : ∀ c ∈ body.toList, isFiller c = true) :
    cleanComment (blockComment body) = "" ↔
      ∀ line ∈ lineChars (blockComment body).toList, SilentLine line := by
  rw [cleanComment_empty_iff]
  exact forall₂_congr fun line member => (blockComment_bare filler member).silent_iff

end CodeEntities.Text
