import CodeEntities.Proofs.Text.Trim
import CodeEntities.Text.Split

namespace CodeEntities.Text

variable {mark cs ds first last : List Char} {c : Char} {s : String}

-- A mark does not reach over a character that it does not hold.

theorem prefix_apart (other : c ∉ mark) (cs : List Char) :
    mark <+: cs ++ c :: ds ↔ mark <+: cs := by
  refine ⟨fun found => ?_, List.prefix_append_of_prefix⟩
  induction cs generalizing mark with
  | nil =>
    cases mark with
    | nil => exact List.nil_prefix
    | cons m mark => exact absurd (List.cons_prefix_cons.mp found).1 (by grind)
  | cons x cs ih =>
    cases mark with
    | nil => exact List.nil_prefix
    | cons m mark =>
      obtain ⟨same, found⟩ := List.cons_prefix_cons.mp found
      exact List.cons_prefix_cons.mpr ⟨same, ih (fun held => other (.tail m held)) found⟩

theorem infix_apart (filled : mark ≠ []) (other : c ∉ mark) (found : mark <:+: cs ++ c :: ds) :
    mark <:+: cs ∨ mark <:+: ds := by
  induction cs with
  | nil =>
    rcases List.infix_cons_iff.mp found with here | later
    · exact absurd (List.prefix_nil.mp ((prefix_apart other []).mp here)) filled
    · exact .inr later
  | cons x cs ih =>
    rcases List.infix_cons_iff.mp found with here | later
    · exact .inl ((prefix_apart other (x :: cs)).mp here).isInfix
    · exact (ih later).imp_left (List.infix_cons_iff.mpr ∘ .inr)

theorem infix_separated {separator : List Char} (filled : mark ≠ []) (apart : separator ≠ [])
    (other : ∀ c ∈ separator, c ∉ mark) (found : mark <:+: cs ++ separator ++ ds) :
    mark <:+: cs ∨ mark <:+: ds := by
  induction separator generalizing cs with
  | nil => exact absurd rfl apart
  | cons c separator ih =>
    obtain ⟨here, others⟩ := List.forall_mem_cons.mp other
    rw [List.append_assoc] at found
    rcases infix_apart filled here found with first | later
    · exact .inl first
    · by_cases last : separator = []
      · exact .inr (by rwa [last] at later)
      · have later : mark <:+: [] ++ separator ++ ds := later
        refine .inr ((ih last others later).resolve_left fun empty => ?_)
        exact filled (List.infix_nil.mp empty)

-- What holds nothing of the separator and stands in a list stands in one of the items.
theorem infix_join {separator : List Char} {items : List (List Char)} (filled : mark ≠ [])
    (apart : separator ≠ []) (other : ∀ c ∈ separator, c ∉ mark)
    (found : mark <:+: separator.intercalate items) : ∃ item ∈ items, mark <:+: item := by
  induction items with
  | nil => exact absurd (List.infix_nil.mp found) filled
  | cons item items ih =>
    by_cases alone : items = []
    · rw [alone, List.intercalate_singleton] at found
      exact ⟨item, List.mem_cons_self .., found⟩
    · rw [List.intercalate_cons_of_ne_nil alone] at found
      rcases infix_separated filled apart other found with here | later
      · exact ⟨item, List.mem_cons_self .., here⟩
      · obtain ⟨other, member, inside⟩ := ih later
        exact ⟨other, List.mem_cons_of_mem _ member, inside⟩

theorem char_join {separator : List Char} {items : List (List Char)} (apart : separator ≠ [])
    (other : c ∉ separator) (absent : ∀ item ∈ items, c ∉ item) :
    c ∉ separator.intercalate items := by
  intro member
  obtain ⟨front, rest, text⟩ := List.append_of_mem member
  have found : [c] <:+: separator.intercalate items := ⟨front, rest, by simp [text]⟩
  obtain ⟨item, listed, inside⟩ := infix_join (List.cons_ne_nil c []) apart
    (fun x held same => other (List.mem_singleton.mp same ▸ held)) found
  exact absent item listed (inside.subset (List.mem_singleton_self c))

theorem join_ending (items : List (List Char)) :
    ∃ front, ∀ last, [',', ' '].intercalate (items ++ [last]) = front ++ last := by
  induction items with
  | nil => exact ⟨[], fun last => List.intercalate_singleton⟩
  | cons item items ih =>
    obtain ⟨front, joined⟩ := ih
    refine ⟨item ++ [',', ' '] ++ front, fun last => ?_⟩
    rw [List.cons_append, List.intercalate_cons_of_ne_nil (List.concat_ne_nil last items), joined,
      ← List.append_assoc]

-- The cut at the first mark.

theorem cutChars_first (filled : mark ≠ [])
    (clear : ∀ tail, tail ≠ [] → tail <:+ cs → ¬ mark <+: tail ++ (mark ++ ds)) :
    cutChars mark (cs ++ (mark ++ ds)) = some (cs, ds) := by
  induction cs with
  | nil =>
    obtain ⟨m, ms, rfl⟩ := List.exists_cons_of_ne_nil filled
    have here := List.isPrefixOf_iff_prefix.mpr (List.prefix_append (m :: ms) ds)
    rw [List.cons_append] at here
    rw [List.nil_append, List.cons_append, cutChars, if_pos here, ← List.cons_append,
      List.drop_left]
  | cons c cs ih =>
    have here := clear (c :: cs) (List.cons_ne_nil c cs) List.suffix_rfl
    have later := ih fun tail full ending => clear tail full (ending.trans (List.suffix_cons c cs))
    rw [List.cons_append] at here
    rw [List.cons_append, cutChars, if_neg (List.isPrefixOf_iff_prefix.not.mpr here), later]
    rfl

theorem cutChars_char (absent : c ∉ cs) (ds : List Char) :
    cutChars [c] (cs ++ c :: ds) = some (cs, ds) := by
  refine cutChars_first (List.cons_ne_nil c []) fun tail full ending found => absent ?_
  obtain ⟨x, rest, rfl⟩ := List.exists_cons_of_ne_nil full
  obtain ⟨rfl, _⟩ := List.cons_prefix_cons.mp found
  exact ending.subset (List.mem_cons_self ..)

theorem cutChars_behind (filled : mark ≠ []) (other : c ∉ mark) (absent : ¬ mark <:+: cs)
    (ds : List Char) : cutChars mark (cs ++ [c] ++ (mark ++ ds)) = some (cs ++ [c], ds) := by
  refine cutChars_first filled fun tail full ending found => absent ?_
  obtain ⟨front, rfl, within⟩ := (List.suffix_concat_iff.mp ending).resolve_left full
  rw [List.append_assoc] at found
  exact ((prefix_apart other _).mp found).isInfix.trans within.isInfix

theorem cut_of_chars (found : cutChars mark s.toList = some (first, last)) :
    cut? s (String.ofList mark) = some (String.ofList first, String.ofList last) := by
  rw [cut?, String.toList_ofList, found]
  rfl

theorem cutChars_none (absent : ¬ mark <:+: cs) : cutChars mark cs = none := by
  induction cs with
  | nil =>
    refine if_neg fun empty => absent ?_
    exact (List.isEmpty_iff.mp empty) ▸ List.nil_infix
  | cons c cs ih =>
    obtain ⟨here, later⟩ := not_or.mp (List.infix_cons_iff.not.mp absent)
    rw [cutChars, if_neg (List.isPrefixOf_iff_prefix.not.mpr here), ih later]
    rfl

theorem before_of_chars (found : cutChars mark s.toList = some (first, last)) :
    Text.before s (String.ofList mark) = String.ofList first := by
  rw [Text.before, cut_of_chars found]
  rfl

theorem before_char (absent : c ∉ s.toList) : Text.before s (String.ofList [c]) = s := by
  have apart : ¬ [c] <:+: s.toList := fun found => absent (found.subset (List.mem_singleton_self c))
  rw [Text.before, cut?, String.toList_ofList, cutChars_none apart]
  rfl

theorem pieces_append {p : Char → Bool} (mark : p c = true) (cs ds : List Char) :
    pieces p (cs ++ c :: ds) = pieces p cs ++ pieces p ds := by
  induction cs with
  | nil => exact if_pos mark
  | cons x cs ih =>
    rw [List.cons_append, pieces, pieces, ih]
    split
    · rfl
    · cases found : pieces p cs with
      | nil => exact absurd found (pieces_ne_nil p cs)
      | cons first others => rfl

theorem pieces_whole {p : Char → Bool} (plain : ∀ c ∈ cs, p c = false) : pieces p cs = [cs] := by
  induction cs with
  | nil => rfl
  | cons c cs ih =>
    obtain ⟨here, later⟩ := List.forall_mem_cons.mp plain
    rw [pieces, here, ih later]
    rfl

theorem pieces_finer {p q : Char → Bool} (finer : ∀ c, p c = true → q c = true) (cs : List Char) :
    pieces q cs = (pieces p cs).flatMap (pieces q) := by
  induction cs with
  | nil => rfl
  | cons c cs ih =>
    rw [pieces, pieces]
    by_cases coarse : p c
    · rw [if_pos (finer c coarse), if_pos coarse, List.flatMap_cons, ih]
      rfl
    · rw [if_neg coarse, ih]
      cases found : pieces p cs with
      | nil => exact absurd found (pieces_ne_nil p cs)
      | cons first rest =>
        simp only [List.flatMap_cons]
        rw [pieces]
        split
        · rfl
        · cases inner : pieces q first with
          | nil => exact absurd inner (pieces_ne_nil q first)
          | cons => rfl

theorem word_piece {q : Char → Bool} {w : String} (finer : ∀ c, isBlank c = true → q c = true)
    (plain : ∀ c ∈ w.toList, q c = false) (member : w ∈ words s) : w ∈ split q s := by
  obtain ⟨cs, piece, rfl⟩ := List.mem_map.mp (List.mem_filter.mp member).1
  rw [String.toList_ofList] at plain
  refine List.mem_map_of_mem ?_
  rw [pieces_finer finer, List.mem_flatMap]
  exact ⟨cs, piece, by rw [pieces_whole plain]; exact List.mem_singleton_self cs⟩

theorem dropSuffix_some_iff {stop stem : String} :
    dropSuffix? s stop = some stem ↔ s = stem ++ stop := by
  rw [dropSuffix?, endsWith]
  constructor
  · intro found
    split at found
    · next ends =>
      obtain ⟨front, split⟩ := List.isSuffixOf_iff_suffix.mp ends
      have size : s.length = front.length + stop.length := by
        rw [← String.length_toList, ← String.length_toList, ← split, List.length_append]
      cases found
      rw [← String.toList_inj, String.toList_append, String.toList_ofList, ← split, size]
      simp
    · cases found
  · rintro rfl
    have ends : stop.toList <:+ (stem ++ stop).toList := ⟨stem.toList, String.toList_append.symm⟩
    rw [if_pos (List.isSuffixOf_iff_suffix.mpr ends), String.length_append, Nat.add_sub_cancel,
      String.toList_append, List.take_left' String.length_toList, String.ofList_toList]

theorem dropCopies_once (absent : ¬ mark <+: cs) (n : Nat) :
    dropCopies mark (n + 1) (mark ++ cs) = cs := by
  rw [dropCopies, if_pos (List.isPrefixOf_iff_prefix.mpr (List.prefix_append mark cs)),
    List.drop_left]
  cases n with
  | zero => rfl
  | succ n => rw [dropCopies, if_neg (List.isPrefixOf_iff_prefix.not.mpr absent)]

-- The cut at the last mark.

theorem cutLastChars_none : cutLastChars mark cs = none ↔ ¬ mark <:+: cs := by
  induction cs with
  | nil =>
    rw [cutLastChars, List.infix_nil]
    split
    · next empty => simp [List.isEmpty_iff.mp empty]
    · next full => simpa using full
  | cons c cs ih =>
    rw [cutLastChars, List.infix_cons_iff, not_or, ← ih, ← List.isPrefixOf_iff_prefix]
    split
    · next found => simp [found]
    · next absent =>
      split
      · next here => simp [here]
      · next other => simp [other, absent]

-- The last place where a mark stands: no other one has more before it.
structure CutsLast (mark whole first last : List Char) : Prop where
  cut : whole = first ++ mark ++ last
  longest {front rest : List Char} : whole = front ++ mark ++ rest → front.length ≤ first.length

theorem cutLastChars_some (found : cutLastChars mark cs = some (first, last)) :
    CutsLast mark cs first last := by
  induction cs generalizing first with
  | nil =>
    rw [cutLastChars] at found
    split at found
    · next empty =>
      cases found
      refine ⟨by simp [List.isEmpty_iff.mp empty], fun {front rest} cut => ?_⟩
      rw [(List.append_eq_nil_iff.mp (List.append_eq_nil_iff.mp cut.symm).1).1]
    · cases found
  | cons c cs ih =>
    rw [cutLastChars] at found
    split at found
    · next first last later =>
      cases found
      obtain ⟨cut, longest⟩ := ih later
      refine ⟨by rw [cut]; rfl, fun {front rest} split => ?_⟩
      cases front with
      | nil => exact Nat.zero_le _
      | cons x front => exact Nat.succ_le_succ (longest (List.cons.inj split).2)
    · next absent =>
      split at found
      · next here =>
        cases found
        obtain ⟨ds, text⟩ := List.isPrefixOf_iff_prefix.mp here
        refine ⟨by rw [← text, List.drop_left, List.nil_append], fun {front rest} split => ?_⟩
        cases front with
        | nil => exact Nat.le_refl _
        | cons x front =>
          exact absurd ⟨front, rest, (List.cons.inj split).2.symm⟩ (cutLastChars_none.mp absent)
      · cases found

theorem cutLast_none {mark : String} : cutLast? s mark = none ↔ ¬ IsPiece mark s := by
  rw [cutLast?, Option.map_eq_none_iff, cutLastChars_none, isPiece_iff]

theorem cutLast_some {mark first last : String} (found : cutLast? s mark = some (first, last)) :
    CutsLast mark.toList s.toList first.toList last.toList := by
  obtain ⟨⟨before, after⟩, cut, same⟩ := Option.map_eq_some_iff.mp found
  cases same
  rw [String.toList_ofList, String.toList_ofList]
  exact cutLastChars_some cut

end CodeEntities.Text
