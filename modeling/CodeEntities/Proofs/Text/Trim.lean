import CodeEntities.Proofs.Text.Offset
import CodeEntities.Text.Blank
import CodeEntities.Text.Letter
import Mathlib.Data.List.DropRight
import Mathlib.Data.List.Infix

namespace CodeEntities.Text

variable {p : Char → Bool} {cs ds : List Char} {s : String} {start stop n : Nat}

theorem dropTrailing_eq (p : Char → Bool) (cs : List Char) :
    dropTrailing p cs = cs.rdropWhile p := by
  induction cs with
  | nil => rfl
  | cons c cs ih =>
    have rest : (cs.reverse.dropWhile p) = (dropTrailing p cs).reverse := by
      rw [ih, List.rdropWhile, List.reverse_reverse]
    rw [dropTrailing, List.rdropWhile, List.reverse_cons, List.dropWhile_append, rest]
    cases dropTrailing p cs with
    | nil => by_cases drop : p c <;> simp [drop]
    | cons d ds => simp

theorem trimChars_eq (cs : List Char) : trimChars cs = (cs.dropWhile isBlank).rdropWhile isBlank :=
  dropTrailing_eq isBlank _

theorem trimChars_cut (cs : List Char) : trimChars cs <:+: cs := by
  rw [trimChars_eq]
  exact (List.rdropWhile_prefix isBlank _).isInfix.trans (List.dropWhile_suffix isBlank).isInfix

theorem dropWhile_front (front : cs <+: ds) (clean : ds.dropWhile p = ds) :
    cs.dropWhile p = cs := by
  cases cs with
  | nil => rfl
  | cons c cs =>
    obtain ⟨rest, rfl⟩ := front
    rw [List.cons_append, List.dropWhile_cons] at clean
    split at clean
    · have shorter := congrArg List.length clean
      have suffix := (List.dropWhile_suffix p (l := cs ++ rest)).length_le
      simp only [List.length_cons] at shorter
      omega
    · next kept => rw [List.dropWhile_cons, if_neg kept]

theorem trimChars_trimChars (cs : List Char) : trimChars (trimChars cs) = trimChars cs := by
  rw [trimChars_eq, trimChars_eq,
    dropWhile_front (List.rdropWhile_prefix isBlank _) (List.dropWhile_idempotent _ _),
    List.rdropWhile_idempotent]

@[simp]
theorem trim_toList (s : String) : (trim s).toList = trimChars s.toList := String.toList_ofList

theorem trim_trim (s : String) : trim (trim s) = trim s := by
  rw [trim, trim_toList, trimChars_trimChars, ← trim]

theorem trim_eq_iff : trim s = s ↔ trimChars s.toList = s.toList := by
  rw [← String.toList_inj, trim_toList]

theorem nonBlank_of_trim {t : String} (trimmed : trim s = t) (filled : t ≠ "") :
    nonBlank? s = some t := by
  simp only [nonBlank?, trimmed]
  rw [if_neg (by simpa using filled)]

theorem trimChars_before (blank : ∀ c ∈ cs, isBlank c = true) (ds : List Char) :
    trimChars (cs ++ ds) = trimChars ds := by
  rw [trimChars_eq, trimChars_eq, List.dropWhile_append_of_pos blank]

theorem trimChars_behind (blank : ∀ c ∈ ds, isBlank c = true) (cs : List Char) :
    trimChars (cs ++ ds) = trimChars cs := by
  have dropped (es : List Char) : (es ++ ds).rdropWhile isBlank = es.rdropWhile isBlank := by
    rw [List.rdropWhile, List.rdropWhile, List.reverse_append,
      List.dropWhile_append_of_pos (by simpa using blank)]
  rw [trimChars_eq, trimChars_eq, List.dropWhile_append]
  split
  · next empty =>
    rw [List.isEmpty_iff.mp empty, List.dropWhile_eq_nil_iff.mpr blank]
  · exact dropped _

theorem trimmed_start (trimmed : trimChars cs = cs) : cs.dropWhile isBlank = cs := by
  have front := List.rdropWhile_prefix isBlank (cs.dropWhile isBlank)
  rw [← trimChars_eq, trimmed] at front
  exact dropWhile_front front (List.dropWhile_idempotent _ _)

theorem trimmed_end (trimmed : trimChars cs = cs) : cs.rdropWhile isBlank = cs := by
  have start := trimmed_start trimmed
  rwa [trimChars_eq, start] at trimmed

theorem trimmed_last {c : Char} (trimmed : trimChars cs = cs) (last : cs.getLast? = some c) :
    isBlank c = false := by
  obtain ⟨front, rfl⟩ := List.getLast?_eq_some_iff.mp last
  simpa using List.rdropWhile_eq_self_iff.mp (trimmed_end trimmed) (List.concat_ne_nil c front)

theorem trimmed_ending (trimmed : trimChars cs = cs) (last : ds <:+ cs) :
    trimChars ds = ds.dropWhile isBlank := by
  have inside : ds.dropWhile isBlank <:+ cs := (List.dropWhile_suffix isBlank).trans last
  have kept : (ds.dropWhile isBlank).rdropWhile isBlank = ds.dropWhile isBlank := by
    refine List.rdropWhile_eq_self_iff.mpr fun filled => ?_
    obtain ⟨front, rfl⟩ := inside
    have visible := List.rdropWhile_eq_self_iff.mp (trimmed_end trimmed)
      (List.append_ne_nil_of_right_ne_nil _ filled)
    rwa [List.getLast_append_of_ne_nil _ filled] at visible
  rw [trimChars_eq, kept]

theorem blank_space : ∀ c ∈ [' '], isBlank c = true := List.forall_mem_singleton.mpr rfl

theorem not_mem_blanks {c : Char} (blank : ∀ c ∈ cs, isBlank c = true)
    (visible : isBlank c = false) : c ∉ cs :=
  fun member => Bool.false_ne_true (visible.symm.trans (blank c member))

theorem mem_trimChars {c : Char} (member : c ∈ cs) (visible : isBlank c = false) :
    c ∈ trimChars cs := by
  have kept : c ∈ cs.dropWhile isBlank := by
    rw [← List.takeWhile_append_dropWhile (p := isBlank) (l := cs)] at member
    refine (List.mem_append.mp member).resolve_left fun dropped => ?_
    rw [List.mem_takeWhile_imp dropped] at visible
    cases visible
  rw [trimChars_eq]
  rw [← List.rdropWhile_append_rtakeWhile (p := isBlank) (l := cs.dropWhile isBlank)] at kept
  refine (List.mem_append.mp kept).resolve_right fun dropped => ?_
  rw [List.mem_rtakeWhile_imp dropped] at visible
  cases visible

theorem rdropWhile_append (filled : ds.rdropWhile p ≠ []) (cs : List Char) :
    (cs ++ ds).rdropWhile p = cs ++ ds.rdropWhile p := by
  have kept : ds.reverse.dropWhile p ≠ [] := by simpa [List.rdropWhile] using filled
  rw [List.rdropWhile, List.rdropWhile, List.reverse_append, List.dropWhile_append,
    if_neg (by simpa using kept), List.reverse_append, List.reverse_reverse]

theorem dropWhile_start (trimmed : trimChars cs = cs) (filled : cs ≠ []) (ds : List Char) :
    (cs ++ ds).dropWhile isBlank = cs ++ ds := by
  rw [List.dropWhile_append, trimmed_start trimmed, if_neg (by simpa using filled)]

theorem rdropWhile_visible {c : Char} (visible : isBlank c = false) (ds : List Char) :
    (c :: ds).rdropWhile isBlank = c :: trimEndChars ds := by
  rw [← dropTrailing_eq, dropTrailing, trimEndChars]
  cases dropTrailing isBlank ds with
  | nil => simp [visible]
  | cons d ds => rfl

theorem trimChars_visible {c : Char} (visible : isBlank c = false) (ds : List Char) :
    trimChars (c :: ds) = c :: trimEndChars ds := by
  rw [trimChars_eq, List.dropWhile_cons, if_neg (by simp [visible]), rdropWhile_visible visible]

-- Behind a trimmed text a character that is no blank holds what stands before it.
theorem trimChars_kept (trimmed : trimChars cs = cs) (filled : cs ≠ []) {c : Char}
    (visible : isBlank c = false) (ds : List Char) :
    trimChars (cs ++ c :: ds) = cs ++ c :: trimEndChars ds := by
  have ending := rdropWhile_visible visible ds
  rw [trimChars_eq, dropWhile_start trimmed filled, rdropWhile_append (by simp [ending]), ending]

theorem trimChars_between (trimmed : trimChars cs = cs) (filled : cs ≠ []) {c : Char}
    (visible : isBlank c = false) (ds : List Char) :
    trimChars (cs ++ ds ++ [c]) = cs ++ ds ++ [c] := by
  rw [trimChars_eq, List.append_assoc, dropWhile_start trimmed filled, ← List.append_assoc,
    List.rdropWhile_concat, if_neg (by simp [visible])]

theorem blank_of_trimChars (empty : trimChars cs = []) : ∀ c ∈ cs, isBlank c = true := by
  rw [trimChars_eq, List.rdropWhile_eq_nil_iff] at empty
  refine List.dropWhile_eq_nil_iff.mp (List.eq_nil_iff_forall_not_mem.mpr fun c member => ?_)
  have first := List.head_dropWhile_not isBlank (List.ne_nil_of_mem member)
  rw [empty _ (List.head_mem _)] at first
  cases first

theorem trim_unblank (clean : ∀ c ∈ s.toList, isBlank c = false) : trim s = s := by
  have first : s.toList.dropWhile isBlank = s.toList := by
    cases cs : s.toList with
    | nil => rfl
    | cons c cs =>
      rw [List.dropWhile_cons, clean c (cs ▸ List.mem_cons_self ..), if_neg Bool.false_ne_true]
  have last : s.toList.rdropWhile isBlank = s.toList := by
    refine List.rdropWhile_eq_self_iff.mpr fun filled => ?_
    rw [clean _ (List.getLast_mem filled)]
    exact Bool.false_ne_true
  rw [trim, trimChars_eq, first, last, String.ofList_toList]

def blankRanges : List (Nat × Nat) := [
  (9, 13), (32, 32), (0x85, 0x85), (0xA0, 0xA0), (0x1680, 0x1680), (0x2000, 0x200A),
  (0x2028, 0x2029), (0x202F, 0x202F), (0x205F, 0x205F), (0x3000, 0x3000)]

theorem isBlank_eq (c : Char) :
    isBlank c = blankRanges.any fun (first, last) => first ≤ c.toNat && c.toNat ≤ last := by
  have single (n m : Nat) : (n == m) = (decide (m ≤ n) && decide (n ≤ m)) := by
    rw [Bool.eq_iff_iff]
    simp
    omega
  have pair (n m : Nat) : (n == m || n == m + 1) = (decide (m ≤ n) && decide (n ≤ m + 1)) := by
    rw [Bool.eq_iff_iff]
    simp
    omega
  simp only [isBlank, blankRanges, List.any_cons, List.any_nil, Bool.or_false, Bool.or_assoc,
    ← single]
  rw [← Bool.or_assoc (c.toNat == 0x2028), pair]

theorem alphanumeric_unblank {c : Char} (letter : isAlphanumeric c = true) :
    isBlank c = false := by
  -- The two tables are compared range by range, not character by character.
  have table : (alphanumericRanges.all fun (first, last) =>
      blankRanges.all fun (low, high) => last.blt low || high.blt first) = true := by
    decide +kernel
  rw [isBlank_eq]
  refine Bool.eq_false_iff.mpr fun blank => ?_
  obtain ⟨⟨first, last⟩, here, within⟩ := List.any_eq_true.mp letter
  obtain ⟨⟨low, high⟩, there, inside⟩ := List.any_eq_true.mp blank
  have apart := List.all_eq_true.mp (List.all_eq_true.mp table _ here) _ there
  simp only [Bool.or_eq_true, Nat.blt_eq] at apart
  simp only [Bool.and_eq_true, decide_eq_true_eq] at within inside
  omega

theorem takeBytes_front (taken : takeBytes n cs = some ds) : ds <+: cs := by
  fun_induction takeBytes n cs generalizing ds with
  | case1 cs => cases taken; exact List.nil_prefix
  | case2 n => cases taken
  | case3 n c cs fits ih =>
    obtain ⟨es, rest, rfl⟩ := Option.map_eq_some_iff.mp taken
    exact List.cons_prefix_cons.mpr ⟨rfl, ih rest⟩
  | case4 n c cs split => cases taken

theorem sliceChars_cut (found : sliceChars? start stop cs = some ds) : ds <:+: cs := by
  unfold sliceChars? at found
  split at found
  · obtain ⟨rest, dropped, taken⟩ := Option.bind_eq_some_iff.mp found
    obtain ⟨front, rfl, _⟩ := dropBytes_exact.mp dropped
    exact (takeBytes_front taken).isInfix.trans (List.suffix_append front rest).isInfix
  · cases found

def IsPiece (part whole : String) : Prop := ∃ before after, whole = before ++ part ++ after

theorem isPiece_iff {part whole : String} :
    IsPiece part whole ↔ part.toList <:+: whole.toList := by
  constructor
  · rintro ⟨before, after, rfl⟩
    exact ⟨before.toList, after.toList, by simp⟩
  · rintro ⟨before, after, split⟩
    refine ⟨String.ofList before, String.ofList after, ?_⟩
    have whole := congrArg String.ofList split
    rw [String.ofList_toList, String.ofList_append, String.ofList_append,
      String.ofList_toList] at whole
    exact whole.symm

instance (part whole : String) : Decidable (IsPiece part whole) := decidable_of_iff' _ isPiece_iff

theorem slice_piece (s : String) (start stop : Nat) : IsPiece (slice s start stop) s := by
  rw [isPiece_iff, slice, String.toList_ofList]
  cases found : sliceChars? start stop s.toList with
  | none => exact List.nil_infix
  | some cs => exact sliceChars_cut found

theorem IsPiece.trim {part whole : String} (piece : IsPiece part whole) :
    IsPiece (trim part) whole := by
  rw [isPiece_iff] at piece ⊢
  exact (trim_toList part).symm ▸ (trimChars_cut _).trans piece

end CodeEntities.Text
