import Mathlib.Data.List.Nodup
import CodeEntities.Language
import CodeEntities.Proofs.Text.LowerCase
import CodeEntities.Proofs.Text.Split

namespace CodeEntities.Language

def Carries (name extension : String) : Prop :=
  ∃ stem, stem ≠ "" ∧ name = stem ++ "." ++ extension

-- The entry fits, and no entry that fits has a longer extension.
structure LongestIn (table : List (String × Language)) (name : String)
    (entry : String × Language) : Prop where
  listed : entry ∈ table
  carried : Carries name entry.1
  longest : ∀ other ∈ table, Carries name other.1 → other.1.length ≤ entry.1.length

variable {table rest : List (String × Language)} {name path : String}
  {entry other : String × Language} {l : Language}

theorem Carries.suffix {extension : String} (carried : Carries name extension) :
    '.' :: extension.toList <:+ name.toList := by
  obtain ⟨stem, _, rfl⟩ := carried
  exact ⟨stem.toList, by simp⟩

theorem longestExtension_carried (carried : Carries name entry.1) :
    longestExtension name (entry :: rest) =
      (longestExtension name rest).elim (some entry) fun best =>
        if best.1.length < entry.1.length then some entry else some best := by
  obtain ⟨stem, filled, split⟩ := carried
  have cut : Text.dropSuffix? name ("." ++ entry.1) = some stem :=
    Text.dropSuffix_some_iff.mpr (split.trans (String.append_assoc ..))
  have kept : stem.isEmpty = false := by simpa using filled
  cases best : longestExtension name rest <;> simp [longestExtension, cut, kept, best]

theorem longestExtension_other (apart : ¬ Carries name entry.1) :
    longestExtension name (entry :: rest) = longestExtension name rest := by
  rw [longestExtension]
  cases cut : Text.dropSuffix? name ("." ++ entry.1) with
  | none => cases longestExtension name rest <;> simp
  | some stem =>
    have empty : stem = "" := by
      by_contra filled
      refine apart ⟨stem, filled, ?_⟩
      rw [Text.dropSuffix_some_iff.mp cut, String.append_assoc]
    subst empty
    cases longestExtension name rest <;> simp

theorem longestExtension_none (found : longestExtension name table = none) :
    ∀ entry ∈ table, ¬ Carries name entry.1 := by
  induction table with
  | nil => simp
  | cons entry rest ih =>
    have apart : ¬ Carries name entry.1 := by
      intro carried
      rw [longestExtension_carried carried] at found
      cases best : longestExtension name rest with
      | none => simp [best] at found
      | some e =>
        rw [best, Option.elim_some] at found
        split at found <;> cases found
    rw [longestExtension_other apart] at found
    exact List.forall_mem_cons.mpr ⟨apart, ih found⟩

theorem LongestIn.here (carried : Carries name entry.1)
    (longest : ∀ other ∈ rest, Carries name other.1 → other.1.length ≤ entry.1.length) :
    LongestIn (entry :: rest) name entry where
  listed := List.mem_cons_self ..
  carried := carried
  longest := List.forall_mem_cons.mpr ⟨fun _ => le_rfl, longest⟩

theorem LongestIn.behind (below : LongestIn rest name entry)
    (shorter : Carries name other.1 → other.1.length ≤ entry.1.length) :
    LongestIn (other :: rest) name entry where
  listed := List.mem_cons_of_mem _ below.listed
  carried := below.carried
  longest := List.forall_mem_cons.mpr ⟨shorter, below.longest⟩

theorem longestExtension_some (found : longestExtension name table = some entry) :
    LongestIn table name entry := by
  induction table generalizing entry with
  | nil => cases found
  | cons first rest ih =>
    by_cases carried : Carries name first.1
    · rw [longestExtension_carried carried] at found
      cases best : longestExtension name rest with
      | none =>
        rw [best] at found
        cases found
        refine .here carried fun other member fits => ?_
        exact absurd fits (longestExtension_none best other member)
      | some e =>
        have below : LongestIn rest name e := ih best
        rw [best, Option.elim_some] at found
        split at found
        · next longer =>
          cases found
          refine .here carried fun other member fits => ?_
          exact (below.longest other member fits).trans longer.le
        · next shorter =>
          cases found
          exact below.behind fun _ => Nat.le_of_not_lt shorter
    · rw [longestExtension_other carried] at found
      exact (ih found).behind fun fits => absurd fits carried

theorem LongestIn.unique (keys : (table.map (·.1)).Nodup) (one : LongestIn table name entry)
    (two : LongestIn table name other) : entry = other := by
  have size : entry.1.length = other.1.length :=
    (two.longest _ one.listed one.carried).antisymm (one.longest _ two.listed two.carried)
  obtain ⟨front, split⟩ := one.carried.suffix
  obtain ⟨front', split'⟩ := two.carried.suffix
  have same : '.' :: entry.1.toList = '.' :: other.1.toList :=
    List.append_inj_right' (split.trans split'.symm) (by simp [String.length_toList, size])
  have key : entry.1 = other.1 := String.toList_inj.mp (List.cons.inj same).2
  exact List.inj_on_of_nodup_map keys one.listed two.listed key

theorem longestExtension_iff (keys : (table.map (·.1)).Nodup) :
    longestExtension name table = some entry ↔ LongestIn table name entry := by
  refine ⟨longestExtension_some, fun longest => ?_⟩
  cases found : longestExtension name table with
  | none => exact absurd longest.carried (longestExtension_none found _ longest.listed)
  | some best => rw [(longestExtension_some found).unique keys longest]

theorem LongestIn.perm {reordered : List (String × Language)} (same : reordered.Perm table)
    (longest : LongestIn table name entry) : LongestIn reordered name entry where
  listed := same.symm.subset longest.listed
  carried := longest.carried
  longest other member := longest.longest other (same.subset member)

theorem longestExtension_perm {reordered : List (String × Language)}
    (keys : (table.map (·.1)).Nodup) (same : reordered.Perm table) :
    longestExtension name reordered = longestExtension name table := by
  refine Option.ext fun entry => ?_
  rw [longestExtension_iff keys, longestExtension_iff ((same.map _).nodup_iff.mpr keys)]
  exact ⟨.perm same.symm, .perm same⟩

theorem extensions_differ : (extensionTable.map (·.1)).Nodup := by decide +kernel

theorem fileNames_differ : (fileNameTable.map (·.1)).Nodup := by decide +kernel

theorem extension_filled : ∀ entry ∈ extensionTable, entry.1 ≠ "" := by decide +kernel

theorem extension_plain :
    ∀ entry ∈ extensionTable, entry.1.toList.all fun c => c.toNat < 0x80 && c != '/' := by
  decide +kernel

-- `d.ts` is the only extension that ends with another one behind a dot.
theorem nested_extensions_agree : ∀ entry ∈ extensionTable, ∀ other ∈ extensionTable,
    '.' :: entry.1.toList <:+ '.' :: other.1.toList → entry.2 = other.2 := by
  decide +kernel

theorem no_dot_behind_first : ∀ entry ∈ fileNameTable, '.' ∉ entry.1.toList.tail := by
  decide +kernel

theorem ofFileName_known (listed : (name, l) ∈ fileNameTable) : ofFileName? name = some l := by
  rw [ofFileName?]
  cases found : fileNameTable.find? (·.1 == name) with
  | none => simpa using List.find?_eq_none.mp found _ listed
  | some entry =>
    have key : entry.1 = name := by simpa using List.find?_some found
    have same : entry = (name, l) :=
      List.inj_on_of_nodup_map fileNames_differ (List.mem_of_find?_eq_some found) listed key
    rw [same]

theorem ofFileName_other (other : ∀ l, (name, l) ∉ fileNameTable) :
    ofFileName? name = (longestExtension (Text.lowercase name) extensionTable).map (·.2) := by
  rw [ofFileName?, List.find?_eq_none.mpr]
  intro entry listed same
  obtain rfl : entry.1 = name := by simpa using same
  exact other entry.2 listed

theorem carried_iff :
    (longestExtension name table).isSome ↔ ∃ entry ∈ table, Carries name entry.1 := by
  cases found : longestExtension name table with
  | none => simpa using fun extension l listed => longestExtension_none found (extension, l) listed
  | some best =>
    have longest := longestExtension_some found
    exact iff_of_true rfl ⟨best, longest.listed, longest.carried⟩

theorem fileName_single (long : 2 < name.length) (single : '/' ∉ name.toList) :
    fileName? name = some name := by
  have whole : Text.split (· == '/') name = [name] := by
    rw [Text.split, Text.pieces_whole, List.map_singleton, String.ofList_toList]
    intro c member
    refine beq_eq_false_iff_ne.mpr ?_
    rintro rfl
    exact single member
  have other (s : String) (short : s.length ≤ 2) : name ≠ s := by
    rintro rfl
    omega
  simp [fileName?, whole, other "" (by decide), other "." (by decide), other ".." (by decide)]

theorem stem_not_known {stem ending : String} (filled : stem ≠ "") :
    (stem ++ "." ++ ending, l) ∉ fileNameTable := by
  intro listed
  refine no_dot_behind_first _ listed ?_
  cases chars : stem.toList with
  | nil => exact absurd (String.toList_eq_nil_iff.mp chars) filled
  | cons c cs => simp [chars]

section Spelled

variable {stem extension spelled : String}

theorem spelled_plain (listed : (extension, l) ∈ extensionTable)
    (folds : Text.foldAscii spelled = extension) :
    ∀ c ∈ spelled.toList, c.toNat < 0x80 ∧ c ≠ '/' := by
  intro c member
  have lower : c.toLower ∈ extension.toList := by
    rw [← folds, Text.foldAscii, String.toList_map]
    exact List.mem_map_of_mem member
  have plain := List.all_eq_true.mp (extension_plain _ listed) _ lower
  simp only [Bool.and_eq_true, decide_eq_true_eq, bne_iff_ne] at plain
  refine ⟨Text.ascii_of_toLower plain.1, ?_⟩
  rintro rfl
  exact plain.2 rfl

theorem spelled_filled (listed : (extension, l) ∈ extensionTable)
    (folds : Text.foldAscii spelled = extension) : spelled ≠ "" := by
  rintro rfl
  have empty : Text.foldAscii "" = "" := by decide +kernel
  exact extension_filled _ listed (folds.symm.trans empty)

theorem ofFileName_spelled (filled : stem ≠ "") (listed : (extension, l) ∈ extensionTable)
    (folds : Text.foldAscii spelled = extension) :
    ofFileName? (stem ++ "." ++ spelled) = some l := by
  have ascii : ∀ c ∈ ("." ++ spelled).toList, c.toNat < 0x80 := by
    rw [String.toList_append]
    refine List.forall_mem_cons.mpr ⟨by decide, fun c member => ?_⟩
    exact (spelled_plain listed folds c member).1
  have carried : Carries (Text.lowercase (stem ++ "." ++ spelled)) extension := by
    obtain ⟨lower, kept, split⟩ := Text.lowercase_append stem ascii
    refine ⟨lower, kept filled, ?_⟩
    rw [String.append_assoc, split, ← folds, String.append_assoc]
    congr 1
    rw [← String.toList_inj]
    simp [Text.foldAscii, String.toList_map]
  rw [ofFileName_other fun l => stem_not_known filled]
  cases found : longestExtension (Text.lowercase (stem ++ "." ++ spelled)) extensionTable with
  | none => exact absurd carried (longestExtension_none found _ listed)
  | some best =>
    have longest := longestExtension_some found
    have shorter : ('.' :: extension.toList).length ≤ ('.' :: best.1.toList).length := by
      simpa [String.length_toList] using longest.longest _ listed carried
    have nested : '.' :: extension.toList <:+ '.' :: best.1.toList :=
      List.suffix_of_suffix_length_le carried.suffix longest.carried.suffix shorter
    exact congrArg some (nested_extensions_agree _ listed _ longest.listed nested).symm

theorem fileName_spelled (filled : stem ≠ "") (single : '/' ∉ stem.toList)
    (listed : (extension, l) ∈ extensionTable) (folds : Text.foldAscii spelled = extension) :
    fileName? (stem ++ "." ++ spelled) = some (stem ++ "." ++ spelled) := by
  refine fileName_single ?_ ?_
  · have front : stem.length ≠ 0 := mt String.length_eq_zero_iff.mp filled
    have back : spelled.length ≠ 0 :=
      mt String.length_eq_zero_iff.mp (spelled_filled listed folds)
    have dot : ".".length = 1 := rfl
    rw [String.length_append, String.length_append]
    omega
  · intro member
    simp only [String.toList_append, List.mem_append] at member
    rcases member with (front | dot) | back
    · exact single front
    · exact absurd dot (by decide)
    · exact (spelled_plain listed folds _ back).2 rfl

end Spelled

-- A known whole name says its language, and any other name that of the longest extension it
-- carries in lower case, in whatever order the table stands. No name with a stem is a known one.
theorem language_found_by_name :
    (∀ path name, fileName? path = some name →
      (∀ l, (name, l) ∈ fileNameTable → ofPath? path = some l) ∧
      ((∀ l, (name, l) ∉ fileNameTable) →
        (∀ l, ofPath? path = some l ↔
          ∃ extension, LongestIn extensionTable (Text.lowercase name) (extension, l)) ∧
        ((ofPath? path).isSome ↔
          ∃ entry ∈ extensionTable, Carries (Text.lowercase name) entry.1) ∧
        ∀ table, table.Perm extensionTable →
          ofPath? path = (longestExtension (Text.lowercase name) table).map (·.2))) ∧
    ∀ stem extension spelled l, stem ≠ "" → '/' ∉ stem.toList → (extension, l) ∈ extensionTable →
      Text.foldAscii spelled = extension → ofPath? (stem ++ "." ++ spelled) = some l := by
  refine ⟨fun path name named => ?_, ?_⟩
  · have read : ofPath? path = ofFileName? name := by rw [ofPath?, named, Option.bind_some]
    rw [read]
    refine ⟨fun l listed => ofFileName_known listed, fun other => ?_⟩
    rw [ofFileName_other other]
    refine ⟨fun l => ?_, ?_, fun table same => ?_⟩
    · simp only [Option.map_eq_some_iff, longestExtension_iff extensions_differ, Prod.exists,
        exists_eq_right]
    · rw [Option.isSome_map, carried_iff]
    · rw [longestExtension_perm extensions_differ same]
  · intro stem extension spelled l filled single listed folds
    rw [ofPath?, fileName_spelled filled single listed folds, Option.bind_some,
      ofFileName_spelled filled listed folds]

theorem kelvin_sign_spells_kotlin :
    fileName? "lib/Rakefile" = some "Rakefile" ∧ ofPath? "lib/Rakefile" = some ruby ∧
    fileName? "src/Main.\u212At" = some "Main.\u212At" ∧
      (∀ l, ("Main.\u212At", l) ∉ fileNameTable) ∧ ofPath? "src/Main.\u212At" = some kotlin ∧
    ofPath? "types.d.TS" = some typescript := by
  have known : fileName? "lib/Rakefile" = some "Rakefile" := by decide +kernel
  have kelvin : fileName? "src/Main.\u212At" = some "Main.\u212At" := by decide +kernel
  have unlisted : "Main.\u212At" ∉ fileNameTable.map (·.1) := by decide +kernel
  have other : ∀ l, ("Main.\u212At", l) ∉ fileNameTable := by
    intro l listed
    exact unlisted (List.mem_map_of_mem listed)
  have folded : Text.lowercase "Main.\u212At" = "main.kt" := by decide +kernel
  have carried : LongestIn extensionTable (Text.lowercase "Main.\u212At") ("kt", kotlin) :=
    folded ▸ longestExtension_some (by decide +kernel)
  refine ⟨known, (language_found_by_name.1 _ _ known).1 ruby (by decide), kelvin, other, ?_, ?_⟩
  · exact (((language_found_by_name.1 _ _ kelvin).2 other).1 kotlin).mpr ⟨"kt", carried⟩
  · exact language_found_by_name.2 "types.d" "ts" "TS" typescript (by decide) (by decide)
      (by decide) (by decide +kernel)

end CodeEntities.Language
