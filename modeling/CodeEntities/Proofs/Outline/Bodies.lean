import CodeEntities.Extract.Context
import CodeEntities.Proofs.Text.Offset

namespace CodeEntities

namespace Text

variable {limit n : Nat} {front other s : String}

theorem isBoundary_firstByte :
    isBoundary s.toList n = true ↔ n = s.utf8ByteSize ∨
      ∃ inside : (⟨n⟩ : String.Pos.Raw) < s.rawEndPos, (s.getUTF8Byte ⟨n⟩ inside).IsUTF8FirstByte := by
  rw [isBoundary_exact, String.Pos.Raw.isValid_iff_isUTF8FirstByte, String.Pos.Raw.ext_iff,
    String.byteIdx_rawEndPos]

theorem floorBoundary_exact (cs : List Char) (limit : Nat) :
    ∃ stop, floorBoundary? cs limit = some stop ∧ stop ≤ limit ∧ isBoundary cs stop = true ∧
      ∀ k, k ≤ limit → isBoundary cs k = true → k ≤ stop := by
  induction limit with
  | zero =>
    have start : isBoundary cs 0 = true := by simp [isBoundary, dropBytes]
    exact ⟨0, if_pos start, Nat.le_refl 0, start, fun k within _ => within⟩
  | succ limit ih =>
    by_cases here : isBoundary cs (limit + 1) = true
    · exact ⟨limit + 1, if_pos here, Nat.le_refl _, here, fun k within _ => within⟩
    · obtain ⟨stop, found, back, boundary, passed⟩ := ih
      refine ⟨stop, (if_neg here).trans found, by omega, boundary, ?_⟩
      intro k within other
      rcases Nat.le_succ_iff.mp within with before | rfl
      · exact passed k before other
      · exact absurd other here

-- A front of a text, cut between two characters, that fits into a number of bytes while every
-- boundary behind it lies beyond them.
structure LongestFront (limit : Nat) (front s : String) : Prop where
  isFront : ∃ rest, s = front ++ rest
  fits : front.utf8ByteSize ≤ limit
  longest : ∀ k, k ≤ limit → String.Pos.Raw.IsValid s ⟨k⟩ → k ≤ front.utf8ByteSize

theorem front_boundary (isFront : ∃ rest, s = front ++ rest) :
    String.Pos.Raw.IsValid s ⟨front.utf8ByteSize⟩ := by
  obtain ⟨rest, rfl⟩ := isFront
  exact String.Pos.Raw.isValid_iff_exists_append.mpr ⟨front, rest, rfl, rfl⟩

theorem LongestFront.unique (one : LongestFront limit front s) (two : LongestFront limit other s) :
    front = other := by
  have upper := two.longest _ one.fits (front_boundary one.isFront)
  have lower := one.longest _ two.fits (front_boundary two.isFront)
  obtain ⟨rest, split⟩ := one.isFront
  obtain ⟨tail, again⟩ := two.isFront
  calc front = slice s 0 front.utf8ByteSize := by rw [split, slice_front]
    _ = slice s 0 other.utf8ByteSize := by rw [Nat.le_antisymm upper lower]
    _ = other := by rw [again, slice_front]

theorem longestFront_whole (fits : s.utf8ByteSize ≤ limit) : LongestFront limit s s where
  isFront := ⟨"", String.append_empty.symm⟩
  fits := fits
  longest _ _ valid := valid.le_utf8ByteSize

theorem longestFront_exact : LongestFront limit front s ↔
    (∃ rest, s = front ++ rest) ∧ floorBoundary? s.toList limit = some front.utf8ByteSize := by
  obtain ⟨stop, found, back, boundary, passed⟩ := floorBoundary_exact s.toList limit
  rw [found, Option.some.injEq]
  constructor
  · intro front
    have upper := front.longest stop back (isBoundary_exact.mp boundary)
    have lower := passed _ front.fits (isBoundary_exact.mpr (front_boundary front.isFront))
    exact ⟨front.isFront, Nat.le_antisymm upper lower⟩
  · rintro ⟨isFront, rfl⟩
    exact ⟨isFront, back, fun k within valid => passed k within (isBoundary_exact.mpr valid)⟩

theorem truncate_longest (limit : Nat) (s : String) :
    ∃ kept, truncate? limit s = some kept ∧ LongestFront limit kept s := by
  unfold truncate?
  split
  · obtain ⟨stop, found, _, boundary, _⟩ := floorBoundary_exact s.toList limit
    obtain ⟨kept, rest, split, size⟩ :=
      String.Pos.Raw.isValid_iff_exists_append.mp (isBoundary_exact.mp boundary)
    rw [String.Pos.Raw.ext_iff, String.byteIdx_rawEndPos] at size
    have size : stop = kept.utf8ByteSize := size
    refine ⟨kept, ?_, longestFront_exact.mpr ⟨⟨rest, split⟩, found.trans (congrArg some size)⟩⟩
    rw [found, Option.bind_some, split, size, String.toList_append, ← byteLength_toList,
      takeBytes_append, Option.map_some, String.ofList_toList]
  · next fits => exact ⟨s, rfl, longestFront_whole (by omega)⟩

theorem truncate_exact : truncate? limit s = some front ↔ LongestFront limit front s := by
  obtain ⟨kept, cut, longest⟩ := truncate_longest limit s
  rw [cut, Option.some.injEq]
  constructor
  · rintro rfl
    exact longest
  · exact longest.unique

end Text

namespace Context

variable {cx : Context} {n : Node}

theorem body_limited {limit : Nat} (included : cx.options.includeBodies = true)
    (limited : cx.options.maxBodyBytes = some limit) :
    Text.truncate? limit (cx.text n) = some (cx.body n) := by
  obtain ⟨kept, cut, _⟩ := Text.truncate_longest limit (cx.text n)
  simp only [body, included, limited, if_true, Text.truncate, cut, Option.getD_some]

-- With bodies on, the body of a node is its text, and under a limit the longest front of the text
-- that fits. The search for its end goes back byte by byte and gets there under every limit; at
-- each offset it asks whether the byte there starts a character.
theorem body_is_longest_front (included : cx.options.includeBodies = true) :
    (cx.options.maxBodyBytes = none → cx.body n = cx.text n) ∧
    ∀ limit, cx.options.maxBodyBytes = some limit →
      (∀ front, cx.body n = front ↔ Text.LongestFront limit front (cx.text n)) ∧
      ((cx.text n).utf8ByteSize ≤ limit → cx.body n = cx.text n) ∧
      Text.truncate? limit (cx.text n) = some (cx.body n) ∧
      Text.floorBoundary? (cx.text n).toList limit = some (cx.body n).utf8ByteSize ∧
      ∀ k, Text.isBoundary (cx.text n).toList k = true ↔ k = (cx.text n).utf8ByteSize ∨
        ∃ inside : (⟨k⟩ : String.Pos.Raw) < (cx.text n).rawEndPos,
          ((cx.text n).getUTF8Byte ⟨k⟩ inside).IsUTF8FirstByte := by
  constructor
  · intro unlimited
    simp only [body, included, unlimited, if_true]
  · intro limit limited
    have cut : Text.truncate? limit (cx.text n) = some (cx.body n) := body_limited included limited
    have longest : Text.LongestFront limit (cx.body n) (cx.text n) := Text.truncate_exact.mp cut
    refine ⟨fun front => ?_, fun fits => ?_, cut, (Text.longestFront_exact.mp longest).2, ?_⟩
    · rw [← Text.truncate_exact, cut, Option.some.injEq]
    · exact longest.unique (Text.longestFront_whole fits)
    · exact fun k => Text.isBoundary_firstByte

theorem body_ends_before_split_character :
    let cx : Context := ⟨"aé", "m.rs", .rust, { maxBodyBytes := some 2 }⟩
    let n : Node := .root (.whole "function_item" 0 3 none [])
    cx.options.includeBodies = true ∧ cx.options.maxBodyBytes = some 2 ∧ cx.text n = "aé" ∧
      cx.body n = "a" ∧ Text.LongestFront 2 "a" "aé" := by
  intro cx n
  have text : cx.text n = "aé" := by decide +kernel
  have kept : cx.body n = "a" := by decide +kernel
  have longest := ((@body_is_longest_front cx n rfl).2 2 rfl).1 "a"
  rw [text] at longest
  exact ⟨rfl, rfl, text, kept, longest.mp kept⟩

end Context

end CodeEntities
