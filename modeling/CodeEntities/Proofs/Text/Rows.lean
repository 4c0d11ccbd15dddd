import CodeEntities.Proofs.Text.Position

namespace CodeEntities.Text.Position

-- The offset at which a row starts: behind as many line feeds, the first row being 0.
def rowStart : Nat → List UInt8 → Nat
  | 0, _ => 0
  | _ + 1, [] => 0
  | row + 1, b :: bs => 1 + rowStart (if b = lineFeed then row else row + 1) bs

theorem rowStart_feed (row : Nat) (bs : List UInt8) :
    rowStart (row + 1) (lineFeed :: bs) = 1 + rowStart row bs := by
  rw [rowStart, if_pos rfl]

theorem rowStart_other {b : UInt8} (other : b ≠ lineFeed) (row : Nat) (bs : List UInt8) :
    rowStart (row + 1) (b :: bs) = 1 + rowStart (row + 1) bs := by
  rw [rowStart, if_neg other]

theorem rowStart_behind (front rest : List UInt8) :
    rowStart (behind front).row (front ++ rest) + (behind front).column = front.length := by
  induction front with
  | nil => simp [behind_nil, origin, rowStart]
  | cons b front ih =>
    rw [List.cons_append, List.length_cons]
    by_cases feed : b = lineFeed
    · rw [feed, behind_feed]
      simp only [rowStart_feed]
      omega
    · rw [behind_other feed]
      cases rows : (behind front).row with
      | zero =>
        rw [rows] at ih
        simp only [rowStart, if_true] at ih ⊢
        omega
      | succ row =>
        rw [rows] at ih
        simp only [rowStart_other feed, Nat.succ_ne_zero, if_false]
        omega

theorem behind_rowStart {row : Nat} {bs : List UInt8} (present : row ≤ bs.count lineFeed) :
    behind (bs.take (rowStart row bs)) = ⟨row, 0⟩ := by
  induction bs generalizing row with
  | nil =>
    cases Nat.le_zero.mp present
    exact behind_nil
  | cons b bs ih =>
    cases row with
    | zero => exact behind_nil
    | succ row =>
      by_cases feed : b = lineFeed
      · rw [feed, List.count_cons_self] at present
        rw [feed, rowStart_feed, Nat.add_comm, List.take_succ_cons, behind_feed, ih (by omega)]
      · rw [List.count_cons_of_ne feed] at present
        rw [rowStart_other feed, Nat.add_comm, List.take_succ_cons, behind_other feed, ih present]
        simp

-- Offsets within a text and positions determine each other, and the positions in two texts joined
-- follow from those in the second and the end of the first.
theorem positions_follow_offsets :
    (∀ s : String,
      (∀ i j, i < j → j ≤ s.utf8ByteSize → atOffset s i < atOffset s j) ∧
      (∀ i ≤ s.utf8ByteSize, ∀ j ≤ s.utf8ByteSize, atOffset s i = atOffset s j → i = j) ∧
      (∀ i ≥ s.utf8ByteSize, atOffset s i = atOffset s s.utf8ByteSize) ∧
      (∀ row ≤ s.toList.count '\n', atOffset s (rowStart row (bytes s)) = ⟨row, 0⟩) ∧
      ∀ i ≤ s.utf8ByteSize,
        i = rowStart (atOffset s i).row (bytes s) + (atOffset s i).column) ∧
    ∀ (a b : String), ∀ k ≤ b.utf8ByteSize,
      (atOffset (a ++ b) (a.utf8ByteSize + k)).row =
        a.toList.count '\n' + (atOffset b k).row ∧
      (atOffset (a ++ b) (a.utf8ByteSize + k)).column =
        if lineFeed ∈ (bytes b).take k then (atOffset b k).column
        else k + lastLine a.toList := by
  have readBack (s : String) (i : Nat) (inside : i ≤ s.utf8ByteSize) :
      i = rowStart (atOffset s i).row (bytes s) + (atOffset s i).column := by
    have read := rowStart_behind ((bytes s).take i) ((bytes s).drop i)
    rw [List.take_append_drop, List.length_take, length_bytes, Nat.min_eq_left inside] at read
    rw [atOffset_eq, read]
  refine ⟨fun s => ⟨fun i j lt inside => atOffset_strictMono s lt inside, ?_,
    fun i beyond => atOffset_beyond s beyond, ?_, readBack s⟩, ?_⟩
  · intro i first j second same
    rw [readBack s i first, same, ← readBack s j second]
  · intro row present
    rw [← count_bytes] at present
    rw [atOffset_eq, behind_rowStart present]
  · intro a b k inside
    rw [atOffset_append, advance_row, advance_column, ending_exact]
    refine ⟨rfl, ?_⟩
    rw [atOffset_eq]
    by_cases first : lineFeed ∈ (bytes b).take k
    · rw [if_neg (Nat.ne_of_gt (behind_row_pos.mpr first)), if_pos first]
    · have column : (behind ((bytes b).take k)).column = k := by
        rw [behind_plain first, List.length_take, length_bytes, Nat.min_eq_left inside]
      rw [if_pos (Nat.eq_zero_of_not_pos (behind_row_pos.not.mpr first)), if_neg first, column,
        Nat.add_comm]

-- Offsets 3 and 4 of the first text stand inside and behind a character of two bytes.
theorem positions_of_joined_lines :
    let a := "x\né"
    let b := "ü\nz"
    let joined (k : Nat) := atOffset (a ++ b) (a.utf8ByteSize + k)
    (4 ≤ a.utf8ByteSize ∧ atOffset a 3 < atOffset a 4) ∧
      atOffset a 9 = atOffset a a.utf8ByteSize ∧
      (rowStart 1 (bytes a) = 2 ∧ atOffset a (rowStart 1 (bytes a)) = ⟨1, 0⟩) ∧
      (atOffset a 3 = ⟨1, 1⟩ ∧ 3 = rowStart 1 (bytes a) + 1) ∧
      (1 ≤ b.utf8ByteSize ∧ (joined 1).row = 1 ∧ (joined 1).column = 3) ∧
      3 ≤ b.utf8ByteSize ∧ (joined 3).row = 2 ∧ (joined 3).column = 0 := by
  intro a b joined
  have size : a.utf8ByteSize = 4 := by decide +kernel
  have reach : 3 ≤ b.utf8ByteSize := by decide +kernel
  have inside : atOffset a 3 = ⟨1, 1⟩ := by decide +kernel
  obtain ⟨increasing, _, constant, starts, readBack⟩ := positions_follow_offsets.1 a
  obtain ⟨row, column⟩ := positions_follow_offsets.2 a b 1 (by omega)
  obtain ⟨nextRow, nextColumn⟩ := positions_follow_offsets.2 a b 3 reach
  refine ⟨⟨by omega, increasing 3 4 (by decide) (by omega)⟩, constant 9 (by omega),
    ⟨by decide +kernel, starts 1 (by decide +kernel)⟩, ⟨inside, ?_⟩,
    ⟨by omega, row.trans (by decide +kernel), column.trans (by decide +kernel)⟩,
    reach, nextRow.trans (by decide +kernel), nextColumn.trans (by decide +kernel)⟩
  have read := readBack 3 (by omega)
  rwa [inside] at read

end CodeEntities.Text.Position
