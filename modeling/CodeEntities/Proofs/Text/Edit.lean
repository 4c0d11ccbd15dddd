import CodeEntities.Proofs.Text.Position
import CodeEntities.Text.Edit

namespace CodeEntities.Text.Edit

variable {old inserted removed before after : String} {start oldEnd : Nat} {e : Edit}

def between (before removed inserted : String) : Edit where
  startByte := before.utf8ByteSize
  oldEndByte := before.utf8ByteSize + removed.utf8ByteSize
  newEndByte := before.utf8ByteSize + inserted.utf8ByteSize
  startPosition := .ending before
  oldEndPosition := .ending (before ++ removed)
  newEndPosition := .ending (before ++ inserted)

def reversed (e : Edit) : Edit :=
  { e with
    oldEndByte := e.newEndByte
    newEndByte := e.oldEndByte
    oldEndPosition := e.newEndPosition
    newEndPosition := e.oldEndPosition }

structure Replaceable (old : String) (start oldEnd : Nat) : Prop where
  forward : start ≤ oldEnd
  inside : oldEnd ≤ old.utf8ByteSize
  startValid : String.Pos.Raw.IsValid old ⟨start⟩
  endValid : String.Pos.Raw.IsValid old ⟨oldEnd⟩

theorem replaceable_parts (before removed after : String) :
    Replaceable (before ++ removed ++ after) before.utf8ByteSize
      (before.utf8ByteSize + removed.utf8ByteSize) := by
  refine ⟨by omega, by simp, ?_, ?_⟩
  · refine String.Pos.Raw.isValid_iff_exists_append.mpr ⟨before, removed ++ after, ?_, rfl⟩
    rw [String.append_assoc]
  · refine String.Pos.Raw.isValid_iff_exists_append.mpr ⟨before ++ removed, after, rfl, ?_⟩
    rw [String.Pos.Raw.ext_iff, String.byteIdx_rawEndPos, String.utf8ByteSize_append]

theorem Replaceable.parts (range : Replaceable old start oldEnd) :
    ∃ before removed after, old = before ++ removed ++ after ∧ start = before.utf8ByteSize ∧
      oldEnd = before.utf8ByteSize + removed.utf8ByteSize := by
  obtain ⟨before, rest, rfl, first⟩ := String.Pos.Raw.isValid_iff_exists_append.mp range.startValid
  have first : start = before.utf8ByteSize := congrArg String.Pos.Raw.byteIdx first
  have forward := range.forward
  have second : String.Pos.Raw.IsValid rest ⟨oldEnd - start⟩ := by
    rcases String.Pos.Raw.isValid_append.mp range.endValid with early | ⟨_, valid⟩
    · have bound : oldEnd ≤ before.utf8ByteSize := early.le_rawEndPos
      have length : oldEnd - start = 0 := by omega
      rw [length]
      exact String.Pos.Raw.isValid_zero
    · rw [first]
      exact valid
  obtain ⟨removed, after, rfl, size⟩ := String.Pos.Raw.isValid_iff_exists_append.mp second
  have size : oldEnd - start = removed.utf8ByteSize := congrArg String.Pos.Raw.byteIdx size
  exact ⟨before, removed, after, (String.append_assoc ..).symm, first, by omega⟩

theorem endPosition_ending (before inserted : String) :
    endPosition (.ending before) inserted = .ending (before ++ inserted) := by
  unfold Position.ending
  rw [String.utf8ByteSize_append, Position.atOffset_append]
  rfl

theorem atOffset_front (before middle after : String) :
    Position.atOffset (before ++ middle ++ after) before.utf8ByteSize = .ending before := by
  rw [String.append_assoc]
  exact Position.atOffset_size before (middle ++ after)

theorem atOffset_behind (before middle after : String) :
    Position.atOffset (before ++ middle ++ after)
      (before.utf8ByteSize + middle.utf8ByteSize) = .ending (before ++ middle) := by
  rw [← String.utf8ByteSize_append]
  exact Position.atOffset_size (before ++ middle) after

theorem replacement_between (before removed after inserted : String) :
    replacement (before ++ removed ++ after) before.utf8ByteSize
      (before.utf8ByteSize + removed.utf8ByteSize) inserted =
        .ok (between before removed inserted) := by
  obtain ⟨forward, inside, first, second⟩ := replaceable_parts before removed after
  unfold replacement
  rw [isBoundary_exact.mpr first, isBoundary_exact.mpr second, atOffset_front, atOffset_behind,
    if_neg (by simp), if_neg (by decide)]
  simp only [endPosition_ending]
  rfl

theorem replacement_replaceable (accepted : replacement old start oldEnd inserted = .ok e) :
    Replaceable old start oldEnd := by
  unfold replacement at accepted
  split at accepted
  · cases accepted
  · rename_i inRange
    split at accepted
    · cases accepted
    · rename_i whole
      simp only [Bool.or_eq_true, decide_eq_true_eq, not_or] at inRange
      simp only [Bool.or_eq_true, Bool.not_eq_true', not_or, Bool.not_eq_false] at whole
      exact ⟨by omega, by omega, isBoundary_exact.mp whole.1, isBoundary_exact.mp whole.2⟩

theorem replacement_exact :
    replacement old start oldEnd inserted = .ok e ↔
      ∃ before removed after, old = before ++ removed ++ after ∧ start = before.utf8ByteSize ∧
        oldEnd = before.utf8ByteSize + removed.utf8ByteSize ∧
        e = between before removed inserted := by
  constructor
  · intro accepted
    obtain ⟨before, removed, after, rfl, rfl, rfl⟩ := (replacement_replaceable accepted).parts
    rw [replacement_between] at accepted
    cases accepted
    exact ⟨before, removed, after, rfl, rfl, rfl, rfl⟩
  · rintro ⟨before, removed, after, rfl, rfl, rfl, rfl⟩
    exact replacement_between before removed after inserted

theorem apply_between (before removed after inserted : String) :
    (between before removed inserted).apply (before ++ removed ++ after) inserted =
      before ++ inserted ++ after := by
  have front : slice (before ++ removed ++ after) 0 before.utf8ByteSize = before := by
    rw [String.append_assoc]
    exact slice_front before (removed ++ after)
  have rest : slice (before ++ removed ++ after) (before ++ removed).utf8ByteSize
      (before ++ removed ++ after).utf8ByteSize = after := slice_rest (before ++ removed) after
  rw [String.utf8ByteSize_append] at rest
  unfold apply
  rw [between, front, rest]

-- An edit is accepted exactly when it replaces whole characters inside the text. It
-- says where its three ends are in the texts before and after it, and the edit back
-- leads from the one text to the other with old and new ends exchanged.
theorem replacement_reversible (old inserted : String) (start oldEnd : Nat) :
    ((∃ e, replacement old start oldEnd inserted = .ok e) ↔ Replaceable old start oldEnd) ∧
    (∀ e, replacement old start oldEnd inserted = .ok e →
      let removed := slice old start oldEnd
      let new := e.apply old inserted
      (∃ before after, old = before ++ removed ++ after ∧ before.utf8ByteSize = start ∧
        (before ++ removed).utf8ByteSize = oldEnd ∧ new = before ++ inserted ++ after) ∧
      (e.startByte = start ∧ e.oldEndByte = oldEnd ∧
        e.newEndByte = start + inserted.utf8ByteSize) ∧
      (e.startPosition = .atOffset old start ∧ e.startPosition = .atOffset new start ∧
        e.oldEndPosition = .atOffset old oldEnd ∧
        e.newEndPosition = .atOffset new e.newEndByte) ∧
      slice new start e.newEndByte = inserted ∧
      replacement new start e.newEndByte removed = .ok e.reversed ∧
      e.reversed.apply new removed = old) ∧
    ∀ before after : String, Position.atOffset (before ++ after) before.utf8ByteSize =
      ⟨before.toList.count '\n', Position.lastLine before.toList⟩ := by
  refine ⟨?_, ?_, Position.atOffset_exact⟩
  · constructor
    · rintro ⟨e, accepted⟩
      exact replacement_replaceable accepted
    · intro range
      obtain ⟨before, removed, after, rfl, rfl, rfl⟩ := range.parts
      exact ⟨_, replacement_between before removed after inserted⟩
  · intro e accepted
    obtain ⟨before, removed, after, rfl, rfl, rfl, rfl⟩ := replacement_exact.mp accepted
    simp only [slice_middle, apply_between]
    refine ⟨⟨before, after, rfl, rfl, String.utf8ByteSize_append, rfl⟩, ⟨rfl, rfl, rfl⟩,
      ⟨?_, ?_, ?_, ?_⟩, ?_, ?_, ?_⟩
    · exact (atOffset_front before removed after).symm
    · exact (atOffset_front before inserted after).symm
    · exact (atOffset_behind before removed after).symm
    · exact (atOffset_behind before inserted after).symm
    · exact slice_middle before inserted after
    · exact replacement_between before inserted after removed
    · exact apply_between before inserted after removed

-- Two lines, the second with `ß` and without its end, become `x` and the start of a third line.
theorem lines_replaced_and_restored :
    ∃ e, replacement "a\nßb\nc" 2 6 "x\n€y" = .ok e ∧
      Replaceable "a\nßb\nc" 2 6 ∧
      e.apply "a\nßb\nc" "x\n€y" = "a\nx\n€yc" ∧
      e.newEndByte = 8 ∧ e.newEndPosition = ⟨2, 4⟩ ∧
      replacement "a\nx\n€yc" 2 8 "ßb\n" = .ok e.reversed ∧
      e.reversed.apply "a\nx\n€yc" "ßb\n" = "a\nßb\nc" := by
  have accepted : replacement "a\nßb\nc" 2 6 "x\n€y" = .ok (between "a\n" "ßb\n" "x\n€y") :=
    rfl
  have applied : (between "a\n" "ßb\n" "x\n€y").apply "a\nßb\nc" "x\n€y" = "a\nx\n€yc" :=
    rfl
  have removed : slice "a\nßb\nc" 2 6 = "ßb\n" := rfl
  obtain ⟨range, described, _⟩ := replacement_reversible "a\nßb\nc" "x\n€y" 2 6
  obtain ⟨_, _, _, _, back, restored⟩ := described _ accepted
  rw [applied, removed] at back restored
  exact ⟨_, accepted, range.mp ⟨_, accepted⟩, applied, rfl, rfl, back, restored⟩

end CodeEntities.Text.Edit
