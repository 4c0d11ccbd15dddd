import CodeEntities.Text.Letter
import CodeEntities.Text.LowerCase

namespace CodeEntities.Text

variable {c : Char} {before back cs : List Char}

theorem ascii_of_toLower (ascii : c.toLower.toNat < 0x80) : c.toNat < 0x80 := by
  unfold Char.toLower at ascii
  split at ascii
  · next capital =>
    have upper : c.toNat ≤ 90 := UInt32.le_iff_toNat_le.mp capital.2
    omega
  · exact ascii

theorem lowerLetter_ne_nil (c : Char) : lowerLetter c ≠ [] := by
  unfold lowerLetter
  split
  · exact List.cons_ne_nil _ _
  · split
    · exact List.cons_ne_nil _ _
    · split <;> exact List.cons_ne_nil _ _

-- Letters stay letters, so a text that is not empty keeps something in front of what follows.
theorem lowerFrom_append (before front back : List Char) :
    ∃ lower, (front ≠ [] → lower ≠ []) ∧
      lowerFrom before (front ++ back) = lower ++ lowerFrom (front.reverse ++ before) back := by
  induction front generalizing before with
  | nil => exact ⟨[], id, rfl⟩
  | cons c front ih =>
    obtain ⟨lower, _, split⟩ := ih (c :: before)
    rw [List.cons_append, lowerFrom, split, List.reverse_cons, List.append_assoc,
      List.singleton_append, ← List.append_assoc]
    refine ⟨_, fun _ => List.append_ne_nil_of_left_ne_nil ?_ lower, rfl⟩
    split
    · exact List.cons_ne_nil _ _
    · exact lowerLetter_ne_nil c

theorem lowerFrom_ascii (ascii : ∀ c ∈ cs, c.toNat < 0x80) :
    lowerFrom before cs = cs.map Char.toLower := by
  induction cs generalizing before with
  | nil => rfl
  | cons c cs ih =>
    have first : c.toNat < 0x80 := ascii c (List.mem_cons_self ..)
    have other : (c == 'Σ') = false := by
      refine beq_eq_false_iff_ne.mpr ?_
      rintro rfl
      exact absurd first (by decide)
    have rest : ∀ d ∈ cs, d.toNat < 0x80 := fun d member => ascii d (List.mem_cons_of_mem _ member)
    simp [lowerFrom, other, lowerLetter, first, ih rest]

theorem lowercase_append (front : String) {ending : String}
    (ascii : ∀ c ∈ ending.toList, c.toNat < 0x80) :
    ∃ lower, (front ≠ "" → lower ≠ "") ∧
      lowercase (front ++ ending) = lower ++ foldAscii ending := by
  obtain ⟨lower, filled, split⟩ := lowerFrom_append [] front.toList ending.toList
  refine ⟨String.ofList lower, fun filledFront => ?_, ?_⟩
  · exact mt String.ofList_eq_empty_iff.mp (filled (mt String.toList_eq_nil_iff.mp filledFront))
  · rw [lowercase, String.toList_append, split, lowerFrom_ascii ascii, String.ofList_append,
      foldAscii, ← String.toList_map, String.ofList_toList]

end CodeEntities.Text
