import CodeEntities.Text.Offset

namespace CodeEntities.Text

variable {cs ds : List Char} {n : Nat}

theorem byteLength_append (cs ds : List Char) :
    byteLength (cs ++ ds) = byteLength cs + byteLength ds := by
  induction cs with
  | nil => simp [byteLength]
  | cons c cs ih => simp [byteLength, ih, Nat.add_assoc]

theorem byteLength_ofList (cs : List Char) : (String.ofList cs).utf8ByteSize = byteLength cs := by
  induction cs with
  | nil => rfl
  | cons c cs ih =>
    rw [← List.singleton_append, String.ofList_append, String.utf8ByteSize_append, ih,
      ← String.singleton_eq_ofList, String.utf8ByteSize_singleton]
    rfl

theorem byteLength_toList (s : String) : byteLength s.toList = s.utf8ByteSize := by
  rw [← byteLength_ofList, String.ofList_toList]

theorem dropBytes_cons (c : Char) (cs : List Char) (more : Nat) :
    dropBytes (c.utf8Size + more) (c :: cs) = dropBytes more cs := by
  have size := c.utf8Size_pos
  obtain ⟨k, same⟩ : ∃ k, c.utf8Size + more = k + 1 := ⟨c.utf8Size + more - 1, by omega⟩
  rw [same, dropBytes, if_pos (by omega), ← same, Nat.add_sub_cancel_left]

theorem takeBytes_cons (c : Char) (cs : List Char) (more : Nat) :
    takeBytes (c.utf8Size + more) (c :: cs) = (takeBytes more cs).map (c :: ·) := by
  have size := c.utf8Size_pos
  obtain ⟨k, same⟩ : ∃ k, c.utf8Size + more = k + 1 := ⟨c.utf8Size + more - 1, by omega⟩
  rw [same, takeBytes, if_pos (by omega), ← same, Nat.add_sub_cancel_left]

theorem dropBytes_append (cs ds : List Char) : dropBytes (byteLength cs) (cs ++ ds) = some ds := by
  induction cs with
  | nil => rw [byteLength, List.nil_append, dropBytes]
  | cons c cs ih => rw [byteLength, List.cons_append, dropBytes_cons, ih]

theorem takeBytes_append (cs ds : List Char) : takeBytes (byteLength cs) (cs ++ ds) = some cs := by
  induction cs with
  | nil => rw [byteLength, takeBytes]
  | cons c cs ih => rw [byteLength, List.cons_append, takeBytes_cons, ih, Option.map_some]

theorem dropBytes_exact :
    dropBytes n cs = some ds ↔ ∃ front, cs = front ++ ds ∧ byteLength front = n := by
  constructor
  · intro dropped
    fun_induction dropBytes n cs with
    | case1 cs => exact ⟨[], by simpa using dropped, rfl⟩
    | case2 n => cases dropped
    | case3 n c cs fits ih =>
      obtain ⟨front, rfl, size⟩ := ih dropped
      refine ⟨c :: front, rfl, ?_⟩
      rw [byteLength, size]
      omega
    | case4 n c cs split => cases dropped
  · rintro ⟨front, rfl, rfl⟩
    exact dropBytes_append front ds

-- An offset cuts a text in two exactly when its first bytes are whole characters.
theorem isBoundary_exact {s : String} :
    isBoundary s.toList n = true ↔ String.Pos.Raw.IsValid s ⟨n⟩ := by
  rw [String.Pos.Raw.isValid_iff_exists_append, isBoundary, Option.isSome_iff_exists]
  constructor
  · rintro ⟨rest, dropped⟩
    obtain ⟨front, split, size⟩ := dropBytes_exact.mp dropped
    refine ⟨String.ofList front, String.ofList rest, ?_, ?_⟩
    · rw [← String.ofList_append, ← split, String.ofList_toList]
    · rw [String.Pos.Raw.ext_iff, String.byteIdx_rawEndPos, byteLength_ofList, size]
  · rintro ⟨before, after, rfl, size⟩
    rw [String.Pos.Raw.ext_iff, String.byteIdx_rawEndPos] at size
    refine ⟨after.toList, dropBytes_exact.mpr ⟨before.toList, String.toList_append, ?_⟩⟩
    rw [byteLength_toList, ← size]

theorem slice_middle (before middle after : String) :
    slice (before ++ middle ++ after) before.utf8ByteSize
      (before.utf8ByteSize + middle.utf8ByteSize) = middle := by
  unfold slice sliceChars?
  rw [if_pos (Nat.le_add_right _ _), Nat.add_sub_cancel_left, String.append_assoc,
    String.toList_append, ← byteLength_toList before, dropBytes_append, Option.bind_some,
    String.toList_append, ← byteLength_toList middle, takeBytes_append, Option.getD_some,
    String.ofList_toList]

theorem slice_front (before after : String) :
    slice (before ++ after) 0 before.utf8ByteSize = before := by
  have middle := slice_middle "" before after
  rwa [String.empty_append, String.utf8ByteSize_empty, Nat.zero_add] at middle

theorem slice_rest (before after : String) :
    slice (before ++ after) before.utf8ByteSize (before ++ after).utf8ByteSize = after := by
  have middle := slice_middle before after ""
  rwa [String.append_empty, ← String.utf8ByteSize_append] at middle

end CodeEntities.Text
