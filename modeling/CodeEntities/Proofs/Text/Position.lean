import CodeEntities.Proofs.Text.Offset
import CodeEntities.Text.Position
import Mathlib.Data.List.Induction

namespace CodeEntities.Text

section Bytes

theorem bytes_append (before after : String) :
    bytes (before ++ after) = bytes before ++ bytes after := by
  rw [bytes, String.toList_append, List.flatMap_append]
  rfl

theorem length_encoded (cs : List Char) :
    (cs.flatMap String.utf8EncodeChar).length = byteLength cs := by
  induction cs with
  | nil => rfl
  | cons c cs ih =>
    rw [List.flatMap_cons, List.length_append, String.length_utf8EncodeChar, ih]
    rfl

theorem length_bytes (s : String) : (bytes s).length = s.utf8ByteSize :=
  (length_encoded s.toList).trans (byteLength_toList s)

theorem lineFeed_ofNat {n : Nat} (byte : n < 256) : lineFeed = UInt8.ofNat n ↔ n = 10 := by
  rw [← UInt8.toNat_inj, UInt8.toNat_ofNat_of_lt' byte]
  exact eq_comm

theorem lineFeed_encoded {c : Char} : lineFeed ∈ String.utf8EncodeChar c ↔ c = '\n' := by
  have feed : c = '\n' ↔ c.val.toNat = 10 := by
    rw [Char.ext_iff, ← UInt32.toNat_inj]
    rfl
  simp only [String.utf8EncodeChar, feed]
  generalize c.val.toNat = code
  split_ifs <;>
    simp (disch := omega) only [List.mem_cons, List.not_mem_nil, or_false, lineFeed_ofNat] <;> omega

end Bytes

namespace Position

variable {p q r : Position} {bs ds : List UInt8}

instance : LE Position where
  le p q := p.row < q.row ∨ p.row = q.row ∧ p.column ≤ q.column

instance : LT Position where
  lt p q := p.row < q.row ∨ p.row = q.row ∧ p.column < q.column

instance (p q : Position) : Decidable (p ≤ q) :=
  inferInstanceAs (Decidable (p.row < q.row ∨ p.row = q.row ∧ p.column ≤ q.column))

instance (p q : Position) : Decidable (p < q) :=
  inferInstanceAs (Decidable (p.row < q.row ∨ p.row = q.row ∧ p.column < q.column))

theorem le_def : p ≤ q ↔ p.row < q.row ∨ p.row = q.row ∧ p.column ≤ q.column := Iff.rfl

def origin : Position := ⟨0, 0⟩

-- Goes on from a position by as much as leads from the origin to another one.
def advance (p later : Position) : Position :=
  if later.row = 0 then ⟨p.row, p.column + later.column⟩ else ⟨p.row + later.row, later.column⟩

theorem advance_origin (p : Position) : p.advance origin = p := rfl

theorem advance_row (p q : Position) : (p.advance q).row = p.row + q.row := by
  unfold advance
  split
  · next same => rw [same, Nat.add_zero]
  · rfl

theorem advance_column (p q : Position) :
    (p.advance q).column = if q.row = 0 then p.column + q.column else q.column := by
  unfold advance
  split <;> rfl

theorem advance_assoc (p q r : Position) : (p.advance q).advance r = p.advance (q.advance r) := by
  unfold advance
  by_cases last : r.row = 0
  · by_cases middle : q.row = 0 <;> simp [last, middle, Nat.add_assoc]
  · simp only [if_neg last]
    split <;> simp_all [Nat.add_assoc]

theorem le_advance (p q : Position) : p ≤ p.advance q := by
  unfold advance
  split
  · exact .inr ⟨rfl, Nat.le_add_right ..⟩
  · exact .inl (Nat.lt_add_of_pos_right (by omega))

theorem lt_advance (p : Position) (moves : q ≠ origin) : p < p.advance q := by
  obtain ⟨row, column⟩ := q
  unfold advance
  split
  · next same =>
    have columns : 0 < column := Nat.pos_of_ne_zero fun zero => moves (congrArg₂ mk same zero)
    exact .inr ⟨rfl, Nat.lt_add_of_pos_right columns⟩
  · exact .inl (Nat.lt_add_of_pos_right (Nat.pos_of_ne_zero ‹_›))

section Behind

def ofByte (b : UInt8) : Position := if b = lineFeed then ⟨1, 0⟩ else ⟨0, 1⟩

theorem behind_nil : behind [] = origin := rfl

theorem lastFeed_concat (bs : List UInt8) (b : UInt8) :
    lastFeed? (bs ++ [b]) = if b = lineFeed then some bs.length else lastFeed? bs := by
  unfold lastFeed?
  rw [List.reverse_concat, List.findIdx?_cons, List.length_append, List.length_singleton]
  by_cases feed : b = lineFeed
  · simp [feed]
  · simp only [beq_iff_eq, feed, if_false, Option.map_map]
    refine congrArg (Option.map · _) (funext fun later => ?_)
    simp only [Function.comp_apply]
    omega

theorem lastFeed_lt {feed : Nat} (found : lastFeed? bs = some feed) : feed < bs.length := by
  obtain ⟨later, index, rfl⟩ := Option.map_eq_some_iff.mp found
  have inside := (List.findIdx?_eq_some_iff_getElem.mp index).1
  rw [List.length_reverse] at inside
  omega

theorem behind_concat (bs : List UInt8) (b : UInt8) :
    behind (bs ++ [b]) = (behind bs).advance (ofByte b) := by
  unfold behind ofByte
  rw [lastFeed_concat, List.countP_append, List.length_append]
  by_cases feed : b = lineFeed
  · simp [feed, advance]
  · cases last : lastFeed? bs with
    | none => simp [feed, advance]
    | some earlier =>
      have inside := lastFeed_lt last
      simp only [feed, advance, if_false, if_true, mk.injEq]
      constructor
      · simp [feed]
      · simp only [List.length_singleton]
        omega

theorem behind_append (bs ds : List UInt8) :
    behind (bs ++ ds) = (behind bs).advance (behind ds) := by
  induction ds using List.reverseRecOn with
  | nil => rw [List.append_nil, behind_nil, advance_origin]
  | append_singleton ds d ih =>
    rw [← List.append_assoc, behind_concat, behind_concat, ih, advance_assoc]

theorem behind_single (b : UInt8) : behind [b] = ofByte b := by
  have alone := behind_concat [] b
  rw [List.nil_append] at alone
  rw [alone, behind_nil]
  unfold ofByte
  split <;> rfl

theorem behind_cons (b : UInt8) (bs : List UInt8) :
    behind (b :: bs) = (ofByte b).advance (behind bs) := by
  rw [← List.singleton_append, behind_append, behind_single]

theorem behind_feed (bs : List UInt8) :
    behind (lineFeed :: bs) = ⟨(behind bs).row + 1, (behind bs).column⟩ := by
  rw [behind_cons, ofByte, if_pos rfl]
  unfold advance
  split <;> simp_all [Nat.add_comm]

theorem behind_other {b : UInt8} (other : b ≠ lineFeed) (bs : List UInt8) :
    behind (b :: bs) =
      ⟨(behind bs).row,
        if (behind bs).row = 0 then (behind bs).column + 1 else (behind bs).column⟩ := by
  rw [behind_cons, ofByte, if_neg other]
  unfold advance
  split <;> simp_all [Nat.add_comm]

theorem behind_ne_origin (filled : bs ≠ []) : behind bs ≠ origin := by
  cases bs with
  | nil => exact absurd rfl filled
  | cons b bs =>
    rw [behind_cons]
    unfold ofByte advance origin
    split_ifs <;> simp only [ne_eq, mk.injEq] <;> omega

theorem behind_plain (plain : lineFeed ∉ bs) : behind bs = ⟨0, bs.length⟩ := by
  have other : ∀ b ∈ bs, ¬(b == lineFeed) = true := by
    intro b member same
    exact plain (beq_iff_eq.mp same ▸ member)
  have feedless : lastFeed? bs = none := by
    rw [lastFeed?, Option.map_eq_none_iff, List.findIdx?_eq_none_iff]
    intro b member
    exact Bool.eq_false_iff.mpr (other b (List.mem_reverse.mp member))
  rw [behind, List.countP_eq_zero.mpr other, feedless]

theorem behind_row_pos : 0 < (behind bs).row ↔ lineFeed ∈ bs := by
  rw [behind, List.countP_pos_iff]
  simp

-- The bytes behind the last line feed.
def lastLine (cs : List Char) : Nat := byteLength (cs.reverse.takeWhile (· != '\n'))

theorem behind_encoded (c : Char) :
    behind (String.utf8EncodeChar c) = if c = '\n' then ⟨1, 0⟩ else ⟨0, c.utf8Size⟩ := by
  split
  · next feed =>
    rw [feed]
    rfl
  · next other =>
    rw [behind_plain (lineFeed_encoded.not.mpr other), String.length_utf8EncodeChar]

theorem behind_exact (cs : List Char) :
    behind (cs.flatMap String.utf8EncodeChar) = ⟨cs.count '\n', lastLine cs⟩ := by
  induction cs using List.reverseRecOn with
  | nil => rfl
  | append_singleton cs c ih =>
    rw [List.flatMap_append, List.flatMap_singleton, behind_append, ih, behind_encoded]
    unfold advance lastLine
    by_cases feed : c = '\n'
    · simp [feed, byteLength]
    · simp [feed, byteLength, Nat.add_comm]

end Behind

section AtOffset

variable (s : String)

theorem atOffset_eq (offset : Nat) : atOffset s offset = behind ((bytes s).take offset) := by
  rw [atOffset, ← length_bytes, ← List.take_eq_take_min]

theorem atOffset_zero : atOffset s 0 = origin := by
  rw [atOffset_eq, List.take_zero, behind_nil]

-- What is read between two offsets leads from the position of the first to that of the second.
theorem atOffset_between {i j : Nat} (le : i ≤ j) :
    atOffset s j = (atOffset s i).advance (behind (((bytes s).take j).drop i)) := by
  have front : ((bytes s).take j).take i = (bytes s).take i := by
    rw [List.take_take, Nat.min_eq_left le]
  rw [atOffset_eq, atOffset_eq, ← front, ← behind_append, List.take_append_drop]

theorem atOffset_mono {i j : Nat} (le : i ≤ j) : atOffset s i ≤ atOffset s j := by
  rw [atOffset_between s le]
  exact le_advance _ _

theorem atOffset_strictMono {i j : Nat} (lt : i < j) (inside : j ≤ s.utf8ByteSize) :
    atOffset s i < atOffset s j := by
  rw [atOffset_between s (Nat.le_of_lt lt)]
  refine lt_advance _ (behind_ne_origin (List.ne_nil_of_length_pos ?_))
  rw [List.length_drop, List.length_take, length_bytes]
  omega

def ending : Position := atOffset s s.utf8ByteSize

theorem atOffset_beyond {offset : Nat} (beyond : s.utf8ByteSize ≤ offset) :
    atOffset s offset = ending s := by
  rw [ending, atOffset, atOffset, Nat.min_eq_right beyond, Nat.min_self]

theorem ending_exact : ending s = ⟨s.toList.count '\n', lastLine s.toList⟩ := by
  rw [ending, atOffset_eq, ← length_bytes, List.take_length, bytes, behind_exact]

theorem count_bytes : (bytes s).count lineFeed = s.toList.count '\n' :=
  congrArg row (behind_exact s.toList)

theorem atOffset_row_le (offset : Nat) : (atOffset s offset).row ≤ s.toList.count '\n' := by
  have rows : (ending s).row = s.toList.count '\n' := by rw [ending_exact]
  rw [← rows]
  by_cases inside : offset ≤ s.utf8ByteSize
  · rcases le_def.mp (atOffset_mono s inside) with lower | ⟨same, _⟩
    · exact Nat.le_of_lt lower
    · exact Nat.le_of_eq same
  · exact Nat.le_of_eq (congrArg row (atOffset_beyond s (by omega)))

theorem atOffset_append (before after : String) (k : Nat) :
    atOffset (before ++ after) (before.utf8ByteSize + k) =
      (ending before).advance (atOffset after k) := by
  rw [ending, atOffset_eq, atOffset_eq, atOffset_eq, bytes_append, ← length_bytes,
    List.take_length_add_append, List.take_length, behind_append]

theorem atOffset_size (before after : String) :
    atOffset (before ++ after) before.utf8ByteSize = ending before := by
  have same := atOffset_append before after 0
  rwa [atOffset_zero, advance_origin] at same

-- The position of an offset counts the line feeds before it and the bytes behind the
-- last of them.
theorem atOffset_exact (before after : String) :
    atOffset (before ++ after) before.utf8ByteSize =
      ⟨before.toList.count '\n', lastLine before.toList⟩ := by
  rw [atOffset_size, ending_exact]

end AtOffset

end Position

end CodeEntities.Text
