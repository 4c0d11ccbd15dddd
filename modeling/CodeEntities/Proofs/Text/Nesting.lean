import CodeEntities.Proofs.Text.Trim
import CodeEntities.Text.Nesting
import Mathlib.Tactic.MkIffOfInductiveProp

namespace CodeEntities.Text

variable {mark cs ds rest current : List Char} {depth : Int} {c x : Char}

def depthBehind (depth : Int) (cs : List Char) : Int := cs.foldl bracketDepth depth

-- A mark stands at a place of a text where no bracket is open.
def StandsOutside (mark : List Char) (depth : Int) (cs : List Char) : Prop :=
  ∃ i < cs.length, depthBehind depth (cs.take i) = 0 ∧ mark <+: cs.drop i

instance (mark : List Char) (depth : Int) (cs : List Char) :
    Decidable (StandsOutside mark depth cs) :=
  inferInstanceAs (Decidable (∃ i < cs.length, _))

-- A piece that marks outside of brackets separate: trimmed and filled, closing its own
-- brackets, and without such a mark itself.
@[mk_iff]
structure IsItem (marks : List String) (s : String) : Prop where
  trimmed : trim s = s
  filled : s ≠ ""
  closed : depthBehind 0 s.toList = 0
  whole : ∀ mark ∈ marks, ¬ StandsOutside mark.toList 0 s.toList

instance (marks : List String) (s : String) : Decidable (IsItem marks s) :=
  decidable_of_iff' _ (isItem_iff marks s)

@[simp]
theorem depthBehind_nil (depth : Int) : depthBehind depth [] = depth := rfl

@[simp]
theorem depthBehind_cons (depth : Int) (c : Char) (cs : List Char) :
    depthBehind depth (c :: cs) = depthBehind (bracketDepth depth c) cs := rfl

theorem depthBehind_append (depth : Int) (cs ds : List Char) :
    depthBehind depth (cs ++ ds) = depthBehind (depthBehind depth cs) ds :=
  List.foldl_append

theorem standsOutside_cons : StandsOutside mark depth (c :: cs) ↔
    depth = 0 ∧ mark <+: c :: cs ∨ StandsOutside mark (bracketDepth depth c) cs :=
  Nat.exists_lt_succ_left

theorem standsOutside_front (front : cs <+: ds) (stands : StandsOutside mark depth cs) :
    StandsOutside mark depth ds := by
  obtain ⟨rest, rfl⟩ := front
  obtain ⟨i, within, outside, found⟩ := stands
  refine ⟨i, ?_, ?_, ?_⟩
  · rw [List.length_append]
    omega
  · rwa [List.take_append_of_le_length (Nat.le_of_lt within)]
  · rw [List.drop_append_of_le_length (Nat.le_of_lt within)]
    exact List.prefix_append_of_prefix found

theorem bracketDepth_blank (blank : isBlank c = true) : bracketDepth depth c = depth := by
  have other {bracket : Char} (visible : isBlank bracket = false) : c ≠ bracket := by
    rintro rfl
    exact Bool.false_ne_true (visible.symm.trans blank)
  have openings : c ≠ '(' ∧ c ≠ '[' ∧ c ≠ '{' := ⟨other rfl, other rfl, other rfl⟩
  have closings : c ≠ ')' ∧ c ≠ ']' ∧ c ≠ '}' := ⟨other rfl, other rfl, other rfl⟩
  simp [bracketDepth, openings, closings]

theorem depthBehind_blanks (blank : ∀ c ∈ cs, isBlank c = true) :
    depthBehind depth cs = depth := by
  induction cs with
  | nil => rfl
  | cons c cs ih =>
    obtain ⟨first, others⟩ := List.forall_mem_cons.mp blank
    rw [depthBehind_cons, bracketDepth_blank first, ih others]

theorem depthBehind_closing (n : Nat) :
    depthBehind depth (List.replicate n ')') = depth - n := by
  induction n generalizing depth with
  | zero => simp
  | succ n ih =>
    have down : bracketDepth depth ')' = depth - 1 := rfl
    rw [List.replicate_succ, depthBehind_cons, ih, down]
    omega

section Items

theorem itemsFrom_ne_nil (depth : Int) (cs : List Char) : itemsFrom depth cs ≠ [] := by
  fun_cases itemsFrom depth cs <;> simp

theorem itemsFrom_cons (plain : ¬(c = ',' ∧ depth = 0)) :
    itemsFrom depth (c :: cs) = (itemsFrom (bracketDepth depth c) cs).modifyHead (c :: ·) := by
  rw [itemsFrom, if_neg plain]
  cases later : itemsFrom (bracketDepth depth c) cs with
  | nil => exact absurd later (itemsFrom_ne_nil _ _)
  | cons first others => rfl

theorem itemsFrom_append (whole : ¬ StandsOutside [','] depth cs) (rest : List Char) :
    itemsFrom depth (cs ++ rest) =
      (itemsFrom (depthBehind depth cs) rest).modifyHead (cs ++ ·) := by
  induction cs generalizing depth with
  | nil => exact (congrFun List.modifyHead_id _).symm
  | cons c cs ih =>
    obtain ⟨here, later⟩ := not_or.mp (standsOutside_cons.not.mp whole)
    have plain : ¬(c = ',' ∧ depth = 0) := by
      rintro ⟨rfl, outside⟩
      exact here ⟨outside, cs, rfl⟩
    rw [List.cons_append, itemsFrom_cons plain, ih later, List.modifyHead_modifyHead]
    rfl

-- The items of a list are read back up to the blanks around them. The last one need not close
-- its brackets.
theorem itemsFrom_join {items : List (List Char)} {last : List Char}
    (closed : ∀ item ∈ items, depthBehind 0 item = 0)
    (whole : ∀ item ∈ items ++ [last], ¬ StandsOutside [','] 0 item) :
    (itemsFrom 0 ([',', ' '].intercalate (items ++ [last]))).map trimChars =
      (items ++ [last]).map trimChars := by
  induction items with
  | nil =>
    have alone := itemsFrom_append (whole last (List.mem_singleton_self last)) []
    rw [List.append_nil] at alone
    simp [alone, itemsFrom]
  | cons item items ih =>
    obtain ⟨here, closed⟩ := List.forall_mem_cons.mp closed
    obtain ⟨plain, whole⟩ := List.forall_mem_cons.mp whole
    have blank : bracketDepth 0 ' ' = 0 := rfl
    rw [List.cons_append, List.intercalate_cons_of_ne_nil (List.concat_ne_nil last items),
      List.append_assoc, itemsFrom_append plain, here, List.cons_append, itemsFrom,
      if_pos ⟨rfl, rfl⟩, List.cons_append, List.nil_append, itemsFrom_cons (by decide), blank,
      List.map_cons, ← ih closed whole]
    cases itemsFrom 0 ([',', ' '].intercalate (items ++ [last])) with
    | nil => simp
    | cons first more =>
      have trimmed : trimChars ([' '] ++ first) = trimChars first :=
        trimChars_before blank_space first
      rw [List.map_cons, ← trimmed]
      simp

end Items

section Arrows

variable {done : List (List Char)}

def arrows : List (List Char) := [['-', '>'], ['=', '>']]

theorem arrowsFrom_cons (plain : ∀ arrow ∈ arrows, ¬(depth = 0 ∧ arrow <+: c :: cs)) :
    arrowsFrom depth done current (c :: cs) =
      arrowsFrom (bracketDepth depth c) done (c :: current) cs := by
  have closer (ds : List Char) : arrowsFrom depth done (c :: current) ('>' :: ds) =
      arrowsFrom depth done ('>' :: c :: current) ds := by
    have same : bracketDepth depth '>' = depth := rfl
    rw [arrowsFrom, same]
    · exact fun _ wrong => absurd wrong (by decide)
    · exact fun _ wrong => absurd wrong (by decide)
  generalize text : c :: cs = whole at plain ⊢
  fun_cases arrowsFrom depth done current whole with
  | case1 => cases text
  | case2 ds outside =>
    exact absurd ⟨outside, ds, rfl⟩ (plain ['=', '>'] (by decide))
  | case3 ds inside =>
    cases text
    exact (closer ds).symm
  | case4 ds outside =>
    exact absurd ⟨outside, ds, rfl⟩ (plain ['-', '>'] (by decide))
  | case5 ds inside =>
    cases text
    exact (closer ds).symm
  | case6 =>
    cases text
    rfl

theorem arrow_apart (apart : rest.head? ≠ some '>')
    (plain : ∀ arrow ∈ arrows, ¬(depth = 0 ∧ arrow <+: c :: cs)) :
    ∀ arrow ∈ arrows, ¬(depth = 0 ∧ arrow <+: c :: (cs ++ rest)) := by
  rintro arrow member ⟨outside, found⟩
  refine plain arrow member ⟨outside, ?_⟩
  obtain ⟨first, rfl⟩ : ∃ first, arrow = [first, '>'] := by
    rcases List.mem_pair.mp member with rfl | rfl <;> exact ⟨_, rfl⟩
  cases cs with
  | nil =>
    obtain ⟨ds, text⟩ := (List.cons_prefix_cons.mp found).2
    exact absurd (congrArg List.head? text).symm apart
  | cons x cs => simpa [List.cons_prefix_cons] using found

theorem arrowsFrom_append (whole : ∀ arrow ∈ arrows, ¬ StandsOutside arrow depth cs)
    (apart : rest.head? ≠ some '>') :
    arrowsFrom depth done current (cs ++ rest) =
      arrowsFrom (depthBehind depth cs) done (cs.reverse ++ current) rest := by
  induction cs generalizing depth current with
  | nil => rfl
  | cons c cs ih =>
    have plain : ∀ arrow ∈ arrows, ¬(depth = 0 ∧ arrow <+: c :: cs) := fun arrow member here =>
      whole arrow member (standsOutside_cons.mpr (.inl here))
    have later : ∀ arrow ∈ arrows, ¬ StandsOutside arrow (bracketDepth depth c) cs :=
      fun arrow member there => whole arrow member (standsOutside_cons.mpr (.inr there))
    rw [List.cons_append, arrowsFrom_cons (arrow_apart apart plain), ih later]
    simp

-- The types of a list are read back up to the blanks around them, whatever blanks stand before
-- the first one.
theorem arrowsFrom_join {types : List (List Char)} (filled : types ≠ [])
    (closed : ∀ type ∈ types, depthBehind 0 type = 0)
    (whole : ∀ type ∈ types, ∀ arrow ∈ arrows, ¬ StandsOutside arrow 0 type)
    (blank : ∀ c ∈ current, isBlank c = true) :
    (arrowsFrom 0 done current ([' ', '-', '>', ' '].intercalate types)).map trimChars =
      done.reverse.map trimChars ++ types.map trimChars := by
  induction types generalizing done current with
  | nil => exact absurd rfl filled
  | cons type types ih =>
    obtain ⟨here, closed⟩ := List.forall_mem_cons.mp closed
    obtain ⟨plain, whole⟩ := List.forall_mem_cons.mp whole
    have trimmed : trimChars (type.reverse ++ current).reverse = trimChars type := by
      rw [List.reverse_append, List.reverse_reverse, trimChars_before (by simpa using blank)]
    by_cases last : types = []
    · have alone : arrowsFrom 0 done current (type ++ []) = _ :=
        arrowsFrom_append plain (by simp)
      rw [List.append_nil, here] at alone
      simp only [last, List.intercalate_singleton, alone, arrowsFrom, List.reverse_cons,
        List.map_append, List.map_cons, trimmed, List.map_nil]
    · have next : (arrowsFrom 0 ((' ' :: (type.reverse ++ current)).reverse :: done) [' '] _).map
          trimChars = _ := ih last closed whole blank_space
      have before : trimChars (' ' :: (type.reverse ++ current)).reverse = trimChars type := by
        rw [List.reverse_cons, trimChars_behind blank_space, trimmed]
      rw [List.intercalate_cons_of_ne_nil last, List.append_assoc,
        arrowsFrom_append plain (by simp), here]
      refine next.trans ?_
      rw [List.reverse_cons, List.map_append, List.map_singleton, before, List.append_assoc,
        List.map_cons, List.singleton_append]

theorem arrowsFrom_reaches (depth : Int) (done : List (List Char)) (current : List Char)
    {rest : List Char} (apart : rest.head? ≠ some '>') (cs : List Char) :
    ∃ done' current', arrowsFrom depth done current (cs ++ rest) =
      arrowsFrom (depthBehind depth cs) done' current' rest := by
  fun_induction arrowsFrom depth done current cs with
  | case1 => exact ⟨_, _, rfl⟩
  | case2 done current cs ih => exact ih
  | case3 depth done current cs inside ih =>
    obtain ⟨done', current', reached⟩ := ih
    exact ⟨done', current', (if_neg inside).trans reached⟩
  | case4 done current cs ih => exact ih
  | case5 depth done current cs inside ih =>
    obtain ⟨done', current', reached⟩ := ih
    exact ⟨done', current', (if_neg inside).trans reached⟩
  | case6 depth done current c cs noDouble noSingle ih =>
    have plain : ∀ arrow ∈ arrows, ¬(depth = 0 ∧ arrow <+: c :: cs) := by
      rintro arrow member ⟨_, found⟩
      rcases List.mem_pair.mp member with rfl | rfl
      · obtain ⟨same, ds, tail⟩ := List.cons_prefix_cons.mp found
        exact noSingle ds same.symm tail.symm
      · obtain ⟨same, ds, tail⟩ := List.cons_prefix_cons.mp found
        exact noDouble ds same.symm tail.symm
    rw [List.cons_append, arrowsFrom_cons (arrow_apart apart plain)]
    exact ih

-- A context is dropped with its arrow, whatever arrows it has itself.
theorem arrowsFrom_context {context : List Char} (closed : depthBehind 0 context = 0)
    (cs : List Char) :
    arrowsFrom 0 [] [] (context ++ [' ', '=', '>', ' '] ++ cs) = arrowsFrom 0 [] [' '] cs := by
  have apart : ([' ', '=', '>', ' '] ++ cs).head? ≠ some '>' := by simp
  obtain ⟨done, current, reached⟩ := arrowsFrom_reaches 0 [] [] apart context
  rw [List.append_assoc, reached, closed]
  rfl

end Arrows

theorem IsItem.trimChars {marks : List String} {s : String} (item : IsItem marks s) :
    trimChars s.toList = s.toList :=
  trim_eq_iff.mp item.trimmed

theorem items_trimmed {marks items : List String} (each : ∀ item ∈ items, IsItem marks item) :
    (items.map String.toList).map Text.trimChars = items.map String.toList := by
  rw [List.map_map]
  exact List.map_congr_left fun item member => (each item member).trimChars

theorem map_trim {pieces : List (List Char)} {items : List String}
    (read : pieces.map Text.trimChars = items.map String.toList) :
    (pieces.map fun cs => trim (String.ofList cs)) = items := by
  have each : (fun cs => trim (String.ofList cs)) = fun cs => String.ofList (Text.trimChars cs) :=
    funext fun cs => by rw [trim, String.toList_ofList]
  have texts := congrArg (List.map String.ofList) read
  rw [List.map_map, List.map_map] at texts
  rw [each]
  exact texts.trans ((List.map_congr_left fun s _ => String.ofList_toList).trans (List.map_id _))

theorem arrowTypes_of {s : String} {parts : List String}
    (items : ∀ part ∈ parts, IsItem ["->", "=>"] part)
    (read : (arrowsFrom 0 [] [] s.toList).map Text.trimChars = parts.map String.toList) :
    arrowTypes s = parts := by
  rw [arrowTypes, map_trim read, List.filter_eq_self]
  intro part member
  simpa using (items part member).filled

-- The types that a function type is written with are read back, and a context in front of it is
-- dropped as a whole.
theorem arrow_types_read_back (parts : List String) (filled : parts ≠ [])
    (items : ∀ part ∈ parts, IsItem ["->", "=>"] part) :
    arrowTypes (join " -> " parts) = parts ∧
      ∀ context : String, depthBehind 0 context.toList = 0 →
        arrowTypes (context ++ " => " ++ join " -> " parts) = parts := by
  have chars : (join " -> " parts).toList =
      [' ', '-', '>', ' '].intercalate (parts.map String.toList) :=
    String.toList_intercalate
  have read {current : List Char} (blank : ∀ c ∈ current, isBlank c = true) :
      (arrowsFrom 0 [] current (join " -> " parts).toList).map Text.trimChars =
        parts.map String.toList := by
    rw [chars, arrowsFrom_join (by simpa using filled) _ _ blank, items_trimmed items]
    · rfl
    · exact List.forall_mem_map.mpr fun part member => (items part member).closed
    · refine List.forall_mem_map.mpr fun part member => ?_
      simpa [arrows] using (items part member).whole
  refine ⟨arrowTypes_of items (read (by simp)), fun context closed => arrowTypes_of items ?_⟩
  rw [String.toList_append, String.toList_append]
  exact (congrArg _ (arrowsFrom_context closed _)).trans (read blank_space)

-- Arrows in brackets separate nothing, and a context may have arrows of its own.
theorem nested_arrows_read_back :
    let parts := ["(a -> (b, c))", "[d => e]", "{f -> g}"]
    let context := "Fun (a -> b) -> c"
    (∀ part ∈ parts, IsItem ["->", "=>"] part) ∧ depthBehind 0 context.toList = 0 ∧
      arrowTypes "(a -> (b, c)) -> [d => e] -> {f -> g}" = parts ∧
      arrowTypes "Fun (a -> b) -> c => (a -> (b, c)) -> [d => e] -> {f -> g}" = parts := by
  intro parts context
  have items : ∀ part ∈ parts, IsItem ["->", "=>"] part := by decide +kernel
  have closed : depthBehind 0 context.toList = 0 := by decide +kernel
  obtain ⟨alone, behind⟩ := arrow_types_read_back parts (List.cons_ne_nil _ _) items
  exact ⟨items, closed, alone, behind context closed⟩

end CodeEntities.Text
