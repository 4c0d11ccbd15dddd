import CodeEntities.Proofs.Text.Offset
import CodeEntities.Text.Clauses
import CodeEntities.Text.Split
import Mathlib.Data.List.Induction
import Mathlib.Data.List.Infix

namespace CodeEntities.Text

variable {c : Char} {cs front rest : List Char} {depth : Nat}

-- The number of open braces behind a character, and behind a text.

def braceDepth (depth : Nat) (c : Char) : Nat :=
  if c = '{' then depth + 1 else if c = '}' then depth - 1 else depth

def openBraces (depth : Nat) (cs : List Char) : Nat := cs.foldl braceDepth depth

@[simp]
theorem openBraces_nil (depth : Nat) : openBraces depth [] = depth := rfl

@[simp]
theorem openBraces_cons (depth : Nat) (c : Char) (cs : List Char) :
    openBraces depth (c :: cs) = openBraces (braceDepth depth c) cs := rfl

-- Every brace that is opened is closed again; closing braces may be left over.
def ClosesBraces (cs : List Char) : Prop := ∀ back, back <:+ cs → back.count '{' ≤ back.count '}'

structure BracesMatch (cs : List Char) : Prop where
  opened : ∀ front, front <+: cs → front.count '}' ≤ front.count '{'
  closed : cs.count '{' = cs.count '}'

instance (cs : List Char) : Decidable (BracesMatch cs) :=
  decidable_of_iff
    ((∀ front ∈ cs.inits, front.count '}' ≤ front.count '{') ∧ cs.count '{' = cs.count '}')
    ⟨fun ⟨opened, closed⟩ => ⟨fun _ inside => opened _ ((List.mem_inits _ _).mpr inside), closed⟩,
      fun ⟨opened, closed⟩ => ⟨fun _ inside => opened _ ((List.mem_inits _ _).mp inside), closed⟩⟩

def HasOuterComma (cs : List Char) : Prop :=
  ∃ front rest, cs = front ++ ',' :: rest ∧ ClosesBraces front

theorem BracesMatch.closes (matching : BracesMatch cs) : ClosesBraces cs := by
  rintro back ⟨front, rfl⟩
  have before := matching.opened front (List.prefix_append front back)
  have whole := matching.closed
  rw [List.count_append, List.count_append] at whole
  omega

section OpenBraces

theorem openBraces_append (depth : Nat) (front rest : List Char) :
    openBraces depth (front ++ rest) = openBraces (openBraces depth front) rest :=
  List.foldl_append

theorem braceDepth_least (depth : Nat) (c : Char) :
    depth + [c].count '{' ≤ braceDepth depth c + [c].count '}' := by
  unfold braceDepth
  split_ifs <;> simp_all
  omega

-- No end of a text leaves more braces open than are open behind the text.
theorem openBraces_least (depth : Nat) (cs : List Char) :
    depth + cs.count '{' ≤ openBraces depth cs + cs.count '}' := by
  induction cs generalizing depth with
  | nil => exact Nat.le_refl _
  | cons c cs ih =>
    have here := braceDepth_least depth c
    have later := ih (braceDepth depth c)
    rw [openBraces_cons, ← List.singleton_append, List.count_append, List.count_append]
    omega

theorem braceDepth_exact (opened : 0 < depth ∨ c ≠ '}') :
    braceDepth depth c + [c].count '}' = depth + [c].count '{' := by
  unfold braceDepth
  split_ifs <;> simp_all
  omega

theorem openBraces_attained (cs : List Char) :
    ∃ back, back <:+ cs ∧ openBraces 0 cs + back.count '}' = back.count '{' := by
  induction cs using List.reverseRecOn with
  | nil => exact ⟨[], List.nil_suffix, rfl⟩
  | append_singleton cs c ih =>
    obtain ⟨back, inside, attained⟩ := ih
    rw [openBraces_append, openBraces_cons, openBraces_nil]
    by_cases opened : 0 < openBraces 0 cs ∨ c ≠ '}'
    · have here := braceDepth_exact opened
      refine ⟨back ++ [c], List.suffix_append_self_iff.mpr inside, ?_⟩
      rw [List.count_append, List.count_append]
      omega
    · obtain ⟨unopened, closing⟩ := not_or.mp opened
      refine ⟨[], List.nil_suffix, ?_⟩
      rw [Nat.eq_zero_of_not_pos unopened, not_not.mp closing]
      rfl

theorem closesBraces_iff : ClosesBraces cs ↔ openBraces 0 cs = 0 := by
  constructor
  · intro closes
    obtain ⟨back, inside, attained⟩ := openBraces_attained cs
    have closed := closes back inside
    omega
  · rintro unopened back ⟨front, rfl⟩
    have least := openBraces_least (openBraces 0 front) back
    rw [← openBraces_append, unopened] at least
    omega

end OpenBraces

section Cuts

def clausesFrom (depth : Nat) : List Char → List (List Char)
  | [] => [[]]
  | c :: cs =>
    if c = ',' ∧ depth = 0 then [] :: clausesFrom 0 cs
    else (clausesFrom (braceDepth depth c) cs).modifyHead (c :: ·)

theorem clausesFrom_ne_nil (depth : Nat) (cs : List Char) : clausesFrom depth cs ≠ [] := by
  fun_induction clausesFrom depth cs with
  | case1 => simp
  | case2 => simp
  | case3 depth c cs plain ih => simpa using ih

theorem clausesFrom_join (depth : Nat) (cs : List Char) :
    [','].intercalate (clausesFrom depth cs) = cs := by
  fun_induction clausesFrom depth cs with
  | case1 => rfl
  | case2 depth c cs cut ih =>
    rw [List.intercalate_cons_of_ne_nil (clausesFrom_ne_nil 0 cs), ih, cut.1]
    rfl
  | case3 depth c cs plain ih =>
    cases later : clausesFrom (braceDepth depth c) cs with
    | nil => exact absurd later (clausesFrom_ne_nil _ _)
    | cons first others =>
      rw [later] at ih
      rw [List.modifyHead_cons, ← ih]
      cases others <;> simp

theorem clausesFrom_cons (plain : ¬(c = ',' ∧ depth = 0)) :
    clausesFrom depth (c :: cs) = (clausesFrom (braceDepth depth c) cs).modifyHead (c :: ·) := by
  rw [clausesFrom, if_neg plain]

-- No clause can be cut again. The first one is read behind the open braces.
theorem clausesFrom_again {first : List Char} {others : List (List Char)}
    (cut : clausesFrom depth cs = first :: others) :
    clausesFrom depth first = [first] ∧ ∀ clause ∈ others, clausesFrom 0 clause = [clause] := by
  induction cs generalizing depth first others with
  | nil =>
    cases cut
    exact ⟨rfl, nofun⟩
  | cons c cs ih =>
    obtain ⟨next, later, rest⟩ := List.exists_cons_of_ne_nil (clausesFrom_ne_nil 0 cs)
    by_cases comma : c = ',' ∧ depth = 0
    · rw [clausesFrom, if_pos comma] at cut
      cases cut
      obtain ⟨here, behind⟩ := ih rest
      rw [rest]
      exact ⟨rfl, List.forall_mem_cons.mpr ⟨here, behind⟩⟩
    · obtain ⟨next, later, rest⟩ :=
        List.exists_cons_of_ne_nil (clausesFrom_ne_nil (braceDepth depth c) cs)
      rw [clausesFrom_cons comma, rest] at cut
      cases cut
      obtain ⟨here, behind⟩ := ih rest
      exact ⟨by rw [clausesFrom_cons comma, here]; rfl, behind⟩

theorem clausesFrom_whole {clause : List Char} (member : clause ∈ clausesFrom 0 cs) :
    clausesFrom 0 clause = [clause] := by
  obtain ⟨first, others, cut⟩ := List.exists_cons_of_ne_nil (clausesFrom_ne_nil 0 cs)
  obtain ⟨here, behind⟩ := clausesFrom_again cut
  rcases List.mem_cons.mp (cut ▸ member) with rfl | later
  · exact here
  · exact behind clause later

theorem clausesFrom_append (whole : clausesFrom depth cs = [cs]) (rest : List Char) :
    clausesFrom depth (cs ++ rest) =
      (clausesFrom (openBraces depth cs) rest).modifyHead (cs ++ ·) := by
  induction cs generalizing depth with
  | nil => exact (congrFun List.modifyHead_id _).symm
  | cons c cs ih =>
    have plain : ¬(c = ',' ∧ depth = 0) := by
      intro comma
      rw [clausesFrom, if_pos comma] at whole
      cases whole
    obtain ⟨next, later, split⟩ :=
      List.exists_cons_of_ne_nil (clausesFrom_ne_nil (braceDepth depth c) cs)
    have inner : clausesFrom (braceDepth depth c) cs = [cs] := by
      rw [clausesFrom_cons plain, split] at whole
      cases whole
      exact split
    rw [List.cons_append, clausesFrom_cons plain, ih inner, List.modifyHead_modifyHead]
    rfl

theorem clausesFrom_cut (closed : openBraces depth front = 0) (rest : List Char) :
    1 < (clausesFrom depth (front ++ ',' :: rest)).length := by
  induction front generalizing depth with
  | nil =>
    rw [List.nil_append, clausesFrom, if_pos ⟨rfl, closed⟩, List.length_cons]
    exact Nat.succ_lt_succ (List.length_pos_iff.mpr (clausesFrom_ne_nil 0 rest))
  | cons c front ih =>
    by_cases comma : c = ',' ∧ depth = 0
    · rw [List.cons_append, clausesFrom, if_pos comma, List.length_cons]
      exact Nat.succ_lt_succ (List.length_pos_iff.mpr (clausesFrom_ne_nil 0 _))
    · rw [List.cons_append, clausesFrom_cons comma, List.length_modifyHead]
      exact ih closed

theorem clausesFrom_plain (whole : clausesFrom 0 cs = [cs]) : ¬HasOuterComma cs := by
  rintro ⟨front, rest, rfl, closes⟩
  have cut := clausesFrom_cut (closesBraces_iff.mp closes) rest
  rw [whole] at cut
  exact Nat.lt_irrefl 1 cut

theorem clausesFrom_back {clauses : List (List Char)} (filled : clauses ≠ [])
    (closing : ∀ clause ∈ clauses, ClosesBraces clause)
    (whole : ∀ clause ∈ clauses, clausesFrom 0 clause = [clause]) :
    clausesFrom 0 ([','].intercalate clauses) = clauses := by
  induction clauses with
  | nil => exact absurd rfl filled
  | cons clause clauses ih =>
    obtain ⟨closed, closing⟩ := List.forall_mem_cons.mp closing
    obtain ⟨here, whole⟩ := List.forall_mem_cons.mp whole
    by_cases last : clauses = []
    · simpa [last] using here
    · rw [List.intercalate_cons_of_ne_nil last, List.append_assoc, clausesFrom_append here,
        closesBraces_iff.mp closed, List.singleton_append, clausesFrom, if_pos ⟨rfl, rfl⟩,
        ih last closing whole]
      simp

end Cuts

section Scan

variable {s : String} {before part after : List Char}

theorem slice_part (text : s.toList = before ++ part ++ after) :
    slice? s (byteLength before) (byteLength (before ++ part)) = some (String.ofList part) := by
  rw [slice?, sliceChars?, text, byteLength_append, if_pos (Nat.le_add_right ..),
    List.append_assoc, dropBytes_append, Nat.add_sub_cancel_left, Option.bind_some,
    takeBytes_append, Option.map_some]

def ClauseScan.finish? (s : String) (scan : ClauseScan) : Option (List String) :=
  (slice? s scan.start s.utf8ByteSize).map fun last => scan.found ++ [last]

-- A scan never cuts a character. It goes on to the clauses of what is left, the first of which
-- begins with the part that is read already.
theorem scan_exact (text : s.toList = before ++ part ++ rest) (found : List String)
    (depth : Nat) :
    ((charOffsets (byteLength (before ++ part)) rest).foldlM (ClauseScan.read? s)
        ⟨found, depth, byteLength before⟩).bind (ClauseScan.finish? s) =
      some (found ++ ((clausesFrom depth rest).modifyHead (part ++ ·)).map String.ofList) := by
  induction rest generalizing before part found depth with
  | nil =>
    have last := slice_part text
    rw [← List.append_nil (before ++ part), ← text, byteLength_toList] at last
    rw [charOffsets, List.foldlM_nil, Option.pure_def, Option.bind_some, ClauseScan.finish?, last]
    simp [clausesFrom]
  | cons c rest ih =>
    rw [charOffsets, List.foldlM_cons]
    by_cases comma : c = ',' ∧ depth = 0
    · obtain ⟨rfl, rfl⟩ := comma
      have next : s.toList = (before ++ part ++ [',']) ++ [] ++ rest := by
        rw [text]
        simp
      have size : byteLength (before ++ part) + 1 = byteLength (before ++ part ++ [',']) := by
        rw [byteLength_append _ [',']]
        rfl
      have read : ClauseScan.read? s ⟨found, 0, byteLength before⟩
          (byteLength (before ++ part), ',') =
            some ⟨found ++ [String.ofList part], 0, byteLength (before ++ part ++ [','])⟩ := by
        simp [ClauseScan.read?, slice_part text, size]
      have later := ih next (found ++ [String.ofList part]) 0
      rw [List.append_nil] at later
      have comma : byteLength (before ++ part) + ','.utf8Size = _ := size
      rw [read, comma, clausesFrom, if_pos ⟨rfl, rfl⟩]
      refine later.trans ?_
      rw [List.modifyHead_cons, List.append_nil, List.map_cons, List.append_assoc]
      exact congrArg (fun rest => some (found ++ ([_] ++ rest.map String.ofList)))
        (congrFun List.modifyHead_id _)
    · have next : s.toList = before ++ (part ++ [c]) ++ rest := by
        rw [text]
        simp
      have size : byteLength (before ++ part) + c.utf8Size =
          byteLength (before ++ (part ++ [c])) := by
        rw [← List.append_assoc, byteLength_append _ [c]]
        rfl
      have read : ClauseScan.read? s ⟨found, depth, byteLength before⟩
          (byteLength (before ++ part), c) =
            some ⟨found, braceDepth depth c, byteLength before⟩ := by
        simp only [ClauseScan.read?, braceDepth, if_neg comma]
        split_ifs <;> rfl
      rw [read, clausesFrom_cons comma, List.modifyHead_modifyHead, size]
      exact (ih next found _).trans (by simp [Function.comp_def])

end Scan

theorem clauses_exact (s : String) :
    clauses? s = some ((clausesFrom 0 s.toList).map String.ofList) := by
  have text : s.toList = [] ++ [] ++ s.toList := rfl
  exact (scan_exact text [] 0).trans
    (congrArg (fun cs => some (cs.map String.ofList)) (congrFun List.modifyHead_id _))

theorem clauses_eq (s : String) : clauses s = (clausesFrom 0 s.toList).map String.ofList := by
  rw [clauses, clauses_exact, Option.getD_some]

theorem clauses_chars (s : String) : (clauses s).map String.toList = clausesFrom 0 s.toList := by
  rw [clauses_eq, List.map_map]
  exact (List.map_congr_left fun cs _ => String.toList_ofList).trans (List.map_id _)

theorem clauses_whole_iff {s : String} :
    clauses s = [s] ↔ clausesFrom 0 s.toList = [s.toList] := by
  rw [← clauses_chars]
  exact (List.map_injective_iff.mpr fun _ _ => String.toList_inj.mp).eq_iff.symm

-- Clauses lose nothing, and a list of clauses that close their braces is read back.
theorem clauses_lose_nothing :
    (∀ s : String, clauses? s = some (clauses s) ∧ clauses s ≠ [] ∧ join "," (clauses s) = s ∧
      ∀ clause ∈ clauses s, clauses clause = [clause] ∧ ¬HasOuterComma clause.toList) ∧
    ∀ parts : List String, parts ≠ [] →
      (∀ part ∈ parts, BracesMatch part.toList ∧ clauses part = [part]) →
      clauses (join "," parts) = parts := by
  refine ⟨fun s => ⟨?_, ?_, ?_, ?_⟩, fun parts filled each => ?_⟩
  · rw [clauses_eq, clauses_exact]
  · rw [clauses_eq, ne_eq, List.map_eq_nil_iff]
    exact clausesFrom_ne_nil 0 s.toList
  · rw [← String.toList_inj]
    exact String.toList_intercalate.trans ((clauses_chars s).symm ▸ clausesFrom_join 0 s.toList)
  · intro clause member
    have chars := List.mem_map_of_mem (f := String.toList) member
    rw [clauses_chars] at chars
    have whole := clausesFrom_whole chars
    exact ⟨clauses_whole_iff.mpr whole, clausesFrom_plain whole⟩
  · have chars : (join "," parts).toList = [','].intercalate (parts.map String.toList) :=
      String.toList_intercalate
    have back : clausesFrom 0 (join "," parts).toList = parts.map String.toList := by
      rw [chars]
      refine clausesFrom_back (List.map_eq_nil_iff.not.mpr filled) ?_ ?_
      · exact List.forall_mem_map.mpr fun part member => (each part member).1.closes
      · exact List.forall_mem_map.mpr fun part member => clauses_whole_iff.mp (each part member).2
    rw [clauses_eq, back, List.map_map]
    exact (List.map_congr_left fun part _ => String.ofList_toList).trans (List.map_id _)

-- A closing brace too many hides no comma, an open brace hides all that follow.
theorem nested_clauses_read_back :
    let parts := ["a.\x7bB, c => d\x7d", "", " é.\x7bx.\x7by,z\x7d, w\x7d"]
    let broken := "é\x7d,\x7bb,c"
    (parts ≠ [] ∧ (∀ part ∈ parts, BracesMatch part.toList ∧ clauses part = [part]) ∧
      clauses (join "," parts) = parts) ∧
      "\x7bb,c" ∈ clauses broken ∧ clauses "\x7bb,c" = ["\x7bb,c"] ∧
      ¬HasOuterComma "\x7bb,c".toList := by
  intro parts broken
  have filled : parts ≠ [] := List.cons_ne_nil _ _
  have each : ∀ part ∈ parts, BracesMatch part.toList ∧ clauses part = [part] := by
    decide +kernel
  have last : "\x7bb,c" ∈ clauses broken := by decide +kernel
  obtain ⟨_, _, _, whole⟩ := clauses_lose_nothing.1 broken
  exact ⟨⟨filled, each, clauses_lose_nothing.2 parts filled each⟩, last, whole _ last⟩

end CodeEntities.Text
