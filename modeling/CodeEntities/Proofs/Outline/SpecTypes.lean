import CodeEntities.Proofs.Text.Split
import CodeEntities.Proofs.Text.Nesting
import CodeEntities.Rules.Elixir

namespace CodeEntities.Elixir

open Text (IsItem IsPiece itemsFrom trimChars)

variable {name result last : String} {types : List String} {cs : List Char}

def specText (name : String) (types : List String) (result : String) : String :=
  name ++ "(" ++ Text.join ", " types ++ ") :: " ++ result

@[mk_iff]
structure IsSpecType (type : String) : Prop where
  item : IsItem [","] type
  plain : ¬ IsPiece "::" type

instance (type : String) : Decidable (IsSpecType type) :=
  decidable_of_iff' _ (isSpecType_iff type)

def listChars (types : List String) : List Char :=
  [',', ' '].intercalate (types.map String.toList) ++ [')']

theorem specText_chars (name : String) (types : List String) (result : String) :
    (specText name types result).toList =
      name.toList ++ '(' :: listChars types ++ [' '] ++ ([':', ':'] ++ ' ' :: result.toList) := by
  have joined : (Text.join ", " types).toList = [',', ' '].intercalate (types.map String.toList) :=
    String.toList_intercalate
  have opening : "(".toList = ['('] := rfl
  have closing : ") :: ".toList = [')', ' ', ':', ':', ' '] := rfl
  simp only [specText, String.toList_append, joined, opening, closing, listChars]
  simp only [List.append_assoc, List.cons_append, List.nil_append]

theorem head_plain (plain : ¬ IsPiece "::" name) (each : ∀ type ∈ types, IsSpecType type) :
    ¬ [':', ':'] <:+: name.toList ++ '(' :: listChars types := by
  have filled : [':', ':'] ≠ [] := List.cons_ne_nil _ _
  have apart : ∀ c ∈ [',', ' '], c ∉ [':', ':'] := by simp
  intro found
  rcases Text.infix_apart filled (by decide) found with inName | inList
  · exact plain (Text.isPiece_iff.mpr inName)
  · rcases Text.infix_apart filled (by decide) inList with joined | none
    · obtain ⟨item, member, inside⟩ :=
        Text.infix_join filled (List.cons_ne_nil _ _) apart joined
      obtain ⟨type, listed, rfl⟩ := List.mem_map.mp member
      exact (each type listed).plain (Text.isPiece_iff.mpr inside)
    · exact absurd (List.infix_nil.mp none) filled

theorem specText_cut (plain : ¬ IsPiece "::" name) (each : ∀ type ∈ types, IsSpecType type) :
    Text.cut? (specText name types result) "::" =
      some (String.ofList (name.toList ++ '(' :: listChars types ++ [' ']),
        String.ofList (' ' :: result.toList)) := by
  have blank : ' ' ∉ [':', ':'] := by decide
  have cut := Text.cutChars_behind (List.cons_ne_nil _ _) blank (head_plain plain each)
    (' ' :: result.toList)
  exact Text.cut_of_chars ((specText_chars name types result).symm ▸ cut)

theorem specText_list (named : '(' ∉ name.toList) :
    Text.cut? (String.ofList (name.toList ++ '(' :: listChars types ++ [' '])) "(" =
      some (String.ofList name.toList, String.ofList (listChars types ++ [' '])) := by
  have cut := Text.cutChars_char named (listChars types ++ [' '])
  refine Text.cut_of_chars (?_ : Text.cutChars ['('] _ = _)
  rw [String.toList_ofList, List.append_assoc]
  exact cut

theorem listChars_trim (listed : types ≠ []) (each : ∀ type ∈ types, IsSpecType type) :
    trimChars (listChars types ++ [' ']) = listChars types := by
  obtain ⟨first, others, rfl⟩ := List.exists_cons_of_ne_nil listed
  have item := (each first (List.mem_cons_self ..)).item
  obtain ⟨more, joined⟩ : ∃ more, listChars (first :: others) = first.toList ++ more ++ [')'] := by
    by_cases alone : others = []
    · exact ⟨[], by simp [listChars, alone]⟩
    · refine ⟨[',', ' '] ++ [',', ' '].intercalate (others.map String.toList), ?_⟩
      rw [listChars, List.map_cons, List.intercalate_cons_of_ne_nil (by simpa using alone),
        List.append_assoc first.toList]
  rw [Text.trimChars_behind Text.blank_space, joined]
  exact Text.trimChars_between item.trimChars (by simpa using item.filled) rfl more

def bareChars (type : String) : List Char := type.toList.rdropWhile (· == ')')

-- The brackets of a type balance, so that it does not consist of closing ones and blanks.
theorem bareChars_filled {type : String} (item : IsItem [","] type) :
    trimChars (bareChars type) ≠ [] := by
  intro empty
  have blank := Text.blank_of_trimChars empty
  let closers := type.toList.rtakeWhile (· == ')')
  have split : bareChars type ++ closers = type.toList := List.rdropWhile_append_rtakeWhile
  have same : closers = List.replicate closers.length ')' :=
    List.eq_replicate_of_mem fun c member =>
      beq_iff_eq.mp (List.mem_rtakeWhile_imp (p := (· == ')')) member)
  have unclosed : closers.length = 0 := by
    have closed := item.closed
    rw [← split, Text.depthBehind_append, Text.depthBehind_blanks blank, same,
      Text.depthBehind_closing] at closed
    omega
  have alone : bareChars type = type.toList := by
    rw [← split, List.eq_nil_of_length_eq_zero unclosed, List.append_nil]
  rw [alone, item.trimChars] at empty
  exact item.filled (String.toList_eq_nil_iff.mp empty)

theorem listChars_bare (item : IsItem [","] last) :
    (listChars (types ++ [last])).rdropWhile (· == ')') =
      [',', ' '].intercalate (types.map String.toList ++ [bareChars last]) := by
  obtain ⟨front, joined⟩ := Text.join_ending (types.map String.toList)
  have filled : bareChars last ≠ [] := by
    intro empty
    exact bareChars_filled item (by rw [empty]; rfl)
  rw [listChars, List.map_append, List.map_singleton, joined, joined,
    List.rdropWhile_concat_pos _ _ _ (by rfl), Text.rdropWhile_append filled]
  rfl

def bareType (type : String) : String := Text.trim (Text.dropEndWhile (· == ')') type)

theorem bareType_chars (type : String) : (bareType type).toList = trimChars (bareChars type) := by
  rw [bareType, Text.trim_toList, Text.dropEndWhile, String.toList_ofList, Text.dropTrailing_eq]
  rfl

theorem bareType_filled {type : String} (item : IsItem [","] type) : bareType type ≠ "" := by
  intro empty
  exact bareChars_filled item (by rw [← bareType_chars, empty]; rfl)

theorem items_bare (each : ∀ type ∈ types ++ [last], IsSpecType type) :
    Text.items (String.ofList
      ([',', ' '].intercalate (types.map String.toList ++ [bareChars last]))) =
        types ++ [bareType last] := by
  have item (type : String) (member : type ∈ types) : IsItem [","] type :=
    (each type (List.mem_append_left _ member)).item
  have ending := (each last (by simp)).item
  have closed : ∀ cs ∈ types.map String.toList, Text.depthBehind 0 cs = 0 :=
    List.forall_mem_map.mpr fun type member => (item type member).closed
  have whole : ∀ cs ∈ types.map String.toList ++ [bareChars last],
      ¬ Text.StandsOutside [','] 0 cs := by
    refine List.forall_mem_append.mpr ⟨List.forall_mem_map.mpr fun type member => ?_, ?_⟩
    · exact (item type member).whole "," (List.mem_singleton_self _)
    · refine List.forall_mem_singleton.mpr fun stands => ?_
      exact ending.whole "," (List.mem_singleton_self _)
        (Text.standsOutside_front (List.rdropWhile_prefix _ _) stands)
  have read : (itemsFrom 0 ([',', ' '].intercalate
      (types.map String.toList ++ [bareChars last]))).map trimChars =
        (types ++ [bareType last]).map String.toList := by
    rw [Text.itemsFrom_join closed whole, List.map_append, Text.items_trimmed item, List.map_append,
      List.map_singleton, List.map_singleton, bareType_chars]
  have other : ((types ++ [bareType last]).getLast? == some "") = false := by
    simpa using bareType_filled ending
  simp only [Text.items, String.toList_ofList, Text.map_trim read, other]
  rfl

theorem specTypes_bare (named : '(' ∉ name.toList) (plain : ¬ IsPiece "::" name)
    (each : ∀ type ∈ types ++ [last], IsSpecType type) (trimmed : Text.trim result = result)
    (written : result ≠ "") :
    specTypes (specText name (types ++ [last]) result) =
      (types ++ [bareType last], some result) := by
  have ending : Text.nonBlank? (String.ofList (' ' :: result.toList)) = some result := by
    refine Text.nonBlank_of_trim ?_ written
    rw [← String.toList_inj, Text.trim_toList, String.toList_ofList]
    exact (Text.trimChars_before Text.blank_space _).trans (Text.trim_eq_iff.mp trimmed)
  have list : Text.dropEndWhile (· == ')')
      (Text.trim (String.ofList (listChars (types ++ [last]) ++ [' ']))) =
        String.ofList ([',', ' '].intercalate (types.map String.toList ++ [bareChars last])) := by
    rw [Text.dropEndWhile, Text.trim_toList, String.toList_ofList,
      listChars_trim (List.concat_ne_nil last types) each, Text.dropTrailing_eq,
      listChars_bare (each last (by simp)).item]
  simp only [specTypes, specText_cut plain each, specText_list named, ending, list, items_bare each]

theorem bareType_own {type : String} (trimmed : Text.trim type = type) :
    bareType type = type ↔ Text.endsWith type ")" = false := by
  rw [← String.toList_inj, bareType_chars]
  constructor
  · intro same
    refine Bool.eq_false_iff.mpr fun closing => ?_
    obtain ⟨front, split⟩ := List.isSuffixOf_iff_suffix.mp closing
    have bare : bareChars type = front.rdropWhile (· == ')') := by
      rw [bareChars, ← split]
      exact List.rdropWhile_concat_pos _ _ _ rfl
    have shorter := (Text.trimChars_cut (bareChars type)).length_le
    have dropped := (List.rdropWhile_prefix (· == ')') front).length_le
    have longer := congrArg List.length split
    rw [same, bare] at shorter
    rw [List.length_append] at longer
    exact absurd (longer.trans_le (shorter.trans dropped)) (by simp)
  · intro other
    have bare : bareChars type = type.toList := by
      refine List.rdropWhile_eq_self_iff.mpr fun filled closing => ?_
      have ending : ")".toList <:+ type.toList := by
        refine ⟨type.toList.dropLast, ?_⟩
        rw [← List.dropLast_append_getLast filled, beq_iff_eq.mp closing, List.dropLast_concat]
        rfl
      exact Bool.false_ne_true (other.symm.trans (List.isSuffixOf_iff_suffix.mpr ending))
    rw [bare, Text.trim_eq_iff.mp trimmed]

-- A written spec is read back, its last argument type without the brackets that close it. It is
-- thus read back as it was written exactly if no bracket closes its last argument type.
theorem spec_reads_back_iff (name result : String) (types : List String)
    (named : '(' ∉ name.toList) (plain : ¬ IsPiece "::" name) (listed : types ≠ [])
    (each : ∀ type ∈ types, IsSpecType type) (trimmed : Text.trim result = result)
    (written : result ≠ "") :
    specTypes (specText name types result) =
        (types.dropLast ++ [bareType (types.getLast listed)], some result) ∧
      (specTypes (specText name types result) = (types, some result) ↔
        Text.endsWith (types.getLast listed) ")" = false) := by
  have split := List.dropLast_append_getLast listed
  have parts : ∀ type ∈ types.dropLast ++ [types.getLast listed], IsSpecType type :=
    split.symm ▸ each
  have read := specTypes_bare named plain parts trimmed written
  rw [split] at read
  refine ⟨read, ?_⟩
  have last := (each _ (List.getLast_mem listed)).item
  rw [read, Prod.mk.injEq, ← bareType_own last.trimmed]
  refine ⟨fun ⟨same, _⟩ => ?_, fun same => ⟨by rw [same, split], rfl⟩⟩
  conv_rhs at same => rw [← split]
  exact List.singleton_inj.mp (List.append_cancel_left same)

theorem nested_spec_reads_back :
    let types := ["map(atom, {term, [a]})", "integer"]
    '(' ∉ "get".toList ∧ ¬ IsPiece "::" "get" ∧ (∀ type ∈ types, IsSpecType type) ∧
      specTypes "get(map(atom, {term, [a]}), integer) :: {:ok, term} | :error" =
        (types, some "{:ok, term} | :error") := by
  intro types
  have named : '(' ∉ "get".toList := by decide +kernel
  have plain : ¬ IsPiece "::" "get" := by decide +kernel
  have each : ∀ type ∈ types, IsSpecType type := by decide +kernel
  obtain ⟨_, exactly⟩ := spec_reads_back_iff "get" "\x7b:ok, term\x7d | :error" types named plain
    (List.cons_ne_nil _ _) each (by decide +kernel) (by decide +kernel)
  exact ⟨named, plain, each, exactly.mpr (by decide +kernel)⟩

-- The brackets of `integer()` are lost with the one that closes the list.
theorem closing_brackets_are_lost :
    ¬ ∀ (name result : String) (types : List String), '(' ∉ name.toList → ¬ IsPiece "::" name →
      types ≠ [] → (∀ type ∈ types, IsSpecType type) → Text.trim result = result → result ≠ "" →
        specTypes (specText name types result) = (types, some result) := by
  intro readBack
  have read := readBack "f" "atom" ["integer()"] (by decide +kernel) (by decide +kernel)
    (List.cons_ne_nil _ _) (by decide +kernel) (by decide +kernel) (by decide +kernel)
  have lost : specTypes (specText "f" ["integer()"] "atom") = (["integer("], some "atom") := by
    decide +kernel
  rw [lost] at read
  exact absurd read (by decide +kernel)

end CodeEntities.Elixir
