import CodeEntities.Proofs.Text.Split
import CodeEntities.Rules.Haskell
import Mathlib.Tactic.MkIffOfInductiveProp

namespace CodeEntities.Haskell

open Text (isBlank trimChars pieces)

variable {cs pad tail : List Char} {c : Char} {w s : String}

@[mk_iff]
structure IsWord (s : String) : Prop where
  filled : s ≠ ""
  visible : ∀ c ∈ s.toList, isBlank c = false
  comma : ',' ∉ s.toList
  opening : '(' ∉ s.toList
  closing : ')' ∉ s.toList

-- The characters of the text are tried, not all characters there are.
instance (s : String) : Decidable (IsWord s) :=
  haveI := List.decidableBAll (isBlank · = false) s.toList
  decidable_of_iff' _ (isWord_iff s)

-- An item of an import list: a name, and what stands in parentheses behind it, with the blanks
-- around its entries.
structure ImportItem where
  name : String
  entries : Option (List String) := none

namespace ImportItem

def text (i : ImportItem) : String :=
  match i.entries with
  | none => i.name
  | some entries => i.name ++ "(" ++ Text.join "," entries ++ ")"

@[mk_iff]
structure Valid (i : ImportItem) : Prop where
  name : IsWord i.name
  entries : ∀ entry ∈ i.entries.getD [], IsWord (Text.trim entry)

instance (i : ImportItem) : Decidable i.Valid := decidable_of_iff' _ (valid_iff i)

def opened (i : ImportItem) : List Char :=
  match i.entries with
  | none => i.name.toList
  | some entries => i.name.toList ++ '(' :: [','].intercalate (entries.map String.toList)

def closer (i : ImportItem) : List Char := if i.entries.isSome then [')'] else []

theorem text_chars (i : ImportItem) : i.text.toList = i.opened ++ i.closer := by
  obtain ⟨name, entries⟩ := i
  cases entries with
  | none => exact (List.append_nil _).symm
  | some entries =>
    have joined : (Text.join "," entries).toList = [','].intercalate (entries.map String.toList) :=
      String.toList_intercalate
    have opening : "(".toList = ['('] := rfl
    simp only [text, opened, closer, String.toList_append, joined, opening]
    simp

end ImportItem

def nameOf (cs : List Char) : String := Text.trim (Text.before (Text.trim (String.ofList cs)) "(")

def readNames (cs : List Char) : List String :=
  ((pieces (· == ',') cs).map nameOf).filter (! ·.isEmpty)

theorem importedNames_eq (cs : List Char) : importedNames (String.ofList cs) = readNames cs := by
  rw [importedNames, Text.split, String.toList_ofList, List.map_map]
  rfl

theorem readNames_comma (cs ds : List Char) :
    readNames (cs ++ ',' :: ds) = readNames cs ++ readNames ds := by
  rw [readNames, Text.pieces_append (by rfl), List.map_append, List.filter_append]
  rfl

-- What is read of some items: their names, and behind each a further one for every entry of its
-- list but the first.
inductive ReadAs : List ImportItem → List String → Prop
  | nil : ReadAs [] []
  | cons {i : ImportItem} {items : List ImportItem} {more found : List String}
      (extra : more.length = (i.entries.getD []).length - 1) (rest : ReadAs items found) :
      ReadAs (i :: items) (i.name :: (more ++ found))

theorem ReadAs.sublist {items : List ImportItem} {found : List String} (read : ReadAs items found) :
    (items.map (·.name)).Sublist found := by
  induction read with
  | nil => exact .slnil
  | cons _ _ ih => exact (ih.trans (List.sublist_append_right _ _)).cons_cons _

theorem ReadAs.exact_iff {items : List ImportItem} {found : List String}
    (read : ReadAs items found) :
    found = items.map (·.name) ↔ ∀ i ∈ items, (i.entries.getD []).length ≤ 1 := by
  induction read with
  | nil => simp
  | @cons i items more found extra rest ih =>
    rw [List.map_cons, List.cons.injEq, List.forall_mem_cons, ← ih]
    constructor
    · rintro ⟨-, same⟩
      have longer := rest.sublist.length_le
      have length := congrArg List.length same
      rw [List.length_append] at length
      have nothing : more = [] := List.eq_nil_of_length_eq_zero (by omega)
      rw [nothing] at extra same
      exact ⟨by simpa [Nat.sub_eq_zero_iff_le] using extra.symm, same⟩
    · rintro ⟨single, same⟩
      have nothing : more = [] := List.eq_nil_of_length_eq_zero (by omega)
      exact ⟨rfl, by rw [nothing, List.nil_append, same]⟩

theorem IsWord.chars_filled (word : IsWord w) : w.toList ≠ [] :=
  word.filled ∘ String.toList_eq_nil_iff.mp

theorem IsWord.trimmed (word : IsWord w) : trimChars w.toList = w.toList :=
  Text.trim_eq_iff.mp (Text.trim_unblank word.visible)

theorem nameOf_list (blank : ∀ c ∈ pad, isBlank c = true) (word : IsWord w) (cs : List Char) :
    nameOf (pad ++ (w.toList ++ '(' :: cs)) = w := by
  have trimmed := Text.trimChars_kept word.trimmed word.chars_filled (c := '(') rfl cs
  let whole := Text.trim (String.ofList (pad ++ (w.toList ++ '(' :: cs)))
  have cut : Text.cutChars ['('] whole.toList = some (w.toList, Text.trimEndChars cs) := by
    rw [Text.trim_toList, String.toList_ofList, Text.trimChars_before blank, trimmed]
    exact Text.cutChars_char word.opening _
  rw [nameOf]
  refine (congrArg Text.trim (Text.before_of_chars cut)).trans ?_
  rw [String.ofList_toList]
  exact Text.trim_eq_iff.mpr word.trimmed

theorem nameOf_plain (absent : '(' ∉ cs) : nameOf cs = Text.trim (String.ofList cs) := by
  have absent : '(' ∉ (Text.trim (String.ofList cs)).toList := by
    rw [Text.trim_toList, String.toList_ofList]
    exact fun member => absent ((Text.trimChars_cut cs).subset member)
  exact (congrArg Text.trim (Text.before_char absent)).trans (Text.trim_trim _)

theorem nameOf_filled (absent : '(' ∉ cs) (visible : ∃ c ∈ cs, isBlank c = false) :
    nameOf cs ≠ "" := by
  rw [nameOf_plain absent]
  intro empty
  obtain ⟨c, member, visible⟩ := visible
  have blank : trimChars cs = [] := by
    have chars := congrArg String.toList empty
    rwa [Text.trim_toList, String.toList_ofList] at chars
  rw [Text.blank_of_trimChars blank c member] at visible
  cases visible

theorem readNames_eq {first : List Char} {more : List (List Char)}
    (split : pieces (· == ',') cs = first :: more) (named : nameOf first = w) (filled : w ≠ "")
    (entries : ∀ m ∈ more, nameOf m ≠ "") : readNames cs = w :: more.map nameOf := by
  have kept : ∀ s ∈ w :: more.map nameOf, (!s.isEmpty) = true := by
    refine List.forall_mem_cons.mpr ⟨by simpa using filled, List.forall_mem_map.mpr ?_⟩
    exact fun m member => by simpa using entries m member
  rw [readNames, split, List.map_cons, named, List.filter_eq_self.mpr kept]

structure IsEntry (cs : List Char) : Prop where
  comma : ',' ∉ cs
  opening : '(' ∉ cs
  visible : ∃ c ∈ cs, isBlank c = false

theorem not_mem_untrimmed (absent : c ∉ (Text.trim s).toList) (visible : isBlank c = false) :
    c ∉ s.toList :=
  fun member => absent ((Text.trim_toList s).symm ▸ Text.mem_trimChars member visible)

theorem IsWord.entry (word : IsWord (Text.trim s)) : IsEntry s.toList where
  comma := not_mem_untrimmed word.comma rfl
  opening := not_mem_untrimmed word.opening rfl
  visible := by
    obtain ⟨c, rest, text⟩ := List.exists_cons_of_ne_nil word.chars_filled
    have first : c ∈ (Text.trim s).toList := text ▸ List.mem_cons_self ..
    refine ⟨c, ?_, word.visible c first⟩
    rw [Text.trim_toList] at first
    exact (Text.trimChars_cut _).subset first

theorem IsEntry.append (entry : IsEntry cs) (comma : ',' ∉ tail) (opening : '(' ∉ tail) :
    IsEntry (cs ++ tail) where
  comma := List.not_mem_append entry.comma comma
  opening := List.not_mem_append entry.opening opening
  visible := by
    obtain ⟨c, member, visible⟩ := entry.visible
    exact ⟨c, List.mem_append_left _ member, visible⟩

theorem pieces_plain (absent : ',' ∉ cs) : pieces (· == ',') cs = [cs] :=
  Text.pieces_whole fun _ member => beq_false_of_ne fun same => absent (same ▸ member)

-- The pieces of a list in parentheses, cut at its commas. The first one has what stands before
-- the list, the last one what stands behind it.
theorem pieces_entries {front : List Char} {entry : List Char} {entries : List (List Char)}
    (plain : ',' ∉ front) (each : ∀ e ∈ entry :: entries, IsEntry e) (comma : ',' ∉ tail)
    (opening : '(' ∉ tail) :
    ∃ first more, pieces (· == ',') (front ++ ([','].intercalate (entry :: entries) ++ tail)) =
        (front ++ first) :: more ∧
      more.length = entries.length ∧ ∀ m ∈ first :: more, IsEntry m := by
  induction entries generalizing front entry with
  | nil =>
    have own := (each entry (List.mem_singleton_self _)).append comma opening
    refine ⟨entry ++ tail, [], ?_, rfl, List.forall_mem_singleton.mpr own⟩
    rw [List.intercalate_singleton]
    exact pieces_plain (List.not_mem_append plain own.comma)
  | cons next entries ih =>
    obtain ⟨own, others⟩ := List.forall_mem_cons.mp each
    have bare : ',' ∉ ([] : List Char) := List.not_mem_nil
    obtain ⟨first, more, split, length, later⟩ := ih bare others
    refine ⟨entry, first :: more, ?_, congrArg (· + 1) length,
      List.forall_mem_cons.mpr ⟨own, later⟩⟩
    rw [List.intercalate_cons_cons, List.append_assoc, List.append_assoc,
      ← List.append_assoc front, List.singleton_append, Text.pieces_append (by rfl),
      pieces_plain (List.not_mem_append plain own.comma)]
    exact congrArg _ split

theorem readNames_item {i : ImportItem} (valid : i.Valid) (blank : ∀ c ∈ pad, isBlank c = true)
    (ending : tail = [] ∨ tail = i.closer) :
    ∃ more, readNames (pad ++ (i.opened ++ tail)) = i.name :: more ∧
      more.length = (i.entries.getD []).length - 1 := by
  obtain ⟨name, entries⟩ := i
  have word : IsWord name := valid.name
  have front : ',' ∉ pad ++ name.toList :=
    List.not_mem_append (Text.not_mem_blanks blank rfl) word.comma
  cases entries with
  | none =>
    have unclosed : tail = [] := by simpa [ImportItem.closer] using ending
    have plain : '(' ∉ pad ++ name.toList :=
      List.not_mem_append (Text.not_mem_blanks blank rfl) word.opening
    have named : nameOf (pad ++ name.toList) = name := by
      rw [nameOf_plain plain, ← String.toList_inj, Text.trim_toList, String.toList_ofList,
        Text.trimChars_before blank, word.trimmed]
    refine ⟨[], ?_, rfl⟩
    rw [unclosed, List.append_nil]
    exact readNames_eq (pieces_plain front) named word.filled (List.forall_mem_nil _)
  | some entries =>
    have closing : ',' ∉ tail ∧ '(' ∉ tail := by
      rcases ending with rfl | rfl
      · exact ⟨List.not_mem_nil, List.not_mem_nil⟩
      · simp [ImportItem.closer]
    have opening : ',' ∉ pad ++ name.toList ++ ['('] := List.not_mem_append front (by decide)
    have text : pad ++ (ImportItem.opened ⟨name, some entries⟩ ++ tail) =
        pad ++ name.toList ++ ['('] ++
          ([','].intercalate (entries.map String.toList) ++ tail) := by
      simp [ImportItem.opened]
    have named (cs : List Char) : nameOf (pad ++ name.toList ++ ['('] ++ cs) = name := by
      rw [List.append_assoc, List.append_assoc]
      exact nameOf_list blank word cs
    rw [text]
    cases entries with
    | nil =>
      refine ⟨[], readNames_eq (pieces_plain ?_) (named _) word.filled (List.forall_mem_nil _), rfl⟩
      exact List.not_mem_append opening closing.1
    | cons entry entries =>
      have each : ∀ e ∈ (entry :: entries).map String.toList, IsEntry e :=
        List.forall_mem_map.mpr fun e member => (valid.entries e member).entry
      obtain ⟨first, more, split, length, others⟩ :=
        pieces_entries opening each closing.1 closing.2
      refine ⟨more.map nameOf, readNames_eq split (named _) word.filled fun m member => ?_, ?_⟩
      · have own := others m (List.mem_cons_of_mem _ member)
        exact nameOf_filled own.opening own.visible
      · rw [List.length_map, length, List.length_map]
        rfl

theorem readNames_join {items : List ImportItem} {last : ImportItem}
    (valid : ∀ i ∈ items ++ [last], i.Valid) (blank : ∀ c ∈ pad, isBlank c = true) :
    ReadAs (items ++ [last])
      (readNames (pad ++ [',', ' '].intercalate (items.map (·.text.toList) ++ [last.opened]))) := by
  induction items generalizing pad with
  | nil =>
    obtain ⟨more, read, extra⟩ :=
      readNames_item (valid last (List.mem_singleton_self _)) blank (.inl rfl)
    rw [List.append_nil] at read
    rw [List.map_nil, List.nil_append, List.nil_append, List.intercalate_singleton, read]
    exact (List.append_nil more) ▸ .cons extra .nil
  | cons i items ih =>
    obtain ⟨own, others⟩ := List.forall_mem_cons.mp valid
    obtain ⟨more, read, extra⟩ := readNames_item own blank (.inr rfl)
    have rest := ih others Text.blank_space
    rw [← i.text_chars] at read
    rw [List.cons_append, List.map_cons, List.cons_append,
      List.intercalate_cons_of_ne_nil (List.concat_ne_nil _ _), List.append_assoc,
      ← List.append_assoc pad]
    have cut := readNames_comma (pad ++ i.text.toList)
      ([' '] ++ [',', ' '].intercalate (items.map (·.text.toList) ++ [last.opened]))
    rw [read] at cut
    exact cut ▸ .cons extra rest

theorem opened_unclosed {i : ImportItem} (valid : i.Valid) : ')' ∉ i.opened := by
  obtain ⟨name, entries⟩ := i
  have word : IsWord name := valid.name
  cases entries with
  | none => exact word.closing
  | some entries =>
    have joined : ')' ∉ [','].intercalate (entries.map String.toList) := by
      refine Text.char_join (List.cons_ne_nil _ _) (by decide) (List.forall_mem_map.mpr ?_)
      exact fun entry member => not_mem_untrimmed (valid.entries entry member).closing rfl
    exact List.not_mem_append word.closing (List.not_mem_cons_of_ne_of_not_mem (by decide) joined)

theorem opened_filled {i : ImportItem} (valid : i.Valid) : i.opened ≠ [] := by
  have filled := valid.name.chars_filled
  obtain ⟨name, entries⟩ := i
  cases entries with
  | none => exact filled
  | some entries => exact List.append_ne_nil_of_left_ne_nil filled _

theorem list_opened {items : List ImportItem} {last : ImportItem} (valid : last.Valid) :
    ([',', ' '].intercalate ((items ++ [last]).map (·.text.toList)) ++ [')']).rdropWhile
      (· == ')') = [',', ' '].intercalate (items.map (·.text.toList) ++ [last.opened]) := by
  obtain ⟨front, joined⟩ := Text.join_ending (items.map (·.text.toList))
  have kept : last.opened.rdropWhile (· == ')') = last.opened :=
    List.rdropWhile_eq_self_iff.mpr fun filled closing =>
      opened_unclosed valid (beq_iff_eq.mp closing ▸ List.getLast_mem filled)
  have filled : last.opened.rdropWhile (· == ')') ≠ [] := kept.symm ▸ opened_filled valid
  have closed : (front ++ last.opened ++ last.closer).rdropWhile (· == ')') =
      front ++ last.opened := by
    unfold ImportItem.closer
    split
    · rw [List.rdropWhile_concat_pos _ _ _ (by rfl), Text.rdropWhile_append filled, kept]
    · rw [List.append_nil, Text.rdropWhile_append filled, kept]
  rw [List.map_append, List.map_singleton, joined, joined,
    List.rdropWhile_concat_pos _ _ _ (by rfl), last.text_chars, ← List.append_assoc, closed]

def importText (name : String) (items : List ImportItem) : String :=
  "import " ++ name ++ " (" ++ Text.join ", " (items.map (·.text)) ++ ")"

def itemChars (items : List ImportItem) : List Char :=
  [',', ' '].intercalate (items.map (·.text.toList))

theorem importText_chars (name : String) (items : List ImportItem) :
    (importText name items).toList =
      "import".toList ++ ([' '] ++ (name.toList ++ [' ', '('] ++ itemChars items ++ [')'])) := by
  have joined : (Text.join ", " (items.map (·.text))).toList = itemChars items :=
    String.toList_intercalate.trans (congrArg _ List.map_map)
  have opening : " (".toList = [' ', '('] := rfl
  have closing : ")".toList = [')'] := rfl
  have keyword : "import ".toList = "import".toList ++ [' '] := rfl
  simp only [importText, String.toList_append, joined, opening, closing, keyword]
  simp only [List.append_assoc]

def importKeywords : List String := ["qualified", "safe", "hiding"]

theorem importText_bare (word : IsWord w) (items : List ImportItem) :
    Text.trim (Text.dropPrefixes (importText w items) "import") =
      String.ofList (w.toList ++ [' ', '('] ++ itemChars items ++ [')']) := by
  obtain ⟨count, length⟩ : ∃ count, (importText w items).length = count + 1 := by
    refine Nat.exists_eq_add_one_of_ne_zero fun textless => ?_
    have chars := importText_chars w items
    rw [String.toList_eq_nil_iff.mpr (String.length_eq_zero_iff.mp textless)] at chars
    cases chars
  rw [← String.toList_inj, Text.trim_toList, Text.dropPrefixes, String.toList_ofList, length,
    importText_chars, Text.dropCopies_once (by simp), Text.trimChars_before Text.blank_space,
    String.toList_ofList, List.append_assoc w.toList]
  exact Text.trimChars_between word.trimmed word.chars_filled rfl _

theorem importText_cut (word : IsWord w) (items : List ImportItem) :
    Text.cut? (String.ofList (w.toList ++ [' ', '('] ++ itemChars items ++ [')'])) "(" =
      some (String.ofList (w.toList ++ [' ']), String.ofList (itemChars items ++ [')'])) := by
  have absent : '(' ∉ w.toList ++ [' '] := List.not_mem_append word.opening (by decide)
  have cut := Text.cutChars_char absent (itemChars items ++ [')'])
  refine Text.cut_of_chars (?_ : Text.cutChars ['('] _ = _)
  rw [String.toList_ofList, ← cut]
  simp

theorem words_word (word : IsWord w) : Text.words (String.ofList (w.toList ++ [' '])) = [w] := by
  have whole := Text.pieces_whole word.visible
  have kept : (! w.isEmpty) = true := by simpa using word.filled
  rw [Text.words, Text.split, String.toList_ofList, Text.pieces_append (by rfl), whole]
  simp [Text.pieces, kept]

theorem importedNames_of {items : List ImportItem} {last : ImportItem}
    (valid : ∀ i ∈ items ++ [last], i.Valid) :
    ReadAs (items ++ [last]) (importedNames (Text.dropEndWhile (· == ')')
      (Text.trimEnd (String.ofList (itemChars (items ++ [last]) ++ [')']))))) := by
  have closed : Text.trimEndChars (itemChars (items ++ [last]) ++ [')']) =
      itemChars (items ++ [last]) ++ [')'] := by
    rw [Text.trimEndChars, Text.dropTrailing_eq, List.rdropWhile_concat_neg _ _ _ (by decide)]
  rw [Text.trimEnd, Text.dropEndWhile, String.toList_ofList, String.toList_ofList, closed,
    Text.dropTrailing_eq, itemChars, list_opened (valid last (by simp)), importedNames_eq]
  have blank : ∀ c ∈ [], isBlank c = true := List.forall_mem_nil _
  exact readNames_join valid blank

def importOf (cx : Context) (n : Node) (name : String) (found : List String) : ImportDecl :=
  { source := name
    specifiers := found.map fun item => { localName := item, imported := item, kind := .named }
    location := cx.location n }

theorem importOf_inj {cx : Context} {n : Node} {name : String} {found other : List String} :
    [importOf cx n name found] = [importOf cx n name other] ↔ found = other := by
  refine ⟨fun equal => ?_, fun equal => by rw [equal]⟩
  have specifiers := congrArg ImportDecl.specifiers (List.singleton_inj.mp equal)
  have names := congrArg (List.map ImportSpecifier.imported) specifiers
  simpa [importOf, Function.comp_def] using names

theorem importsOf_written {cx : Context} {n : Node} {items : List ImportItem} (word : IsWord w)
    (plain : w ∉ importKeywords) (written : cx.trimmed n = importText w items) :
    importsOf cx n = [importOf cx n w (importedNames (Text.dropEndWhile (· == ')')
      (Text.trimEnd (String.ofList (itemChars items ++ [')'])))))] := by
  obtain ⟨qualified, safe, hides⟩ : w ≠ "qualified" ∧ w ≠ "safe" ∧ w ≠ "hiding" := by
    simpa [importKeywords] using plain
  have hides : (w == "hiding") = false := beq_false_of_ne hides
  unfold importsOf
  simp only [written, importText_bare word, importText_cut word, words_word word]
  simp [qualified, safe, hides, importOf]

-- A written import is read as one import, with the names of its items in order. Nothing else is
-- read exactly if no item lists more than one entry in parentheses.
theorem import_items_kept_iff (cx : Context) (n : Node) (name : String) (items : List ImportItem)
    (word : IsWord name) (plain : name ∉ importKeywords) (listed : items ≠ [])
    (valid : ∀ i ∈ items, i.Valid) (written : cx.trimmed n = importText name items) :
    (∃ found, importsOf cx n = [importOf cx n name found] ∧
        (items.map (·.name)).Sublist found) ∧
      (importsOf cx n = [importOf cx n name (items.map (·.name))] ↔
        ∀ i ∈ items, (i.entries.getD []).length ≤ 1) := by
  have split := List.dropLast_append_getLast listed
  have read := importedNames_of (split.symm ▸ valid)
  rw [split] at read
  rw [importsOf_written word plain written, importOf_inj]
  exact ⟨⟨_, rfl, read.sublist⟩, read.exact_iff⟩

def importLine (source : String) : Node :=
  .root (.whole "import" 0 source.utf8ByteSize none [])

theorem import_without_longer_lists :
    let cx : Context := ⟨"import Data.Map (Map, Set(..), P())", "m.hs", .haskell, {}⟩
    let items : List ImportItem := [⟨"Map", none⟩, ⟨"Set", some [".."]⟩, ⟨"P", some []⟩]
    IsWord "Data.Map" ∧ "Data.Map" ∉ importKeywords ∧ items ≠ [] ∧ (∀ i ∈ items, i.Valid) ∧
      cx.trimmed (importLine cx.source) = importText "Data.Map" items ∧
      importsOf cx (importLine cx.source) =
        [importOf cx (importLine cx.source) "Data.Map" ["Map", "Set", "P"]] := by
  intro cx items
  have word : IsWord "Data.Map" := by decide +kernel
  have plain : "Data.Map" ∉ importKeywords := by decide +kernel
  have valid : ∀ i ∈ items, i.Valid := by decide +kernel
  have written : cx.trimmed (importLine cx.source) = importText "Data.Map" items := by
    decide +kernel
  have kept := import_items_kept_iff cx (importLine cx.source) "Data.Map" items word plain
    (List.cons_ne_nil _ _) valid written
  exact ⟨word, plain, List.cons_ne_nil _ _, valid, written, kept.2.mpr (by decide +kernel)⟩

-- The second of two constructors is read as a name of its own.
theorem longer_list_adds_name :
    ¬ ∀ (cx : Context) (n : Node) (name : String) (items : List ImportItem), IsWord name →
      name ∉ importKeywords → items ≠ [] → (∀ i ∈ items, i.Valid) →
      cx.trimmed n = importText name items →
        importsOf cx n = [importOf cx n name (items.map (·.name))] := by
  intro listed
  let cx : Context := ⟨"import A (d, F(G, H))", "m.hs", .haskell, {}⟩
  let items : List ImportItem := [⟨"d", none⟩, ⟨"F", some ["G", " H"]⟩]
  have read := listed cx (importLine cx.source) "A" items (by decide +kernel) (by decide +kernel)
    (List.cons_ne_nil _ _) (by decide +kernel) (by decide +kernel)
  have longer : importsOf cx (importLine cx.source) =
      [importOf cx (importLine cx.source) "A" ["d", "F", "H"]] := by decide +kernel
  rw [longer, importOf_inj] at read
  exact absurd read (by decide +kernel)

end CodeEntities.Haskell
