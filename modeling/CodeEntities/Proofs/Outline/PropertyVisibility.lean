import CodeEntities.Proofs.Text.Split
import CodeEntities.Rules.Swift
import Mathlib.Data.List.Basic

namespace CodeEntities

namespace Modifier

theorem ofKeyword_spelled {word : String} {m : Modifier} (found : ofKeyword? word = some m) :
    word = m.name ∨ (word, m) ∈ synonyms := by
  rcases Option.or_eq_some_iff.mp found with named | ⟨_, other⟩
  · have same := List.find?_some (show all.find? (·.name == word) = some m from named)
    exact .inl (eq_of_beq same).symm
  · obtain ⟨entry, listed, rfl⟩ := Option.map_eq_some_iff.mp other
    have member := List.mem_of_find?_eq_some listed
    have same := List.find?_some listed
    simp only [beq_iff_eq] at same
    exact .inr (same ▸ member)

theorem ofKeyword_private {word : String} :
    ofKeyword? word = some .isPrivate ↔ word = "private" ∨ word = "fileprivate" := by
  refine ⟨fun found => ?_, ?_⟩
  · simpa [synonyms, name] using ofKeyword_spelled found
  · rintro (rfl | rfl) <;> decide

theorem ofKeyword_protected {word : String} :
    ofKeyword? word = some .isProtected ↔ word = "protected" := by
  refine ⟨fun found => ?_, ?_⟩
  · simpa [synonyms, name] using ofKeyword_spelled found
  · rintro rfl
    decide

theorem ofKeyword_public {word : String} :
    ofKeyword? word = some .isPublic ↔ word = "public" ∨ word = "open" := by
  refine ⟨fun found => ?_, ?_⟩
  · simpa [synonyms, name] using ofKeyword_spelled found
  · rintro (rfl | rfl) <;> decide

end Modifier

namespace Context

variable {cx : Context} {n : Node} {m : Modifier}

def cutsModifiers (c : Char) : Bool := Text.isBlank c || c == '('

-- Where modifier keywords are looked for: the modifiers of a node, cut at blanks and at opening
-- parentheses, and its tokens.
def modifierPieces (cx : Context) (n : Node) : List String :=
  n.children.flatMap fun c =>
    if modifierContainers.contains c.kind then Text.split cutsModifiers (cx.text c)
    else if !c.isNamed then [c.kind]
    else []

theorem keywordModifier_eq {word : String} (other : m ≠ .override) :
    keywordModifier? word = some m ↔ Modifier.ofKeyword? word = some m := by
  unfold keywordModifier?
  split
  · next isOverride =>
    have unknown : Modifier.ofKeyword? "@Override" = none := by decide
    rw [eq_of_beq isOverride, unknown]
    exact iff_of_false (fun same => other (Option.some.inj same).symm) nofun
  · rfl

theorem modifiers_contain (other : m ≠ .override) :
    (cx.modifiers n).contains m ↔ ∃ w ∈ cx.modifierPieces n, Modifier.ofKeyword? w = some m := by
  rw [modifiers, Modifiers.contains_ofList, List.contains_iff_mem]
  simp only [modifierPieces, List.mem_flatMap, ← exists_and_right, and_assoc]
  rw [exists_comm]
  refine exists_congr fun c => ?_
  rw [exists_and_left]
  refine and_congr_right fun _ => ?_
  split
  · rw [List.mem_filterMap]
    exact exists_congr fun w => and_congr_right fun _ => keywordModifier_eq other
  · split <;> simp [Option.mem_toList]

end Context

namespace Swift

variable {cx : Context} {n : Node} {p : PropertyDecl}

def modifierWords (cx : Context) (n : Node) : List String :=
  match n.childOfKind? ["modifiers"] with
  | some m => Text.words (cx.text m)
  | none => []

def sayPrivate (words : List String) : Bool :=
  words.contains "private" || words.contains "fileprivate"

def sayPublic (words : List String) : Bool := words.contains "public" || words.contains "open"

def strictest (words : List String) : Visibility :=
  if sayPrivate words then .isPrivate
  else if words.contains "protected" then .isProtected
  else if sayPublic words then .isPublic
  else .internal

theorem visibility_eq (cx : Context) (n : Node) : visibility cx n =
    if sayPrivate (modifierWords cx n) then .isPrivate
    else if sayPublic (modifierWords cx n) then .isPublic
    else .internal := rfl

-- A whole word is a piece unless it is cut itself.
theorem word_heard {w : String} (plain : w.toList.all fun c => !Context.cutsModifiers c)
    (said : w ∈ modifierWords cx n) : w ∈ cx.modifierPieces n := by
  unfold modifierWords at said
  split at said
  · next m found =>
    have kind : m.kind = "modifiers" := by simpa using List.find?_some found
    refine List.mem_flatMap.mpr ⟨m, List.mem_of_find?_eq_some found, ?_⟩
    rw [kind, if_pos (by decide)]
    have whole : ∀ c ∈ w.toList, Context.cutsModifiers c = false := by simpa using plain
    exact Text.word_piece (fun c blank => by rw [Context.cutsModifiers, blank, Bool.true_or])
      whole said
  · cases said

theorem private_heard (said : sayPrivate (modifierWords cx n)) :
    sayPrivate (cx.modifierPieces n) := by
  simp only [sayPrivate, Bool.or_eq_true, List.contains_iff_mem] at said ⊢
  exact said.imp (word_heard (by decide)) (word_heard (by decide))

theorem public_heard (said : sayPublic (modifierWords cx n)) :
    sayPublic (cx.modifierPieces n) := by
  simp only [sayPublic, Bool.or_eq_true, List.contains_iff_mem] at said ⊢
  exact said.imp (word_heard (by decide)) (word_heard (by decide))

theorem modifiers_private :
    (cx.modifiers n).contains .isPrivate = sayPrivate (cx.modifierPieces n) := by
  rw [Bool.eq_iff_iff, Context.modifiers_contain (by decide)]
  simp [sayPrivate, Modifier.ofKeyword_private, and_or_left, exists_or]

theorem modifiers_protected :
    (cx.modifiers n).contains .isProtected = (cx.modifierPieces n).contains "protected" := by
  rw [Bool.eq_iff_iff, Context.modifiers_contain (by decide)]
  simp [Modifier.ofKeyword_protected]

theorem modifiers_public :
    (cx.modifiers n).contains .isPublic = sayPublic (cx.modifierPieces n) := by
  rw [Bool.eq_iff_iff, Context.modifiers_contain (by decide)]
  simp [sayPublic, Modifier.ofKeyword_public, and_or_left, exists_or]

-- The visibility of the declaration is only asked for where no piece says anything, and there no
-- word does.
theorem property_strictest (read : property? cx n = some p) :
    p.visibility = strictest (cx.modifierPieces n) := by
  obtain ⟨name, _, rfl⟩ := Option.map_eq_some_iff.mp read
  simp only [Context.property, Visibility.ofModifiers, modifiers_private, modifiers_protected,
    modifiers_public, strictest]
  split
  · rfl
  split
  · rfl
  split
  · rfl
  · next notPrivate _ notPublic =>
    rw [visibility_eq, if_neg (mt private_heard notPrivate), if_neg (mt public_heard notPublic)]

theorem strictest_public {words : List String} (said : sayPublic words) :
    strictest words = .isPublic ↔ ¬ sayPrivate words ∧ "protected" ∉ words := by
  rw [strictest, if_pos said]
  by_cases isPrivate : sayPrivate words
  · simp [isPrivate]
  · by_cases isProtected : "protected" ∈ words <;> simp [isPrivate, isProtected]

theorem strictest_internal {words : List String} :
    strictest words = .internal ↔
      ¬ sayPrivate words ∧ "protected" ∉ words ∧ ¬ sayPublic words := by
  unfold strictest
  by_cases isPrivate : sayPrivate words
  · simp [isPrivate]
  · by_cases isProtected : "protected" ∈ words
    · simp [isPrivate, isProtected]
    · simp [isPrivate, isProtected]

-- A property has the strictest access among the pieces of its modifiers, while functions and the
-- export of a declaration go by whole words. The two agree if and only if a whole word says
-- private, or no piece is stricter than the words.
theorem property_visibility_agrees_iff (read : property? cx n = some p) :
    p.visibility = strictest (cx.modifierPieces n) ∧
    ((declarationModifiers cx n).contains .exported ↔
      visibility cx n = .isPublic ∨ (cx.modifiers n).contains .exported) ∧
    (p.visibility = visibility cx n ↔
      sayPrivate (modifierWords cx n) ∨
      ¬ sayPrivate (cx.modifierPieces n) ∧ "protected" ∉ cx.modifierPieces n ∧
        (sayPublic (cx.modifierPieces n) → sayPublic (modifierWords cx n))) := by
  have strict := property_strictest read
  refine ⟨strict, ?_, ?_⟩
  · unfold declarationModifiers Modifiers.insertIf
    split <;> simp_all
  rw [strict, visibility_eq]
  by_cases wholePrivate : sayPrivate (modifierWords cx n)
  · rw [if_pos wholePrivate, strictest, if_pos (private_heard wholePrivate)]
    simp [wholePrivate]
  rw [if_neg wholePrivate]
  by_cases wholePublic : sayPublic (modifierWords cx n)
  · rw [if_pos wholePublic, strictest_public (public_heard wholePublic)]
    simp [wholePrivate, wholePublic]
  · rw [if_neg wholePublic, strictest_internal]
    simp [wholePrivate, wholePublic]

def propertyAfter (stop : Nat) (modifiers : List Tree) : Tree :=
  .whole "property_declaration" 0 (stop + 10) none [
    .whole "modifiers" 0 stop none modifiers,
    .whole "value_binding_pattern" (stop + 1) (stop + 4) none [.token "var" (stop + 1)],
    .whole "pattern" (stop + 5) (stop + 6) (some "name") [
      .whole "simple_identifier" (stop + 5) (stop + 6) (some "bound_identifier") []],
    .token "=" (stop + 7),
    .whole "integer_literal" (stop + 9) (stop + 10) (some "value") []]

def publicStatic : Tree := propertyAfter 13 [
  .whole "visibility_modifier" 0 6 none [.token "public" 0],
  .whole "property_modifier" 7 13 none [.token "static" 7]]

theorem public_static_agrees :
    let cx : Context := ⟨"public static var h = 1\n", "m.swift", .swift, {}⟩
    let n : Node := .root publicStatic
    ∃ p, property? cx n = some p ∧ p.visibility = .isPublic ∧ p.visibility = visibility cx n := by
  intro cx n
  obtain ⟨p, read⟩ := Option.isSome_iff_exists.mp (by decide +kernel : (property? cx n).isSome)
  obtain ⟨strict, _, agrees⟩ := property_visibility_agrees_iff read
  refine ⟨p, read, ?_, agrees.mpr (.inr ?_)⟩
  · rw [strict]
    decide +kernel
  · decide +kernel

def privateSetter : Tree := propertyAfter 19 [
  .whole "visibility_modifier" 0 6 none [.token "public" 0],
  .whole "visibility_modifier" 7 19 none [
    .token "private" 7, .token "(" 14, .token "set" 15, .token ")" 18]]

-- The property counts as private for its setter, and is exported all the same.
theorem private_setter_disagrees :
    let cx : Context := ⟨"public private(set) var h = 1\n", "m.swift", .swift, {}⟩
    let n : Node := .root privateSetter
    (property? cx n).map (·.visibility) = some .isPrivate ∧
      visibility cx n = .isPublic ∧ (declarationModifiers cx n).contains .exported ∧
      ¬ ∀ p, property? cx n = some p → p.visibility = visibility cx n := by
  intro cx n
  have found : (property? cx n).map (·.visibility) = some .isPrivate := by decide +kernel
  have whole : visibility cx n = .isPublic := by decide +kernel
  refine ⟨found, whole, by decide +kernel, fun agree => ?_⟩
  obtain ⟨p, read, isPrivate⟩ := Option.map_eq_some_iff.mp found
  rw [agree p read, whole] at isPrivate
  cases isPrivate

end Swift

end CodeEntities
