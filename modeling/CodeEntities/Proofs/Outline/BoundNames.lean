import CodeEntities.Proofs.Rules.TypeScript
import CodeEntities.Proofs.Tree.Search

namespace CodeEntities

namespace Node

variable {n m : Node} {p : Node → Bool} {wanted : Node → Prop} {found others : List Node}

instance : Decidable (Within n m) := inferInstanceAs (Decidable (n.path <:+ m.path))

theorem Precedes.asymm (before : n.Precedes m) : ¬ m.Precedes n := List.lt_asymm before

theorem inOrder_unique (first : found.Pairwise Precedes) (second : others.Pairwise Precedes)
    (same : ∀ m, m ∈ found ↔ m ∈ others) : found = others := by
  have perm : found.Perm others :=
    (List.perm_ext_iff_of_nodup (first.imp Precedes.different) (second.imp Precedes.different)).mpr
      same
  exact perm.eq_of_pairwise (fun a b _ _ before behind => absurd behind before.asymm) first second

-- Where nothing stands below the nodes that a search stops at, it finds all of them.
theorem collect_filter (tokens : ∀ m ∈ n.preorder, p m → m.children = []) :
    n.collect (fun m => if p m then .report else .enter) = n.preorder.filter p := by
  induction n using Node.induction with
  | step n ih =>
    rw [collect_eq, preorder_eq]
    by_cases here : p n
    · simp [here, tokens n (self_mem_preorder n) here]
    · have below : ∀ c ∈ n.children,
          c.collect (fun m => if p m then .report else .enter) = c.preorder.filter p :=
        fun c child => ih c child fun m deeper =>
          tokens m (preorder_trans (child_below child) deeper)
      rw [List.filter_cons_of_neg here, List.filter_flatten, List.map_map]
      simp only [here, Bool.false_eq_true, if_false]
      exact congrArg _ (List.map_congr_left below)

theorem descendantsOfKind_filter (kinds : List String)
    (tokens : ∀ m ∈ n.descendants, m.kind ∈ kinds → m.children = []) :
    n.descendantsOfKind kinds [] = n.descendants.filter (kinds.contains ·.kind) := by
  have each : ∀ c ∈ n.children,
      c.collect (fun m => if kinds.contains m.kind then .report else .enter) =
        c.preorder.filter (kinds.contains ·.kind) := fun c child =>
    collect_filter fun m below wanted =>
      tokens m (mem_descendants.mpr ⟨c, child, below⟩) (List.contains_iff_mem.mp wanted)
  rw [descendantsOfKind, collectBelow_eq, descendants, List.filter_flatten, List.map_map]
  simp only [List.contains_nil, Bool.false_eq_true, if_false]
  rw [List.flatMap_def]
  exact congrArg _ (List.map_congr_left each)

end Node

namespace TypeScript

variable {cx : Context} {d pattern : Node}

def isBindingName (m : Node) : Bool :=
  ["identifier", "shorthand_property_identifier_pattern"].contains m.kind

def defaults (pattern : Node) : List Node :=
  (pattern.preorder.filter fun a =>
    a.kind == "assignment_pattern" || a.kind == "object_assignment_pattern").filterMap
      (·.field? "right")

def inDefault (pattern m : Node) : Bool := (defaults pattern).any fun r => r.Within m

def declaredNames (pattern : Node) : List Node :=
  pattern.descendants.filter fun m => isBindingName m && !inDefault pattern m

theorem isBindingName_iff {m : Node} : isBindingName m ↔
    m.kind ∈ ["identifier", "shorthand_property_identifier_pattern"] := List.contains_iff_mem

def reportedNames (pattern : Node) : List Node :=
  pattern.descendantsOfKind ["identifier", "shorthand_property_identifier_pattern"] []

theorem boundNames_pattern (named : d.field? "name" = some pattern)
    (destructures : pattern.kind ≠ "identifier") :
    boundNames cx d = (reportedNames pattern).map cx.text := by
  rw [boundNames, named]
  exact if_neg (mt eq_of_beq destructures)

theorem reported_lists (pattern : Node) :
    Node.Lists
      (fun m => isBindingName m ∧ pattern.ReachedThrough (fun a => ¬ isBindingName a) m)
      (reportedNames pattern) := by
  have listed := Node.descendantsOfKind_lists pattern
    ["identifier", "shorthand_property_identifier_pattern"] []
  simp only [← isBindingName_iff, List.not_mem_nil, not_false_eq_true, and_true] at listed
  exact listed

theorem mem_declared {m : Node} : m ∈ declaredNames pattern ↔
    m ∈ pattern.descendants ∧ isBindingName m ∧ ¬ inDefault pattern m := by
  simp [declaredNames, List.mem_filter]

theorem declared_inOrder (pattern : Node) : (declaredNames pattern).Pairwise Node.Precedes :=
  (Node.preorder_precedes pattern).sublist
    (List.filter_sublist.trans (Node.descendants_sublist pattern))

-- Both lists are in document order, so they are compared by their members.
theorem reported_declared_iff (pattern : Node) :
    reportedNames pattern = declaredNames pattern ↔
      ∀ m ∈ pattern.descendants, isBindingName m →
        (pattern.ReachedThrough (fun a => ¬ isBindingName a) m ↔ ¬ inDefault pattern m) := by
  have reported := reported_lists pattern
  constructor
  · intro same m below binding
    have member := reported.exact m
    rw [same, mem_declared] at member
    simpa [below, binding] using member.symm
  · intro agree
    refine Node.inOrder_unique reported.inOrder (declared_inOrder pattern) fun m => ?_
    rw [reported.exact, mem_declared]
    constructor
    · rintro ⟨binding, reached⟩
      exact ⟨reached.below, binding, (agree m reached.below binding).mp reached⟩
    · rintro ⟨below, binding, outside⟩
      exact ⟨binding, (agree m below binding).mpr outside⟩

theorem reported_filter (tokens : ∀ m ∈ pattern.descendants, isBindingName m → m.children = []) :
    reportedNames pattern = pattern.descendants.filter isBindingName :=
  Node.descendantsOfKind_filter _ fun m below kind => tokens m below (isBindingName_iff.mpr kind)

theorem declared_reported (tokens : ∀ m ∈ pattern.descendants, isBindingName m → m.children = []) :
    declaredNames pattern = (reportedNames pattern).filter (!inDefault pattern ·) := by
  rw [reported_filter tokens, List.filter_filter, declaredNames]
  exact List.filter_congr fun m _ => Bool.and_comm ..

theorem texts_declared_iff (tokens : ∀ m ∈ pattern.descendants, isBindingName m → m.children = []) :
    (reportedNames pattern).map cx.text = (declaredNames pattern).map cx.text ↔
      ∀ m ∈ pattern.descendants, isBindingName m → ¬ inDefault pattern m := by
  have outside : (∀ m ∈ pattern.descendants, isBindingName m → ¬ inDefault pattern m) ↔
      ∀ m ∈ reportedNames pattern, (!inDefault pattern m) = true := by
    simp [reported_filter tokens]
  rw [outside, declared_reported tokens, ← List.length_filter_eq_length_iff]
  constructor
  · intro same
    simpa using (congrArg List.length same).symm
  · intro length
    rw [List.filter_eq_self.mpr (List.length_filter_eq_length_iff.mp length)]

theorem require_names {n : Node} {i : ImportDecl} (read : requireImport? cx n d = some i) :
    i.specifiers.map (·.localName) = boundNames cx d := by
  obtain ⟨source, _, read⟩ := Option.bind_eq_some_iff.mp read
  obtain ⟨name, named, read⟩ := Option.bind_eq_some_iff.mp read
  cases read
  rw [boundNames, named]
  by_cases single : name.kind == "identifier"
  · simp [single]
  · simp only [single, Bool.false_eq_true, if_false, List.map_map]
    rfl

theorem exports_names {s decl : Node} (declares : s.field? "declaration" = some decl)
    (bindings : isBindingList decl) (plain : s.hasToken "default" = false) :
    (exportsOf cx s).map (·.name) = (declarators decl).flatMap (boundNames cx) := by
  rw [exportsOf, plain, declares]
  simp only [Bool.false_eq_true, if_false, bindings, if_true, List.map_map]
  exact List.map_id _

-- A pattern reports all names below it, those in its default values among them: the names
-- that it declares if and only if no default value holds a name. Variables, imports and exports
-- all read the same names.
theorem bound_names_declared_iff (named : d.field? "name" = some pattern)
    (destructures : pattern.kind ≠ "identifier") :
    boundNames cx d = (reportedNames pattern).map cx.text ∧
    (reportedNames pattern = declaredNames pattern ↔
      ∀ m ∈ pattern.descendants, isBindingName m →
        (pattern.ReachedThrough (fun a => ¬ isBindingName a) m ↔ ¬ inDefault pattern m)) ∧
    ((∀ m ∈ pattern.descendants, isBindingName m → m.children = []) →
      reportedNames pattern = pattern.descendants.filter isBindingName ∧
      (boundNames cx d = (declaredNames pattern).map cx.text ↔
        ∀ m ∈ pattern.descendants, isBindingName m → ¬ inDefault pattern m)) ∧
    (∀ n, (variablesOf cx n).map (·.name) =
      ((declarators n).filter fun d => !(d.field? "value").any (isOther cx)).flatMap
        (boundNames cx)) ∧
    (∀ n i, requireImport? cx n d = some i → i.specifiers.map (·.localName) = boundNames cx d) ∧
    ∀ s decl, s.field? "declaration" = some decl → isBindingList decl →
      s.hasToken "default" = false →
      (exportsOf cx s).map (·.name) = (declarators decl).flatMap (boundNames cx) := by
  have reads : boundNames cx d = (reportedNames pattern).map cx.text :=
    boundNames_pattern named destructures
  refine ⟨reads, reported_declared_iff pattern, fun tokens => ?_, ?_, ?_, ?_⟩
  · rw [reads]
    exact ⟨reported_filter tokens, texts_declared_iff tokens⟩
  · exact fun n => variablesOf_names
  · exact fun n i => require_names
  · exact fun s decl => exports_names

-- `{ a: { b }, c = 5 } = d`
def nestedPattern : Tree :=
  .whole "variable_declarator" 0 23 none [
    .whole "object_pattern" 0 19 (some "name") [
      .token "\x7b" 0,
      .whole "pair_pattern" 2 10 none [
        .whole "property_identifier" 2 3 (some "key") [],
        .token ":" 3,
        .whole "object_pattern" 5 10 (some "value") [
          .token "\x7b" 5,
          .whole "shorthand_property_identifier_pattern" 7 8 none [],
          .token "\x7d" 9]],
      .token "," 10,
      .whole "object_assignment_pattern" 12 17 none [
        .whole "shorthand_property_identifier_pattern" 12 13 (some "left") [],
        .token "=" 14,
        .whole "number" 16 17 (some "right") []],
      .token "\x7d" 18],
    .token "=" 20,
    .whole "identifier" 22 23 (some "value") []]

theorem nested_pattern_declared :
    let cx : Context := ⟨"\x7b a: \x7b b \x7d, c = 5 \x7d = d", "m.ts", .typescript, {}⟩
    let d : Node := .root nestedPattern
    ∃ pattern, d.field? "name" = some pattern ∧ pattern.kind ≠ "identifier" ∧
      (declaredNames pattern).map cx.text = ["b", "c"] ∧
      boundNames cx d = (declaredNames pattern).map cx.text := by
  intro cx d
  obtain ⟨pattern, named⟩ :=
    Option.isSome_iff_exists.mp (by decide +kernel : (d.field? "name").isSome)
  have same : pattern = (d.field? "name").get (by decide +kernel) := by simp [named]
  have destructures : pattern.kind ≠ "identifier" := by
    rw [same]
    decide +kernel
  have counted := (@bound_names_declared_iff cx d pattern named destructures).2.2.1
  refine ⟨pattern, named, destructures, ?_, (counted ?_).2.mpr ?_⟩
  all_goals
    rw [same]
    decide +kernel

-- `{ a = b } = c`
def defaultedPattern : Tree :=
  .whole "variable_declarator" 0 13 none [
    .whole "object_pattern" 0 9 (some "name") [
      .token "\x7b" 0,
      .whole "object_assignment_pattern" 2 7 none [
        .whole "shorthand_property_identifier_pattern" 2 3 (some "left") [],
        .token "=" 4,
        .whole "identifier" 6 7 (some "right") []],
      .token "\x7d" 8],
    .token "=" 10,
    .whole "identifier" 12 13 (some "value") []]

theorem default_value_reported :
    let cx : Context := ⟨"\x7b a = b \x7d = c", "m.ts", .typescript, {}⟩
    let d : Node := .root defaultedPattern
    (d.field? "name").map (fun pattern => (declaredNames pattern).map cx.text) = some ["a"] ∧
      boundNames cx d = ["a", "b"] ∧
      ¬ ∀ pattern, d.field? "name" = some pattern →
        boundNames cx d = (declaredNames pattern).map cx.text := by
  intro cx d
  have declared : (d.field? "name").map (fun pattern => (declaredNames pattern).map cx.text) =
      some ["a"] := by decide +kernel
  have reported : boundNames cx d = ["a", "b"] := by decide +kernel
  refine ⟨declared, reported, fun same => ?_⟩
  obtain ⟨pattern, named, single⟩ := Option.map_eq_some_iff.mp declared
  have both := same pattern named
  rw [reported, single] at both
  exact absurd both (by decide)

end TypeScript

end CodeEntities
