import CodeEntities.Proofs.Loops.Stacks
import CodeEntities.Proofs.Tree.Lookups
import CodeEntities.Rules.CFamily
import CodeEntities.Rules.Data

namespace CodeEntities

theorem Node.below_less (n : Node) : n.size - 1 < n.size := by
  have : 0 < n.size := n.focus.size_pos
  omega

theorem Node.less_below {n m : Node} (smaller : m.size < n.size) : m.size - 1 < n.size - 1 := by
  have : 0 < m.size := m.focus.size_pos
  omega

namespace Lookup

variable {lookup : Lookup} {root n m : Node} {field : String}

section Declared

def isDeclared (n : Node) : Bool :=
  ["identifier", "field_identifier", "qualified_identifier", "destructor_name",
    "operator_name"].contains n.kind

def declaredLoop (lookup : Lookup) : Loop (Option Node) (Option Node) where
  turn
    | none => .leave none
    | some d => if isDeclared d then .leave (some d) else .next (lookup d "declarator")

def below : Option Node → Nat
  | none => 0
  | some d => d.size

def IsInside (root : Node) (current : Option Node) : Prop := ∀ d ∈ current, d ∈ root.preorder

theorem inside_lookup (descends : lookup.Descends root) (inside : n ∈ root.preorder) :
    IsInside root (lookup n field) := fun _ found => (descends.step inside found).1

theorem below_lookup (descends : lookup.Descends root) (inside : n ∈ root.preorder) :
    below (lookup n field) < n.size := by
  cases found : lookup n field with
  | none => exact n.focus.size_pos
  | some d => exact (descends.step inside found).2

theorem declared_lowers (descends : lookup.Descends root) (current later : Option Node)
    (inside : IsInside root current) (turn : lookup.declaredLoop.turn current = .next later) :
    IsInside root later ∧ below later < below current := by
  cases current with
  | none => cases turn
  | some d =>
    simp only [declaredLoop] at turn
    split at turn
    · cases turn
    · cases turn
      exact ⟨inside_lookup descends (inside d rfl), below_lookup descends (inside d rfl)⟩

theorem declared_ends (descends : lookup.Descends root) (inside : n ∈ root.preorder) :
    ∃ d, lookup.declaredLoop.within n.size (lookup n "declarator") = some d :=
  Loop.ends (IsInside root) below (declared_lowers descends) (inside_lookup descends inside)
    (below_lookup descends inside)

def declaredAt? : Option Node → Option Node
  | none => none
  | some d => if isDeclared d then some d else CallRole.declaredName? d

theorem declaredName_eq (n : Node) :
    CallRole.declaredName? n = declaredAt? (n.field? "declarator") := by
  rw [CallRole.declaredName?]
  split
  · next absent => rw [absent]; rfl
  · next d found => rw [found]; rfl

theorem declared_worth (current : Option Node) :
    ((declaredLoop Node.field?).turn current).worth declaredAt? = declaredAt? current := by
  cases current with
  | none => rfl
  | some d =>
    simp only [declaredLoop, declaredAt?]
    split
    · rfl
    · exact (declaredName_eq d).symm

theorem declared_result (n : Node) :
    (declaredLoop Node.field?).within n.size (n.field? "declarator") =
      some (CallRole.declaredName? n) := by
  rw [declaredName_eq]
  exact Loop.result (IsInside n) below declaredAt? (declared_lowers (field_descends n))
    (fun current _ => declared_worth current)
    (inside_lookup (field_descends n) n.self_mem_preorder)
    (below_lookup (field_descends n) n.self_mem_preorder)

-- Without the descent nothing ends the loop: a declarator that is its own declarator holds it.
theorem declared_trapped {d : Node} (own : lookup d "declarator" = some d)
    (other : isDeclared d = false) (k : Nat) : lookup.declaredLoop.within k (some d) = none := by
  refine Loop.never_ends (· = some d) ?_ rfl k
  rintro current rfl
  refine ⟨some d, ?_, rfl⟩
  simp only [declaredLoop, other, Bool.false_eq_true, if_false, own]

section Named

variable (source : String)

def ownerLoop (receiver : Node) : Loop (List Node) (Option Node) :=
  Node.searchLoop (Node.wantedVisit fun m =>
    !m.isSame receiver && ["type_identifier"].contains m.kind)

-- The name of a definition, if each of the loops on the way to it ends within so many turns.
def nameWithin (lookup : Lookup) (turns : Nat) (n : Node) : Option (Option String) :=
  match (lookup n "receiver").filter fun _ => n.kind == "method_declaration" with
  | some receiver =>
    ((ownerLoop receiver).within turns [receiver]).map fun found => do
      let owner ← found
      let name ← lookup n "name"
      pure (owner.text source ++ "." ++ name.text source)
  | none =>
    let candidate :=
      match lookup n "name" with
      | some name => some (some name)
      | none => lookup.declaredLoop.within turns (lookup n "declarator")
    candidate.map fun found => (found.or (CallRole.firstIdentifier? n)).bind fun name =>
      (Text.nonBlank? (name.text source)).map CallSite.dotted

theorem owner_result {receiver : Node} {k : Nat} (enough : receiver.size < k) :
    (ownerLoop receiver).within k [receiver] =
      some (receiver.findDescendant? ["type_identifier"]) :=
  Node.first_result _ receiver enough

theorem name_ends (descends : lookup.Descends root) (inside : n ∈ root.preorder) :
    ∃ name, lookup.nameWithin source n.size n = some name := by
  unfold nameWithin
  split
  · next receiver found =>
    have below := descends.step inside (Option.filter_eq_some_iff.mp found).1
    rw [owner_result below.2]
    exact ⟨_, rfl⟩
  · cases lookup n "name" with
    | some name => exact ⟨_, rfl⟩
    | none =>
      obtain ⟨d, ended⟩ := declared_ends descends inside
      simp only [ended]
      exact ⟨_, rfl⟩

theorem name_result (n : Node) :
    nameWithin source Node.field? n.size n = some (CallRole.definitionName? source n) := by
  unfold nameWithin CallRole.definitionName?
  cases found : (n.field? "receiver").filter fun _ => n.kind == "method_declaration" with
  | some receiver =>
    have below := (field_descends n).step n.self_mem_preorder (Option.filter_eq_some_iff.mp found).1
    simp only [owner_result below.2]
    rfl
  | none =>
    cases n.field? "name" with
    | some name => rfl
    | none =>
      simp only [declared_result]
      rfl

end Named

end Declared

section Resolved

structure Resolution where
  current : Node
  function : Option Node := none
  pointers : Nat := 0

def Resolution.note (r : Resolution) : Resolution :=
  let kind := r.current.kind
  { r with
    function := if kind == "function_declarator" then some r.current else r.function
    pointers :=
      if kind == "pointer_declarator" || kind == "reference_declarator" then r.pointers + 1
      else r.pointers }

variable (cx : Context)

def Resolution.named (r : Resolution) (name : Node) (qualifier : Option String) :
    Option CFamily.Declarator :=
  (Text.nonBlank? (cx.text name)).map fun text =>
    { name := text, qualifier, function := r.function, pointers := r.pointers }

-- Goes down a chain of declarators. Where a declarator has no declarator of its own, its first
-- child that is no attribute takes the place.
def resolveLoop (lookup : Lookup) : Loop Resolution (Option CFamily.Declarator) where
  turn r :=
    if r.current.kind == "qualified_identifier" then
      match lookup r.current "name" with
      | none => .leave none
      | some name =>
        if name.kind == "qualified_identifier" then .next { r with current := name }
        else .leave (r.named cx name
          ((lookup r.current "scope").map fun s => Text.afterLast (cx.text s) "::"))
    else if CFamily.isPlainName r.current then .leave (r.named cx r.current none)
    else
      match (lookup r.current "declarator").or
          (r.current.namedChildren.find? (·.kind != "attribute_declaration")) with
      | none => .leave none
      | some inner => .next { r.note with current := inner }

theorem resolve_lowers (descends : lookup.Descends root) (r later : Resolution)
    (inside : r.current ∈ root.preorder) (turn : (lookup.resolveLoop cx).turn r = .next later) :
    later.current ∈ root.preorder ∧ later.current.size - 1 < r.current.size - 1 := by
  simp only [resolveLoop] at turn
  split at turn
  · split at turn
    · cases turn
    · next name found =>
      split at turn
      · cases turn
        obtain ⟨stays, smaller⟩ := descends.step inside found
        exact ⟨stays, Node.less_below smaller⟩
      · cases turn
  · split at turn
    · cases turn
    · split at turn
      · cases turn
      · next inner found =>
        cases turn
        rcases Option.or_eq_some_iff.mp found with field | ⟨_, child⟩
        · obtain ⟨stays, smaller⟩ := descends.step inside field
          exact ⟨stays, Node.less_below smaller⟩
        · have child := (List.mem_filter.mp (List.mem_of_find?_eq_some child)).1
          exact ⟨Node.preorder_trans inside (Node.child_below child),
            Node.less_below (Node.size_child child)⟩

theorem resolve_ends (descends : lookup.Descends root) (inside : n ∈ root.preorder) :
    ∃ d, (lookup.resolveLoop cx).within n.size { current := n } = some d :=
  Loop.ends (fun r => r.current ∈ root.preorder) (fun r => r.current.size - 1)
    (resolve_lowers cx descends) inside n.below_less

def Resolution.value (r : Resolution) : Option CFamily.Declarator :=
  CFamily.resolveFrom cx r.function r.pointers r.current

theorem resolve_worth (r : Resolution) :
    ((resolveLoop cx Node.field?).turn r).worth (Resolution.value cx) = r.value cx := by
  simp only [resolveLoop, Resolution.value]
  rw [CFamily.resolveFrom.eq_def cx r.function]
  by_cases qualified : r.current.kind == "qualified_identifier"
  · rw [if_pos qualified, if_pos qualified]
    cases found : r.current.field? "name" with
    | none => rfl
    | some name =>
      by_cases inner : name.kind == "qualified_identifier"
      · simp only [if_pos inner, Turn.worth, Resolution.value]
      · simp only [if_neg inner, Turn.worth, Resolution.named]
  · rw [if_neg qualified, if_neg qualified]
    by_cases plain : CFamily.isPlainName r.current
    · rw [if_pos plain, if_pos plain]
      simp only [Turn.worth, Resolution.named]
    · rw [if_neg plain, if_neg plain]
      have inner : (r.current.field? "declarator").or
          (r.current.namedChildren.find? (·.kind != "attribute_declaration")) =
            CFamily.inner? r.current := rfl
      rw [inner]
      cases found : CFamily.inner? r.current <;>
        simp only [Turn.worth, Resolution.value, Resolution.note]

theorem resolve_result (n : Node) :
    (resolveLoop cx Node.field?).within n.size { current := n } = some (CFamily.resolve cx n) :=
  Loop.result (fun r => r.current ∈ n.preorder) (fun r => r.current.size - 1) (Resolution.value cx)
    (resolve_lowers cx (field_descends n)) (fun r _ => resolve_worth cx r) n.self_mem_preorder
    n.below_less

end Resolved

end Lookup

namespace Data

def unwrapLoop : Loop Node Node where
  turn n :=
    if isWrapper n then
      match wrapped? n with
      | some inner => .next inner
      | none => .leave n
    else .leave n

theorem unwrap_lowers (n later : Node) (turn : unwrapLoop.turn n = .next later) :
    later.size - 1 < n.size - 1 := by
  simp only [unwrapLoop] at turn
  split at turn
  · split at turn
    · next inner found =>
      cases turn
      exact Node.less_below (size_wrapped found)
    · cases turn
  · cases turn

theorem unwrap_worth (n : Node) : (unwrapLoop.turn n).worth unwrap = unwrap n := by
  rw [unwrap.eq_def]
  simp only [unwrapLoop]
  split
  · cases found : wrapped? n <;> rfl
  · rfl

theorem unwrap_result (n : Node) : unwrapLoop.within n.size n = some (unwrap n) :=
  Loop.computes (fun n => n.size - 1) unwrap unwrap_lowers unwrap_worth n.below_less

end Data

end CodeEntities
