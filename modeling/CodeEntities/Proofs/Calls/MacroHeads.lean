import CodeEntities.Proofs.Calls.Caller
import CodeEntities.Rules.Elixir

namespace CodeEntities

namespace CallRole

variable {source : String} {n head target : Node}

def function? : CallRole → Option String
  | definition name _ => some name
  | container _ | call | other => none

def inAttribute (source : String) (n : Node) : Bool :=
  n.parent?.any fun p => p.kind == "unary_operator" && Text.startsWith (p.text source) "@"

def plainName? (source : String) (head : Node) : Option String :=
  if head.kind == "call" then (head.field? "target").map fun target => target.text source
  else if head.kind == "identifier" then some (head.text source)
  else none

theorem plainName_operator (operator : head.kind = "binary_operator") :
    plainName? source head = none := by
  rw [plainName?, operator]
  rfl

theorem definedName_eq (source : String) (head : Node) : definedName? source head =
    plainName? source
      (if head.kind == "binary_operator" then (head.field? "left").getD head else head) := rfl

-- The operator of a head is never asked for: any of them is taken for a guard.
theorem definedName_operator (operator : head.kind = "binary_operator") :
    definedName? source head = (head.field? "left").bind (plainName? source) := by
  rw [definedName_eq, if_pos (beq_iff_eq.mpr operator)]
  cases head.field? "left" with
  | none => exact plainName_operator operator
  | some left => rfl

theorem definedName_plain (plain : head.kind ≠ "binary_operator") :
    definedName? source head = plainName? source head := by
  rw [definedName_eq, if_neg (mt beq_iff_eq.mp plain)]

theorem ofMacro_function (found : n.field? "target" = some target)
    (defines : target.text source ∈ definitionMacros) (free : inAttribute source n = false) :
    (ofMacro source n).function? = (macroHead? n).bind (definedName? source) := by
  have outside : (n.parent?.any fun p =>
      p.kind == "unary_operator" && Text.startsWith (p.text source) "@") = false := free
  have defined : definitionMacros.contains (target.text source) = true :=
    List.contains_iff_mem.mpr defines
  unfold ofMacro
  simp only [found, outside, defined, Bool.false_eq_true, if_false, if_true]
  cases macroHead? n with
  | none => rfl
  | some head =>
    simp only [Option.bind_some]
    cases definedName? source head with
    | none => rfl
    | some name => rfl

end CallRole

namespace Elixir

open CallRole (macroHead? plainName? definedName?)

variable {cx : Context} {n head : Node} {name macroName : String}

theorem arguments_head (n : Node) : (arguments n).head? = macroHead? n := by
  unfold arguments macroHead?
  cases n.childOfKind? ["arguments"] with
  | none => rfl
  | some list => rfl

def unguarded? (cx : Context) (head : Node) : Option Node :=
  if hasOperator cx head "when" then head.field? "left" else some head

def headName? (cx : Context) (head : Node) : Option String :=
  (unguarded? cx head).bind (plainName? cx.source)

theorem named_plain (cx : Context) (called : Node) :
    (if called.kind == "call" then
      (target? cx called).bind fun name => pure (name, arguments called)
    else if called.kind == "identifier" then pure (cx.text called, ([] : List Node))
    else none).map (·.1) = plainName? cx.source called := by
  unfold plainName? target?
  split
  · cases called.field? "target" with
    | none => rfl
    | some t => rfl
  · split
    · rfl
    · rfl

theorem head_name (cx : Context) (n : Node) :
    (head? cx n).map (·.1) = (macroHead? n).bind (headName? cx) := by
  unfold head?
  rw [arguments_head]
  cases macroHead? n with
  | none => rfl
  | some head =>
    simp only [Option.bind_eq_bind, Option.bind_some, headName?, unguarded?]
    split
    · cases head.field? "left" with
      | none => rfl
      | some called => exact named_plain cx called
    · exact named_plain cx head

def operand? (cx : Context) (head : Node) : Option String :=
  if head.kind == "binary_operator" && !hasOperator cx head "when" then
    (head.field? "left").bind (plainName? cx.source)
  else none

theorem operand_nameless (operand : operand? cx head = some name) : headName? cx head = none := by
  unfold operand? at operand
  split at operand
  · next apart =>
    obtain ⟨operator, unguarded⟩ := Bool.and_eq_true_iff.mp apart
    have bare : hasOperator cx head "when" = false := by simpa using unguarded
    simp only [headName?, unguarded?, bare, Bool.false_eq_true, if_false, Option.bind_some]
    exact CallRole.plainName_operator (beq_iff_eq.mp operator)
  · cases operand

-- A reader that takes every operator for a guard finds the names of heads and, where an
-- operator is defined, its left operand.
theorem definedName_or (cx : Context) (head : Node) :
    definedName? cx.source head = (headName? cx head).or (operand? cx head) := by
  by_cases operator : head.kind = "binary_operator"
  · rw [CallRole.definedName_operator operator]
    cases guarded : hasOperator cx head "when" with
    | true => simp [headName?, unguarded?, operand?, guarded]
    | false =>
      simp [headName?, unguarded?, operand?, guarded, operator,
        CallRole.plainName_operator operator]
  · have bare : hasOperator cx head "when" = false := by simp [hasOperator, operator]
    rw [CallRole.definedName_plain operator]
    simp [headName?, unguarded?, operand?, bare, operator]

def operandName? (cx : Context) (n : Node) : Option String := (macroHead? n).bind (operand? cx)

theorem scope_or (named : target? cx n = some macroName)
    (defines : macroName ∈ CallRole.definitionMacros)
    (free : CallRole.inAttribute cx.source n = false) :
    (CallRole.of (.of .elixir) cx.source n).function? =
      ((head? cx n).map (·.1)).or (operandName? cx n) := by
  unfold target? at named
  split at named
  · next called =>
    obtain ⟨target, found, rfl⟩ := Option.map_eq_some_iff.mp named
    have isMacro : CallRole.of (.of .elixir) cx.source n = CallRole.ofMacro cx.source n := by
      unfold CallRole.of
      exact if_pos called
    rw [isMacro, CallRole.ofMacro_function found defines free, head_name, operandName?]
    cases macroHead? n with
    | none => rfl
    | some head => exact definedName_or cx head
  · cases named

-- A definition opens the scope of the function that its head names, unless the head is an
-- operator other than a guard with a name to its left: that is no function, but the scope is
-- opened under the name.
theorem definition_scopes_agree_iff (cx : Context) (n : Node) (macroName : String)
    (named : target? cx n = some macroName) (defines : macroName ∈ CallRole.definitionMacros)
    (free : CallRole.inAttribute cx.source n = false) :
    ((CallRole.of (.of .elixir) cx.source n).function? = (head? cx n).map (·.1) ↔
      operandName? cx n = none) ∧
    ∀ operand, operandName? cx n = some operand →
      head? cx n = none ∧ (CallRole.of (.of .elixir) cx.source n).function? = some operand := by
  have nameless : ∀ operand, operandName? cx n = some operand → (head? cx n).map (·.1) = none := by
    intro operand found
    obtain ⟨head, first, operand⟩ := Option.bind_eq_some_iff.mp found
    rw [head_name, first]
    exact operand_nameless operand
  rw [scope_or named defines free]
  constructor
  · constructor
    · intro agree
      cases found : operandName? cx n with
      | none => rfl
      | some operand =>
        rw [nameless operand found, found] at agree
        cases agree
    · intro absent
      rw [absent, Option.or_none]
  · intro operand found
    have absent := nameless operand found
    exact ⟨Option.map_eq_none_iff.mp absent, by rw [absent, found, Option.none_or]⟩

def defined (head : Tree) (stop : Nat) : Tree :=
  .whole "source" 0 (stop + 10) none [
    .whole "call" 0 (stop + 9) none [
      .whole "identifier" 0 3 (some "target") [],
      .whole "arguments" 4 (stop + 9) none [
        head,
        .token "," stop,
        .whole "keywords" (stop + 2) (stop + 9) none [
          .whole "pair" (stop + 2) (stop + 9) none [
            .whole "keyword" (stop + 2) (stop + 6) (some "key") [],
            .whole "call" (stop + 6) (stop + 9) (some "value") [
              .whole "identifier" (stop + 6) (stop + 7) (some "target") [],
              .whole "arguments" (stop + 7) (stop + 9) none [
                .token "(" (stop + 7), .token ")" (stop + 8)]]]]]]]

def definitionNode (head : Tree) (stop : Nat) : Node :=
  ((Node.root (defined head stop)).descend [0]).getD (.root head)

def operatorAt (spelling : String) (start : Nat) : Tree :=
  .mk { (Tree.token spelling start).label with field := some "operator" } []

def guardedHead : Tree :=
  .whole "binary_operator" 4 15 none [
    .whole "call" 4 8 (some "left") [
      .whole "identifier" 4 5 (some "target") [],
      .whole "arguments" 5 8 none [
        .token "(" 5, .whole "identifier" 6 7 none [], .token ")" 7]],
    operatorAt "when" 9,
    .whole "identifier" 14 15 (some "right") []]

-- `a + b`
def sumHead : Tree :=
  .whole "binary_operator" 4 9 none [
    .whole "identifier" 4 5 (some "left") [],
    operatorAt "+" 6,
    .whole "identifier" 8 9 (some "right") []]

theorem guarded_definition_opens_its_scope :
    let cx : Context := ⟨"def g(b) when b, do: f()\n", "t.ex", .elixir, {}⟩
    let n := definitionNode guardedHead 15
    target? cx n = some "def" ∧ "def" ∈ CallRole.definitionMacros ∧
      CallRole.inAttribute cx.source n = false ∧
      (CallRole.of (.of .elixir) cx.source n).function? = (head? cx n).map (·.1) ∧
      (head? cx n).map (·.1) = some "g" := by
  intro cx n
  have named : target? cx n = some "def" := by decide +kernel
  have free : CallRole.inAttribute cx.source n = false := by decide +kernel
  have agree := (definition_scopes_agree_iff cx n "def" named (by decide) free).1
  exact ⟨named, by decide, free, agree.mpr (by decide +kernel), by decide +kernel⟩

-- The scope of `a` is opened where `+` is defined.
theorem operator_opens_scope_of_operand :
    ¬ ∀ (cx : Context) (n : Node) (macroName : String), target? cx n = some macroName →
      macroName ∈ CallRole.definitionMacros → CallRole.inAttribute cx.source n = false →
      (CallRole.of (.of .elixir) cx.source n).function? = (head? cx n).map (·.1) := by
  intro agree
  have same := agree ⟨"def a + b, do: f()\n", "t.ex", .elixir, {}⟩ (definitionNode sumHead 9) "def"
    (by decide +kernel) (by decide) (by decide +kernel)
  exact absurd same (by decide +kernel)

end Elixir

end CodeEntities
