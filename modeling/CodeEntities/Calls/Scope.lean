import CodeEntities.Calls.Call
import CodeEntities.Calls.Site

namespace CodeEntities

def moduleScope : String := "<module>"

-- What a node is to the calls below it: a definition or a class that they belong
-- to, a call, or neither. The head of a definition may look like a call; it is
-- named in `head` and not searched.
inductive CallRole where
  | definition (name : String) (head : Option Node)
  | container (name : String)
  | call
  | other
  deriving Repr

namespace CallRole

def definitionMacros : List String := ["def", "defp", "defmacro", "defmacrop", "defguard", "defguardp"]

def containerMacros : List String := ["defmodule", "defprotocol"]

def keywordMacros : List String := [
  "if", "unless", "case", "cond", "with", "for", "receive", "try", "quote", "unquote", "fn",
  "alias", "import", "require", "use", "defstruct", "defexception", "defdelegate",
  "defoverridable", "defimpl"]

def bindingKinds : List String := [
  "variable_declarator", "assignment_expression", "assignment", "public_field_definition",
  "field_definition", "let_declaration"]

def macroHead? (n : Node) : Option Node :=
  (n.childOfKind? ["arguments"]).bind fun a => a.namedChildren.head?

theorem macroHead_grandchild {n head : Node} (found : macroHead? n = some head) :
    ∃ a ∈ n.children, head ∈ a.children := by
  obtain ⟨list, listed, first⟩ := Option.bind_eq_some_iff.mp found
  exact ⟨list, List.mem_of_find?_eq_some listed, (List.mem_filter.mp (List.mem_of_head? first)).1⟩

def definedName? (source : String) (head : Node) : Option String :=
  let call := if head.kind == "binary_operator" then (head.field? "left").getD head else head
  if call.kind == "call" then (call.field? "target").map fun target => target.text source
  else if call.kind == "identifier" then some (call.text source)
  else none

def ofMacro (source : String) (n : Node) : CallRole :=
  let isAttribute := n.parent?.any fun p =>
    p.kind == "unary_operator" && Text.startsWith (p.text source) "@"
  match n.field? "target" with
  | none => .other
  | some target =>
    let name := target.text source
    if isAttribute then .other
    else if definitionMacros.contains name then
      match macroHead? n with
      | none => .other
      | some head =>
        match definedName? source head with
        | some defined => .definition defined (some head)
        | none => .other
    else if containerMacros.contains name then
      match macroHead? n with
      | some head => .container (Text.trim (head.text source))
      | none => .other
    else if keywordMacros.contains name || Text.startsWith name "def" then .other
    else .call

def declaredName? (n : Node) : Option Node :=
  match _found : n.field? "declarator" with
  | none => none
  | some d =>
    if ["identifier", "field_identifier", "qualified_identifier", "destructor_name",
        "operator_name"].contains d.kind then some d
    else declaredName? d
termination_by n.size
decreasing_by exact Node.size_field (by assumption)

def firstIdentifier? (n : Node) : Option Node := n.namedChildren.find? (·.isIdentifier)

def definitionName? (source : String) (n : Node) : Option String :=
  match (n.field? "receiver").filter fun _ => n.kind == "method_declaration" with
  | some receiver => do
    let owner ← receiver.findDescendant? ["type_identifier"]
    let name ← n.field? "name"
    pure (owner.text source ++ "." ++ name.text source)
  | none =>
    (((n.field? "name").or (declaredName? n)).or (firstIdentifier? n)).bind fun name =>
      (Text.nonBlank? (name.text source)).map CallSite.dotted

def containerName? (source : String) (n : Node) : Option String :=
  ((n.firstField? ["type", "name"]).or (firstIdentifier? n)).bind fun name =>
    let base := CallSite.baseName (name.text source)
    if base.isEmpty then none else some (CallSite.dotted base)

def bindingName? (source : String) (n : Node) : Option String := do
  let parent ← n.parent?
  if !bindingKinds.contains parent.kind then none
  else
    let name ← parent.firstField? ["name", "left", "property", "pattern"]
    if name.isSame n then none
    else
      let text := Text.trim (name.text source)
      if CallSite.isSimple text then some text else none

def of (forms : CallForms) (source : String) (n : Node) : CallRole :=
  if forms.macroCalls && n.kind == "call" then ofMacro source n
  else
    let defined :=
      if forms.functions.contains n.kind then definitionName? source n else none
    let bound := if forms.lambdas.contains n.kind then bindingName? source n else none
    let contained := if forms.classes.contains n.kind then containerName? source n else none
    match defined.or bound, contained with
    | some name, _ => .definition name none
    | none, some name => .container name
    | none, none =>
      if forms.calls.contains n.kind || forms.constructors.contains n.kind then .call else .other

end CallRole

abbrev DeclaredNames := List ((Nat × Nat) × String)

structure CallSearch where
  source : String
  filePath : String
  forms : CallForms
  declared : DeclaredNames := []

namespace CallSearch

def role (s : CallSearch) (n : Node) : CallRole := .of s.forms s.source n

def startOf (s : CallSearch) (n : Node) : Nat × Nat :=
  let start := n.startPosition s.source
  (start.row + 1, start.column)

def givenName? (s : CallSearch) (n : Node) : Option String := s.declared.lookup (s.startOf n)

def qualified (className : Option String) (name : String) : String :=
  match className with
  | some className => className ++ "." ++ name
  | none => name

-- A definition has the name that is declared for it, else its own qualified name.
def resolveName (s : CallSearch) (className : Option String) (n : Node) (name : String) : String :=
  (s.givenName? n).getD (qualified className name)

def parenthesisKinds : List String := ["parenthesized_expression", "parenthesized", "tuple_expression"]

def awaitsBelow (s : CallSearch) (n : Node) (isAwaited : Bool) : Bool :=
  s.forms.awaits.contains n.kind || (isAwaited && parenthesisKinds.contains n.kind)

def callAt? (s : CallSearch) (caller : String) (isAwaited : Bool) (n : Node) : Option FunctionCall :=
  (CallSite.of? s.forms s.source n).map fun site =>
    let start := n.startPosition s.source
    { callerId := FunctionCall.callerIdOf s.filePath caller
      callerName := caller
      calleeName := site.callee
      line := start.row + 1
      column := start.column
      isDirect := site.receiver.isNone && !site.isConstructor
      isAwaited
      isConstructor := site.isConstructor
      receiver := site.receiver
      arguments := CallSite.arguments s.source n }

end CallSearch

end CodeEntities
