import CodeEntities.Rules.Basic
import CodeEntities.Text.Nesting

namespace CodeEntities.Elixir

def definitionMacros : List String := ["def", "defp", "defmacro", "defmacrop", "defguard", "defguardp"]

def importMacros : List String := ["alias", "import", "require", "use"]

def metadataAttributes : List String := [
  "doc", "moduledoc", "typedoc", "spec", "type", "typep", "opaque", "callback", "macrocallback",
  "impl", "behaviour", "derive", "enforce_keys", "compile", "dialyzer", "deprecated", "since"]

def target? (cx : Context) (n : Node) : Option String :=
  if n.kind == "call" then (n.field? "target").map cx.text else none

def arguments (n : Node) : List Node := ((n.childOfKind? ["arguments"]).map Node.namedChildren).getD []

def doBlock? (n : Node) : Option Node := n.childOfKind? ["do_block"]

theorem size_doBlock {n m : Node} (h : doBlock? n = some m) : m.size < n.size :=
  Node.size_child (List.mem_of_find?_eq_some h)

def hasOperator (cx : Context) (n : Node) (operator : String) : Bool :=
  n.kind == "binary_operator" && (n.field? "operator").any fun o => cx.text o == operator

def attribute? (cx : Context) (n : Node) : Option (String × Option Node) :=
  if n.kind != "unary_operator" || !Text.startsWith (cx.text n) "@" then none
  else (n.field? "operand").bind fun operand =>
    if operand.kind == "call" then
      (target? cx operand).map fun name => (name, (arguments operand).head?)
    else if operand.kind == "identifier" then some (cx.text operand, none)
    else none

def docText? (cx : Context) (value : Node) : Option String :=
  if value.kind != "string" && value.kind != "sigil" then none
  else
    let text := Text.cleanDocstring (cx.text value)
    if text.isEmpty then none else some text

def specTypes (spec : String) : List String × Option String :=
  match Text.cut? spec "::" with
  | none => ([], none)
  | some (head, result) =>
    let types :=
      match Text.cut? head "(" with
      | some (_, rest) => Text.items (Text.dropEndWhile (· == ')') (Text.trim rest))
      | none => []
    (types, Text.nonBlank? result)

-- What the attributes since the last definition say about the next one.
structure Pending where
  doc : Option String := none
  isHidden : Bool := false
  spec : Option String := none

def head? (cx : Context) (definition : Node) : Option (String × List Node) := do
  let first ← (arguments definition).head?
  let call ← if hasOperator cx first "when" then first.field? "left" else some first
  if call.kind == "call" then
    let name ← target? cx call
    pure (name, arguments call)
  else if call.kind == "identifier" then pure (cx.text call, [])
  else none

def parameter (cx : Context) (n : Node) (type : Option String) : Parameter :=
  if hasOperator cx n "\\\\" then
    { name := ((n.field? "left").map cx.trimmed).getD ""
      type
      isOptional := true
      defaultValue := (n.field? "right").map cx.trimmed }
  else { name := cx.trimmed n, type }

def definition? (cx : Context) (pending : Pending) (n : Node) : Option MethodDecl := do
  let macroName ← target? cx n
  let (name, args) ← head? cx n
  let (types, returnType) := (pending.spec.map specTypes).getD ([], none)
  let isPrivate := Text.endsWith macroName "p"
  let f := cx.function n name {
    params := args.zipIdx.map fun (a, i) => parameter cx a types[i]?
    returnType
    modifiers := (Modifiers.ofList [.static]).insertIf (!isPrivate) .exported
    doc := if pending.isHidden then none else pending.doc }
  pure { MethodDecl.ofFunction f (if isPrivate then .isPrivate else .isPublic) with
    isAbstract := (doBlock? n).isNone && !(arguments n).any (·.kind == "keywords") }

def joinClauses (cx : Context) (earlier later : MethodDecl) : MethodDecl :=
  let f := earlier.function
  let g := later.function
  { earlier with function := { f with
    location := { f.location with endLine := g.location.endLine, endColumn := g.location.endColumn }
    complexity := if cx.options.complexity then f.complexity + g.complexity else f.complexity
    docComment := f.docComment.or g.docComment } }

-- Clauses with one name and one number of parameters make one function.
def addClause (cx : Context) (m : MethodDecl) : List MethodDecl → List MethodDecl
  | [] => [m]
  | e :: rest =>
    if e.name == m.name && e.function.params.length == m.function.params.length then
      joinClauses cx e m :: rest
    else e :: addClause cx m rest

def fieldNodes (n : Node) : List Node :=
  (arguments n).flatMap <| Node.collect fun m =>
    if !m.isNamed then .pass
    else if m.kind == "list" || m.kind == "keywords" then .enter
    else if m.kind == "atom" || m.kind == "pair" then .report
    else .pass

def structField? (cx : Context) (n : Node) : Option PropertyDecl :=
  if n.kind == "pair" then
    (n.field? "key").map fun key =>
      let name := Text.dropEndWhile (· == ':') (cx.trimmed key)
      { cx.property n name none .isPublic with initializer := (n.field? "value").map cx.trimmed }
  else some (cx.property n (Text.dropStartWhile (· == ':') (cx.text n)) none .isPublic)

structure Body where
  declared : ClassDecl
  pending : Pending := {}

def addAttribute (cx : Context) (body : Body) (n : Node) (name : String) (value : Option Node) :
    Body :=
  let declared := body.declared
  if name == "moduledoc" then
    { body with declared := { declared with docComment := value.bind (docText? cx) } }
  else if name == "doc" then
    { body with pending := { body.pending with
      isHidden := value.any fun v => cx.text v == "false"
      doc := value.bind (docText? cx) } }
  else if name == "spec" then
    { body with pending := { body.pending with spec := value.map cx.text } }
  else if name == "behaviour" then
    let implements := declared.implements ++ (value.map cx.trimmed).toList
    { body with declared := { declared with implements } }
  else if metadataAttributes.contains name then body
  else
    let constant := { cx.property n name none .isPrivate with
      isStatic := true
      isReadonly := true
      initializer := value.map cx.trimmed }
    { body with declared := { declared with properties := declared.properties ++ [constant] } }

def addStatement (cx : Context) (body : Body) (n : Node) : Body :=
  match attribute? cx n with
  | some (name, value) => addAttribute cx body n name value
  | none =>
    let declared := body.declared
    match target? cx n with
    | none => body
    | some name =>
      if definitionMacros.contains name then
        let methods :=
          match definition? cx body.pending n with
          | some m => addClause cx m declared.methods
          | none => declared.methods
        { declared := { declared with methods } }
      else if name == "defstruct" then
        let fields := (fieldNodes n).filterMap (structField? cx)
        { body with declared := { declared with properties := declared.properties ++ fields } }
      else body

def module? (cx : Context) (n : Node) : Option ClassDecl :=
  (arguments n).head?.map fun name =>
    let start : ClassDecl := {
      name := cx.trimmed name
      kind := .moduleLike
      location := cx.location n
      modifiers := .ofList [.exported] }
    let statements := ((doBlock? n).map Node.namedChildren).getD []
    (statements.foldl (addStatement cx) { declared := start }).declared

-- The calls among the children and those inside of nested modules, with their
-- targets, in document order.
def moduleCalls (cx : Context) (n : Node) : List (String × Node) :=
  n.children.attach.flatMap fun ⟨c, _⟩ =>
    match target? cx c with
    | none => []
    | some name =>
      (name, c) :: if name == "defmodule" then
          match _found : doBlock? c with
          | some block => moduleCalls cx block
          | none => []
        else []
termination_by n.size
decreasing_by
  exact Nat.lt_trans (size_doBlock (by assumption)) (Node.size_child (by assumption))

def containers (cx : Context) (root : Node) (target : String) : List ClassDecl :=
  ((moduleCalls cx root).filter (·.1 == target)).filterMap fun (_, n) => module? cx n

def functions (cx : Context) (root : Node) : List FunctionDecl :=
  let isDefinition := fun n => (target? cx n).any definitionMacros.contains
  let found := ((root.namedChildren.filter isDefinition).filterMap (definition? cx {}))
  (found.foldl (fun methods m => addClause cx m methods) []).map fun m =>
    { m.function with modifiers := .ofList [.exported] }

-- A protocol has the methods of a module.
def interfaces (cx : Context) (root : Node) : List InterfaceDecl :=
  (containers cx root "defprotocol").map fun m => {
    name := m.name
    methods := m.methods
    location := m.location
    modifiers := m.modifiers
    docComment := m.docComment }

def aliasOption? (cx : Context) (options : List Node) : Option String :=
  let isAs := fun p : Node => (p.field? "key").any fun k => Text.startsWith (cx.trimmed k) "as"
  (((options.flatMap Node.namedChildren).find? isAs).bind fun p => p.field? "value").map cx.trimmed

def groupSpecifiers (group : String) : List ImportSpecifier :=
  (((Text.split (· == ',') (Text.dropEndWhile (· == '}') group)).map Text.trim).filter
    (! ·.isEmpty)).map fun name =>
      { localName := Text.afterLast name ".", imported := name, kind := .named }

def importOf? (cx : Context) (macroName : String) (n : Node) : Option ImportDecl :=
  match arguments n with
  | [] => none
  | first :: options =>
    let path := cx.trimmed first
    let location := cx.location n
    if macroName == "alias" then
      match Text.cut? path ".\x7b" with
      | some (parent, group) =>
        some { source := parent, specifiers := groupSpecifiers group, location }
      | none =>
        let last := Text.afterLast path "."
        let localName := (aliasOption? cx options).getD last
        some {
          source := path
          specifiers := [{ localName, imported := last, kind := .named }]
          location }
    else if macroName == "use" then some { source := path, isSideEffect := true, location }
    else
      let localName := if macroName == "require" then path else "*"
      some {
        source := path
        specifiers := [{ localName, imported := "*", kind := .wholeModule }]
        location }

def rules : Rules where
  kinds := .elixir
  functions := functions
  classes cx root := containers cx root "defmodule"
  interfaces := interfaces
  imports cx root :=
    ((moduleCalls cx root).filter fun (name, _) => importMacros.contains name).filterMap
      fun (name, n) => importOf? cx name n

end CodeEntities.Elixir
