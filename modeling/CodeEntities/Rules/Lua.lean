import CodeEntities.Rules.Basic

namespace CodeEntities.Lua

def requiredModule? (cx : Context) (call : Node) : Option String := do
  if call.kind != "function_call" then none
  let name ← call.field? "name"
  if cx.text name != "require" then none
  let arguments ← call.field? "arguments"
  let first ← if arguments.kind == "string" then some arguments else arguments.namedChildren.head?
  if first.kind == "string" then some (Text.unquote (cx.text first)) else none

def bindings (n : Node) : List (Node × Option Node) :=
  let assignment :=
    if n.kind == "assignment_statement" then some n else n.childOfKind? ["assignment_statement"]
  match assignment with
  | some a =>
    let names := ((a.childOfKind? ["variable_list"]).getD a).childrenByField "name"
    let values := match a.childOfKind? ["expression_list"] with
      | some list => list.childrenByField "value"
      | none => []
    names.zipIdx.map fun (name, i) => (name, values[i]?)
  | none =>
    match n.childOfKind? ["variable_list"] with
    | some list => (list.childrenByField "name").map fun name => (name, none)
    | none => []

def parameter (cx : Context) (p : Node) : List Parameter :=
  if p.kind == "vararg_expression" then [{ name := "...", isRest := true }] else cx.parameter p

def parameters (cx : Context) (n : Node) : List Parameter :=
  (((Context.parameterList? n).map Node.namedChildren).getD []).flatMap (parameter cx)

def functionOf (cx : Context) (n : Node) : Option FunctionDecl :=
  ((n.field? "name").filter (·.kind == "identifier")).map fun name =>
    cx.function n (cx.text name) {
      params := parameters cx n
      modifiers := Modifiers.empty.insertIf (!n.hasToken "local") .exported }

structure TableFunction where
  table : String
  method : MethodDecl
  deriving Repr

def tableFunction? (cx : Context) (n : Node) : Option TableFunction := do
  let name ← n.field? "name"
  let isInstance := name.kind == "method_index_expression"
  if !isInstance && name.kind != "dot_index_expression" then none
  let table ← name.field? "table"
  let member ← name.field? (if isInstance then "method" else "field")
  let f := cx.function n (cx.text member) {
    params := parameters cx n
    modifiers := Modifiers.empty.insertIf (!isInstance) .static }
  return { table := cx.text table, method := .ofFunction f .isPublic }

-- Adds a function to the first class of its table, which grows to its end, or
-- to a new class at the end.
def attach (classes : List ClassDecl) (f : TableFunction) : List ClassDecl :=
  let location := f.method.function.location
  match classes with
  | [] => [{
      name := f.table
      kind := .moduleLike
      methods := [f.method]
      location
      modifiers := .ofList [.exported] }]
  | c :: rest =>
    if c.name == f.table then
      { c with
        methods := c.methods ++ [f.method]
        location := { c.location with
          endLine := location.endLine
          endColumn := location.endColumn } } :: rest
    else c :: attach rest f

def classes (cx : Context) (root : Node) : List ClassDecl :=
  ((root.moduleLevel NodeKinds.lua.classes NodeKinds.lua.wrappers).filterMap
    (tableFunction? cx)).foldl attach []

def variablesOf (cx : Context) (n : Node) : List VariableDecl :=
  let isLocal := n.kind == "variable_declaration"
  ((bindings n).filter fun (name, value) =>
    name.kind == "identifier" && (value.bind (requiredModule? cx)).isNone).map fun (name, value) => {
      name := cx.text name
      kind := if isLocal then .binding else .mutable
      initializer := value.map cx.trimmed
      location := cx.location n
      modifiers := Modifiers.empty.insertIf (!isLocal) .exported
      docComment := cx.doc n }

def importsOf (cx : Context) (n : Node) : List ImportDecl :=
  if n.kind == "function_call" then
    match requiredModule? cx n with
    | some source => [{ source, isSideEffect := true, location := cx.location n }]
    | none => []
  else
    (bindings n).filterMap fun (name, value) =>
      (value.bind (requiredModule? cx)).map fun source => {
        source
        specifiers := [{ localName := cx.text name, imported := "default", kind := .default }]
        location := cx.location n }

def rules : Rules where
  kinds := .lua
  functionOf := functionOf
  classes := classes
  variablesOf := variablesOf
  importsOf := importsOf

end CodeEntities.Lua
