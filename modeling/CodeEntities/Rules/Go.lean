import CodeEntities.Rules.Basic
import CodeEntities.Text.Letter

namespace CodeEntities.Go

-- A capital first letter makes a name public and exported.
def visibility (name : String) : Visibility :=
  if Text.isCapitalized name then .isPublic else .isPrivate

def exportModifiers (name : String) : Modifiers :=
  Modifiers.empty.insertIf (Text.isCapitalized name) .exported

def typeSpecs (root : Node) (kinds : List String) : List Node :=
  (root.moduleLevel ["type_declaration"] []).flatMap fun decl =>
    decl.namedChildren.filter fun s => kinds.contains s.kind

def specType? (spec : Node) : Option String := (spec.field? "type").map (·.kind)

def isStruct (spec : Node) : Bool := specType? spec == some "struct_type"

def isInterface (spec : Node) : Bool := specType? spec == some "interface_type"

-- `(s *Server)` belongs to `Server`, `(l List[T])` to `List`.
def receiverType? (cx : Context) (n : Node) : Option String := do
  let receiver ← n.field? "receiver"
  let param ← receiver.namedChildren.head?
  let type ← param.field? "type"
  let name :=
    match (type.descendantsOfKind ["type_identifier"] ["type_arguments"]).head? with
    | some inner => cx.text inner
    | none => Text.dropStartWhile (· == '*') (cx.text type)
  if name.isEmpty then none else some name

def callable (cx : Context) (n : Node) (name : String) : Callable :=
  let parts := cx.callable n
  { parts with modifiers := parts.modifiers.union (exportModifiers name) }

def functionOf (cx : Context) (n : Node) : Option FunctionDecl :=
  (cx.name? n).map fun name => cx.function n name (callable cx n name)

def methodOf (cx : Context) (n : Node) : Option MethodDecl :=
  (functionOf cx n).map fun f => .ofFunction f (visibility f.name)

def fieldProperty (cx : Context) (field : Node) (name : String) (type : Option String) :
    PropertyDecl :=
  cx.property field name type (visibility name)

def fieldProperties (cx : Context) (field : Node) : List PropertyDecl :=
  let type := cx.fieldText? field "type"
  match field.childrenByField "name" with
  | [] =>
    match type with
    | some t => [fieldProperty cx field (Text.afterLast (Text.dropStartWhile (· == '*') t) ".") type]
    | none => []
  | names => names.map fun n => fieldProperty cx field (cx.text n) type

def structClass (cx : Context) (spec : Node) (name : String) : ClassDecl :=
  let fields := (spec.field? "type").bind fun t =>
    t.namedChildren.find? (·.kind == "field_declaration_list")
  let declarations := ((fields.map Node.namedChildren).getD []).filter (·.kind == "field_declaration")
  let whole := (spec.parent?.filter (·.kind == "type_declaration")).getD spec
  { name
    kind := .struct
    typeParams := cx.typeParameters spec
    properties := declarations.flatMap (fieldProperties cx)
    location := cx.location spec
    modifiers := exportModifiers name
    docComment := (cx.doc spec).or (cx.doc whole) }

def attach (classes : List ClassDecl) (owner : String) (m : MethodDecl) : List ClassDecl :=
  match classes with
  | [] => [{
      name := owner
      kind := .extension
      methods := [m]
      location := m.function.location
      modifiers := exportModifiers owner }]
  | c :: rest =>
    if c.name == owner then { c with methods := c.methods ++ [m] } :: rest
    else c :: attach rest owner m

def classes (cx : Context) (root : Node) : List ClassDecl :=
  let structs := ((typeSpecs root ["type_spec"]).filter isStruct).filterMap fun spec =>
    (cx.name? spec).map (structClass cx spec)
  (root.moduleLevel NodeKinds.go.methods []).foldl (fun found decl =>
    match methodOf cx decl, receiverType? cx decl with
    | some m, some owner => attach found owner m
    | _, _ => found) structs

def isMethodElement (n : Node) : Bool := ["method_elem", "method_spec"].contains n.kind

def interface? (cx : Context) (spec : Node) : Option InterfaceDecl := do
  let name ← cx.name? spec
  let body ← spec.field? "type"
  return {
    name
    typeParams := cx.typeParameters spec
    parents := (body.namedChildren.filter (! isMethodElement ·)).map cx.trimmed
    methods := (body.namedChildren.filter isMethodElement).filterMap (methodOf cx)
    location := cx.location spec
    modifiers := exportModifiers name
    docComment := (cx.doc spec).or (cx.doc (spec.parent?.getD spec)) }

def typeAlias? (cx : Context) (spec : Node) : Option TypeAliasDecl :=
  (cx.name? spec).map fun name => {
    name
    typeParams := cx.typeParameters spec
    aliasedType := (cx.fieldText? spec "type").getD ""
    location := cx.location spec
    modifiers := exportModifiers name
    docComment := cx.doc spec }

def specVariables (cx : Context) (decl : Node) (kind : VariableKind) (spec : Node) :
    List VariableDecl :=
  let values := (((spec.field? "value").map Node.namedChildren).getD []).map cx.text
  let names := (spec.childrenByField "name").map cx.text
  (names.zipIdx.filter (·.1 != "_")).map fun (name, i) => {
    name
    kind
    type := cx.fieldText? spec "type"
    initializer := values[i]?
    location := cx.location spec
    modifiers := (exportModifiers name).insertIf (kind == .constant) .const
    docComment := (cx.doc spec).or (cx.doc decl) }

def variablesOf (cx : Context) (n : Node) : List VariableDecl :=
  let kind : VariableKind := if n.kind == "const_declaration" then .constant else .mutable
  (n.descendantsOfKind ["var_spec", "const_spec"] []).flatMap (specVariables cx n kind)

-- A package is imported under its alias or the last part of its path; under `_`
-- it is only run.
def import? (cx : Context) (spec : Node) : Option ImportDecl :=
  (cx.fieldText? spec "path").map fun path =>
    let source := Text.unquote path
    let asName := cx.fieldText? spec "name"
    let isSideEffect := asName == some "_"
    { source
      specifiers :=
        if isSideEffect then []
        else [{
          localName := asName.getD (Text.afterLast source "/")
          imported := source
          kind := .wholeModule }]
      isSideEffect
      location := cx.location spec }

def rules : Rules where
  kinds := .go
  functionOf := functionOf
  classes := classes
  interfaces cx root :=
    ((typeSpecs root ["type_spec"]).filter isInterface).filterMap (interface? cx)
  typeAliases cx root :=
    ((typeSpecs root ["type_spec", "type_alias"]).filter fun spec =>
      !isStruct spec && !isInterface spec).filterMap (typeAlias? cx)
  variablesOf := variablesOf
  importsOf cx n := (n.descendantsOfKind ["import_spec"] []).filterMap (import? cx)

end CodeEntities.Go
