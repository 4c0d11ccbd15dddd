import CodeEntities.Rules.Basic
import CodeEntities.Rules.Members
import CodeEntities.Text.Letter

namespace CodeEntities.Swift

def declarationKeyword (cx : Context) (n : Node) : String :=
  let token := ["class", "struct", "enum", "actor", "extension"].find? n.hasToken
  (((n.field? "declaration_kind").map cx.text).or token).getD "class"

def visibility (cx : Context) (n : Node) : Visibility :=
  let words := match n.childOfKind? ["modifiers"] with
    | some m => Text.words (cx.text m)
    | none => []
  if words.contains "private" || words.contains "fileprivate" then .isPrivate
  else if words.contains "public" || words.contains "open" then .isPublic
  else .internal

def declarationModifiers (cx : Context) (n : Node) : Modifiers :=
  (cx.modifiers n).insertIf (visibility cx n == .isPublic) .exported

def inherited (cx : Context) (n : Node) : List String :=
  (n.namedChildren.filter (·.kind == "inheritance_specifier")).map cx.trimmed

def isLet (cx : Context) (n : Node) : Bool :=
  match n.childOfKind? ["value_binding_pattern"] with
  | some b => Text.startsWith (Text.trimStart (cx.text b)) "let"
  | none => n.hasToken "let"

def bindingName? (cx : Context) (n : Node) : Option String :=
  (n.field? "name").bind fun pattern =>
    let inner :=
      if pattern.kind == "simple_identifier" then pattern
      else (pattern.findDescendant? ["simple_identifier"]).getD pattern
    Text.nonBlank? (cx.text inner)

def annotation? (cx : Context) (n : Node) : Option String :=
  ((n.childOfKind? ["type_annotation"]).map fun t => Text.cleanType (cx.text t))
    |>.filter (! ·.isEmpty)

def giveDefault (value : String) (params : List Parameter) : List Parameter :=
  match params.reverse with
  | last :: rest =>
    ({ last with defaultValue := some value, isOptional := true } :: rest).reverse
  | [] => []

-- Parameters stand among the other children of a callable, and a default value
-- after `=` behind its parameter. They end at the return type or the body.
def parametersFrom (cx : Context) (params : List Parameter) (awaitsDefault : Bool) :
    List Node → List Parameter
  | [] => params
  | c :: rest =>
    if c.kind == "parameter" then
      let found := (cx.parameter c).map fun p =>
        { p with isRest := p.isRest || Text.endsWith (Text.trimEnd (cx.text c)) "..." }
      parametersFrom cx (params ++ found) awaitsDefault rest
    else if c.kind == "=" then parametersFrom cx params true rest
    else if awaitsDefault && c.isNamed then
      parametersFrom cx (giveDefault (cx.trimmed c) params) false rest
    else if c.kind == "->" || c.kind == "function_body" then params
    else parametersFrom cx params awaitsDefault rest

def callable (cx : Context) (n : Node) : Callable :=
  { cx.callable n with
    params := parametersFrom cx [] false n.children
    modifiers := declarationModifiers cx n }

def functionOf (cx : Context) (n : Node) : Option FunctionDecl :=
  (cx.name? n).map fun name => cx.function n name (callable cx n)

def property? (cx : Context) (n : Node) : Option PropertyDecl :=
  (bindingName? cx n).map fun name =>
    let type := annotation? cx n
    let property := cx.property n name type (visibility cx n)
    { property with
      isReadonly := property.isReadonly || isLet cx n
      isOptional := type.any fun t => Text.endsWith t "?"
      initializer := cx.fieldText? n "value" }

def hasSetter (cx : Context) (n : Node) : Bool :=
  match n.childOfKind? ["protocol_property_requirements"] with
  | some r => (Text.split (! Text.isAlphanumeric ·) (cx.text r)).contains "set"
  | none => false

def protocolProperty? (cx : Context) (n : Node) : Option PropertyDecl :=
  (property? cx n).map fun p => { p with visibility := .isPublic, isReadonly := !hasSetter cx n }

def caseNames (n : Node) : List Node :=
  match n.childrenByField "name" with
  | [] => n.namedChildren.filter (·.kind == "simple_identifier")
  | names => names

def addMember (cx : Context) (inProtocol : Bool) (members : Members) (n : Node) : Members :=
  if n.kind == "function_declaration" || n.kind == "protocol_function_declaration" then
    match functionOf cx n with
    | some f =>
      let m := MethodDecl.ofFunction f (if inProtocol then .isPublic else visibility cx n)
      members.addMethod
        { m with isAbstract := m.isAbstract || n.kind == "protocol_function_declaration" }
    | none => members
  else if n.kind == "init_declaration" then
    members.addConstructor (.ofFunction (cx.function n "init" (callable cx n)) (visibility cx n))
  else if n.kind == "property_declaration" || n.kind == "protocol_property_declaration" then
    members.addProperties
      (if inProtocol then protocolProperty? cx n else property? cx n).toList
  else if n.kind == "enum_entry" then
    members.addProperties <| (caseNames n).map fun c =>
      { cx.property n (cx.text c) none .isPublic with isStatic := true, isReadonly := true }
  else members

def members (cx : Context) (n : Node) (inProtocol : Bool) : Members :=
  ((n.classBody?.map Node.namedChildren).getD []).foldl (addMember cx inProtocol) {}

def classKind (cx : Context) (n : Node) : ClassKind :=
  match declarationKeyword cx n with
  | "struct" => .struct
  | "enum" => .enumeration
  | "extension" => .extension
  | _ => .plain

-- Only classes inherit; their first parent is taken for the superclass.
def classOf (cx : Context) (n : Node) : Option ClassDecl :=
  (cx.name? n).map fun name =>
    let found := members cx n false
    let parents := inherited cx n
    let isClass := classKind cx n == .plain
    { name
      kind := classKind cx n
      typeParams := cx.typeParameters n
      superclass := if isClass then parents.head? else none
      implements := if isClass then parents.tail else parents
      methods := found.methods
      properties := found.properties
      constructor := found.constructor
      location := cx.location n
      modifiers := declarationModifiers cx n
      docComment := cx.doc n }

def interfaceOf (cx : Context) (n : Node) : Option InterfaceDecl :=
  (cx.name? n).map fun name =>
    let found := members cx n true
    { name
      typeParams := cx.typeParameters n
      parents := inherited cx n
      properties := found.properties
      methods := found.methods
      location := cx.location n
      modifiers := declarationModifiers cx n
      docComment := cx.doc n }

def typeAliasOf (cx : Context) (n : Node) : Option TypeAliasDecl :=
  (cx.name? n).map fun name => {
    name
    typeParams := cx.typeParameters n
    aliasedType := (cx.fieldText? n "value").getD ""
    location := cx.location n
    modifiers := declarationModifiers cx n
    docComment := cx.doc n }

def variablesOf (cx : Context) (n : Node) : List VariableDecl :=
  match bindingName? cx n with
  | none => []
  | some name => [{
      name
      kind := if isLet cx n then .constant else .mutable
      type := annotation? cx n
      initializer := cx.fieldText? n "value"
      location := cx.location n
      modifiers := (declarationModifiers cx n).insertIf (isLet cx n) .const
      docComment := cx.doc n }]

def importsOf (cx : Context) (n : Node) : List ImportDecl :=
  let words := Text.words (cx.text n)
  match words.getLast?.filter (· != "import") with
  | none => []
  | some path =>
    let all : ImportDecl := {
      source := path
      specifiers := [{ localName := "*", imported := "*", kind := .wholeModule }]
      location := cx.location n }
    match Text.cutLast? path "." with
    | some (module_, member) =>
      if words.length > 2 then
        [{ all with
          source := module_
          specifiers := [{ localName := member, imported := member, kind := .named }] }]
      else [all]
    | none => [all]

def rules : Rules where
  kinds := .swift
  defaultVisibility := .internal
  functionOf := functionOf
  classOf := classOf
  interfaceOf := interfaceOf
  typeAliasOf := typeAliasOf
  variablesOf := variablesOf
  importsOf := importsOf

end CodeEntities.Swift
