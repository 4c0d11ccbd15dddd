import CodeEntities.Rules.Basic
import CodeEntities.Rules.Members
import CodeEntities.Rules.Qualified

namespace CodeEntities.Java

def typeList (cx : Context) (clause : Option Node) : List String :=
  match clause with
  | some c => ((c.childOfKind? ["type_list"]).getD c).namedChildren.map cx.text
  | none => []

def method? (cx : Context) (default : Visibility) (n : Node) : Option MethodDecl :=
  (cx.name? n).map fun name =>
    let parts := { cx.callable n with returnType := cx.fieldText? n "type" }
    .ofFunction (cx.function n name parts) (.ofModifiers parts.modifiers default)

def fields (cx : Context) (default : Visibility) (n : Node) : List PropertyDecl :=
  (n.childrenByField "declarator").filterMap fun d =>
    (cx.fieldText? d "name").map fun name =>
      { cx.property n name (cx.fieldText? n "type") default with
        initializer := cx.fieldText? d "value" }

def enumConstant? (cx : Context) (n : Node) : Option PropertyDecl :=
  (cx.fieldText? n "name").map fun name =>
    { cx.property n name none .isPublic with
      isStatic := true
      isReadonly := true
      initializer := cx.fieldText? n "arguments" }

def memberNodes (body : Node) : List Node :=
  body.collectBelow fun m =>
    if !m.isNamed || m.isComment then .pass
    else if m.kind == "enum_body_declarations" then .enter
    else .report

def addMember (cx : Context) (default : Visibility) (inInterface : Bool) (members : Members)
    (n : Node) : Members :=
  if n.kind == "method_declaration" then
    match method? cx default n with
    | some m =>
      -- an interface method without a body is abstract without saying so
      let implicit := inInterface && (n.field? "body").isNone && !m.isStatic
      members.addMethod { m with isAbstract := m.isAbstract || implicit }
    | none => members
  else if n.kind == "constructor_declaration" || n.kind == "compact_constructor_declaration" then
    match method? cx default n with
    | some m => members.addConstructor m
    | none => members
  else if n.kind == "field_declaration" || n.kind == "constant_declaration" then
    members.addProperties (fields cx default n)
  else if n.kind == "enum_constant" then members.addProperties (enumConstant? cx n).toList
  else members

def members (cx : Context) (n : Node) (default : Visibility) (inInterface : Bool) : Members :=
  match n.field? "body" with
  | some body => (memberNodes body).foldl (addMember cx default inInterface) {}
  | none => {}

def classKind (n : Node) : ClassKind :=
  if n.kind == "enum_declaration" then .enumeration
  else if n.kind == "record_declaration" then .record
  else .plain

def components (cx : Context) (n : Node) : List PropertyDecl :=
  (cx.parametersOf n).map fun p => {
    name := p.name
    type := p.type
    visibility := .isPrivate
    isReadonly := true
    location := cx.location n }

def classOf (cx : Context) (n : Node) : Option ClassDecl :=
  (cx.name? n).map fun name =>
    let found := members cx n .internal false
    { name
      kind := classKind n
      typeParams := cx.typeParameters n
      superclass := ((n.field? "superclass").bind fun s => s.namedChildren.head?).map cx.text
      implements := typeList cx (n.field? "interfaces")
      methods := found.methods
      properties := (if classKind n == .record then components cx n else []) ++ found.properties
      constructor := found.constructor
      location := cx.location n
      modifiers := cx.modifiers n
      docComment := cx.doc n
      isAbstract := (cx.modifiers n).contains .abstract }

def interfaceOf (cx : Context) (n : Node) : Option InterfaceDecl :=
  (cx.name? n).map fun name =>
    let found := members cx n .isPublic true
    { name
      typeParams := cx.typeParameters n
      parents := typeList cx (n.childOfKind? ["extends_interfaces"])
      properties := found.properties.map fun p => { p with isStatic := true, isReadonly := true }
      methods := found.methods
      location := cx.location n
      modifiers := cx.modifiers n
      docComment := cx.doc n }

def importsOf (cx : Context) (n : Node) : List ImportDecl :=
  let statement := Text.dropEndWhile (· == ';') (Text.dropPrefixes (cx.text n) "import")
  let path := Text.join "" (Text.words (Text.dropPrefixes (Text.trim statement) "static "))
  if path.isEmpty then [] else [qualifiedImport cx n path]

def rules : Rules where
  kinds := .java
  defaultVisibility := .internal
  classOf := classOf
  interfaceOf := interfaceOf
  importsOf := importsOf

end CodeEntities.Java
