import CodeEntities.Rules.Basic
import CodeEntities.Rules.Members
import CodeEntities.Text.Letter

namespace CodeEntities.CSharp

def visibility (cx : Context) (n : Node) (default : Visibility) : Visibility :=
  let words := (n.children.filter (·.kind == "modifier")).map cx.trimmed
  if words.contains "public" then .isPublic
  else if words.contains "protected" then .isProtected
  else if words.contains "internal" then .internal
  else if words.contains "private" then .isPrivate
  else default

-- By convention the name of an interface starts with `I` and another capital.
def isInterfaceName (name : String) : Bool :=
  match (Text.afterLast name ".").toList with
  | 'I' :: c :: _ => Text.isUppercase c
  | _ => false

def typeModifiers (cx : Context) (n : Node) : Modifiers :=
  (cx.modifiers n).insertIf (visibility cx n .internal == .isPublic) .exported

def bases (cx : Context) (n : Node) : List String :=
  match n.childOfKind? ["base_list"] with
  | some list => (list.namedChildren.filter (·.kind != "argument_list")).map cx.trimmed
  | none => []

def method? (cx : Context) (default : Visibility) (n : Node) : Option MethodDecl :=
  (cx.name? n).map fun name =>
    .ofFunction (cx.function n name (cx.callable n)) (visibility cx n default)

def property? (cx : Context) (default : Visibility) (n : Node) : Option PropertyDecl :=
  (cx.fieldText? n "name").map fun name =>
    let accessors := ((n.childOfKind? ["accessor_list"]).map cx.text).getD ""
    let property := cx.property n name (cx.fieldText? n "type") default
    { property with
      visibility := visibility cx n default
      isReadonly :=
        property.isReadonly || (!accessors.isEmpty && !Text.contains accessors "set")
      initializer := cx.fieldText? n "value" }

def fields (cx : Context) (default : Visibility) (n : Node) : List PropertyDecl :=
  match n.childOfKind? ["variable_declaration"] with
  | none => []
  | some decl =>
    (decl.namedChildren.filter (·.kind == "variable_declarator")).filterMap fun d =>
      (cx.name? d).map fun name =>
        { cx.property n name (cx.fieldText? decl "type") default with
          visibility := visibility cx n default
          initializer := (d.childOfKind? ["equals_value_clause"]).map fun v =>
            Text.trim (Text.dropStartWhile (· == '=') (cx.text v)) }

def enumMember? (cx : Context) (n : Node) : Option PropertyDecl :=
  (cx.fieldText? n "name").map fun name =>
    { cx.property n name none .isPublic with
      isStatic := true
      isReadonly := true
      initializer := cx.fieldText? n "value" }

def addMember (cx : Context) (default : Visibility) (inInterface : Bool) (members : Members)
    (n : Node) : Members :=
  if n.kind == "method_declaration" then
    match method? cx default n with
    | some m =>
      let implicit := inInterface && (n.field? "body").isNone && !m.isStatic
      members.addMethod { m with isAbstract := m.isAbstract || implicit }
    | none => members
  else if n.kind == "constructor_declaration" then
    match method? cx default n with
    | some m => members.addConstructor m
    | none => members
  else if n.kind == "property_declaration" then
    members.addProperties (property? cx default n).toList
  else if n.kind == "field_declaration" || n.kind == "event_field_declaration" then
    members.addProperties (fields cx default n)
  else if n.kind == "enum_member_declaration" then
    members.addProperties (enumMember? cx n).toList
  else members

def members (cx : Context) (n : Node) (default : Visibility) (inInterface : Bool) : Members :=
  (((n.field? "body").map Node.namedChildren).getD []).foldl (addMember cx default inInterface) {}

def classKind (n : Node) : ClassKind :=
  if n.kind == "struct_declaration" then .struct
  else if n.kind == "record_declaration" || n.kind == "record_struct_declaration" then .record
  else if n.kind == "enum_declaration" then .enumeration
  else .plain

def components (cx : Context) (n : Node) : List PropertyDecl :=
  match Context.parameterList? n with
  | some list => (cx.parameters list).map fun p => {
      name := p.name
      type := p.type
      visibility := .isPublic
      isReadonly := true
      location := cx.location list }
  | none => []

-- The first base of a class is its superclass unless it is named like an interface.
def splitBases (kind : ClassKind) (bases : List String) : Option String × List String :=
  if kind == .enumeration then (none, [])
  else
    match bases with
    | base :: rest =>
      if kind == .plain && !isInterfaceName base then (some base, rest) else (none, bases)
    | [] => (none, [])

def classOf (cx : Context) (n : Node) : Option ClassDecl :=
  (cx.name? n).map fun name =>
    let kind := classKind n
    let found := members cx n .isPrivate false
    let (superclass, implements) := splitBases kind (bases cx n)
    { name
      kind
      typeParams := cx.typeParameters n
      superclass
      implements
      methods := found.methods
      properties := (if kind == .record then components cx n else []) ++ found.properties
      constructor := found.constructor
      location := cx.location n
      modifiers := typeModifiers cx n
      docComment := cx.doc n
      isAbstract := (typeModifiers cx n).contains .abstract }

def interfaceOf (cx : Context) (n : Node) : Option InterfaceDecl :=
  (cx.name? n).map fun name =>
    let found := members cx n .isPublic true
    { name
      typeParams := cx.typeParameters n
      parents := bases cx n
      properties := found.properties
      methods := found.methods
      location := cx.location n
      modifiers := typeModifiers cx n
      docComment := cx.doc n }

def importsOf (cx : Context) (n : Node) : List ImportDecl :=
  let directive := Text.dropPrefixes (cx.trimmed n) "global"
  let named := Text.dropPrefixes (Text.trimStart directive) "using"
  let target := Text.trim (Text.dropEndWhile (· == ';') named)
  let target := Text.trim ((Text.dropPrefix? target "static ").getD target)
  let (asName, source) :=
    match Text.cut? target "=" with
    | some (asName, source) => (Text.trim asName, Text.trim source)
    | none => ("*", target)
  if source.isEmpty then []
  else [{
    source
    specifiers := [{
      localName := asName
      imported := if asName == "*" then "*" else source
      kind := .wholeModule }]
    location := cx.location n }]

def rules : Rules where
  kinds := .csharp
  defaultVisibility := .isPrivate
  classOf := classOf
  interfaceOf := interfaceOf
  importsOf := importsOf

end CodeEntities.CSharp
