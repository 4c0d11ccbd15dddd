import CodeEntities.Rules.Basic
import CodeEntities.Rules.Members
import CodeEntities.Rules.Qualified
import CodeEntities.Text.Clauses

namespace CodeEntities.Scala

def modifierWords (cx : Context) (n : Node) : List String :=
  match n.childOfKind? ["modifiers"] with
  | some m => Text.split (fun c => Text.isBlank c || c == '[') (cx.text m)
  | none => []

def visibility (cx : Context) (n : Node) : Visibility :=
  let words := modifierWords cx n
  if words.contains "private" then .isPrivate
  else if words.contains "protected" then .isProtected
  else .isPublic

def declarationModifiers (cx : Context) (n : Node) : Modifiers :=
  (cx.modifiers n).insertIf (visibility cx n == .isPublic) .exported

def parentName (text : String) : String :=
  let t := Text.trim text
  match Text.cut? t "(" with
  | some (head, _) => Text.trim head
  | none => t

def parents (cx : Context) (n : Node) : List String :=
  match (n.field? "extend").or (n.childOfKind? ["extends_clause"]) with
  | none => []
  | some clause =>
    let types : List Node := match clause.childrenByField "type" with
      | [] => clause.namedChildren.filter (·.kind != "arguments")
      | types => types
    ((types.flatMap fun t => Text.parts (cx.text t) " with ").map parentName).filter fun name =>
      !name.isEmpty && name != "with"

def selector (text : String) : ImportSpecifier :=
  match (Text.cut? text "=>").or (Text.cut? text " as ") with
  | some (imported, localName) =>
    { localName := Text.trim localName, imported := Text.trim imported, kind := .named }
  | none =>
    if text == "_" || text == "*" then
      { localName := "*", imported := "*", kind := .wholeModule }
    else { localName := text, imported := text, kind := .named }

def importClause? (cx : Context) (n : Node) (text : String) : Option ImportDecl :=
  let clause := Text.trim text
  if clause.isEmpty then none
  else
    match Text.cut? clause "\x7b" with
    | some (package, selectors) =>
      let items := (Text.split (· == ',') (Text.dropEndWhile (· == '}') selectors)).map Text.trim
      some {
        source := Text.dropEndWhile (· == '.') (Text.trim package)
        specifiers := (items.filter fun s => !s.isEmpty && !Text.startsWith s "given").map selector
        location := cx.location n }
    | none =>
      match Text.dropSuffix? clause "._" with
      | some package => some (qualifiedImport cx n (package ++ ".*"))
      | none => some (qualifiedImport cx n clause)

def callable (cx : Context) (n : Node) : Callable :=
  let parts := cx.callable n
  { parts with
    params := parts.params.map fun p =>
      { p with isRest := p.isRest || p.type.any fun t => Text.endsWith t "*" }
    modifiers := declarationModifiers cx n }

def functionOf (cx : Context) (n : Node) : Option FunctionDecl :=
  (cx.name? n).map fun name => cx.function n name (callable cx n)

def property? (cx : Context) (n : Node) : Option PropertyDecl :=
  ((n.field? "pattern").or (n.field? "name")).map fun name =>
    let property := cx.property n (cx.trimmed name) (cx.fieldText? n "type") (visibility cx n)
    { property with
      isReadonly :=
        property.isReadonly || n.kind == "val_definition" || n.kind == "val_declaration"
      initializer := cx.fieldText? n "value" }

def addMember (cx : Context) (isStatic : Bool) (members : Members) (n : Node) : Members :=
  if n.kind == "function_definition" || n.kind == "function_declaration" then
    match functionOf cx n with
    | some f =>
      let m := MethodDecl.ofFunction f (visibility cx n)
      members.addMethod { m with
        isAbstract := m.isAbstract || n.kind == "function_declaration"
        isStatic := m.isStatic || isStatic }
    | none => members
  else if ["val_definition", "var_definition", "val_declaration", "var_declaration"].contains
      n.kind then
    match property? cx n with
    | some p => members.addProperties [{ p with isStatic := p.isStatic || isStatic }]
    | none => members
  else members

def members (cx : Context) (n : Node) (isStatic : Bool) : Members :=
  ((n.classBody?.map Node.namedChildren).getD []).foldl (addMember cx isStatic) {}

def parameterField? (cx : Context) (isCase : Bool) (param : Node) : Option PropertyDecl :=
  if isCase || param.hasToken "val" || param.hasToken "var" then
    (cx.parameter param).head?.map fun p =>
      { cx.property param p.name p.type (visibility cx param) with
        isReadonly := !param.hasToken "var"
        initializer := p.defaultValue }
  else none

def classKind (n : Node) : ClassKind :=
  if n.kind == "object_definition" then .object
  else if n.kind == "enum_definition" then .enumeration
  else if n.hasToken "case" then .record
  else .plain

def classOf (cx : Context) (n : Node) : Option ClassDecl :=
  (cx.name? n).map fun name =>
    let found := members cx n (classKind n == .object)
    let list := n.childOfKind? ["class_parameters"]
    let params := ((list.map Node.namedChildren).getD []).filter (·.kind == "class_parameter")
    { name
      kind := classKind n
      typeParams := cx.typeParameters n
      superclass := (parents cx n).head?
      implements := (parents cx n).tail
      methods := found.methods
      properties := params.filterMap (parameterField? cx (n.hasToken "case")) ++ found.properties
      constructor := list.map fun l =>
        .ofFunction (cx.function l "this" { params := cx.parameters l }) .isPublic
      location := cx.location n
      modifiers := declarationModifiers cx n
      docComment := cx.doc n
      isAbstract := (declarationModifiers cx n).contains .abstract }

def interfaceOf (cx : Context) (n : Node) : Option InterfaceDecl :=
  (cx.name? n).map fun name =>
    let found := members cx n false
    { name
      typeParams := cx.typeParameters n
      parents := parents cx n
      properties := found.properties
      methods := found.methods
      location := cx.location n
      modifiers := declarationModifiers cx n
      docComment := cx.doc n }

def variablesOf (cx : Context) (n : Node) : List VariableDecl :=
  match property? cx n with
  | none => []
  | some p =>
    let isVal := n.kind == "val_definition"
    [{ name := p.name
       kind := if isVal then .constant else .mutable
       type := p.type
       initializer := p.initializer
       location := p.location
       modifiers := (declarationModifiers cx n).insertIf isVal .const
       docComment := p.docComment }]

def importsOf (cx : Context) (n : Node) : List ImportDecl :=
  (Text.clauses (Text.trim (Text.dropPrefixes (cx.trimmed n) "import"))).filterMap
    (importClause? cx n)

def rules : Rules where
  kinds := .scala
  functionOf := functionOf
  classOf := classOf
  interfaceOf := interfaceOf
  variablesOf := variablesOf
  importsOf := importsOf

end CodeEntities.Scala
