import CodeEntities.Rules.Basic
import CodeEntities.Rules.Members
import CodeEntities.Text.Clauses

namespace CodeEntities.Php

def dropSigil (name : String) : String := (Text.dropPrefix? name "$").getD name

def namesIn (cx : Context) (clause : Option Node) : List String :=
  ((clause.map Node.namedChildren).getD []).map cx.trimmed

def callable (cx : Context) (n : Node) : Callable :=
  { cx.callable n with
    params := (cx.parametersOf n).map fun p => { p with name := dropSigil p.name } }

def functionOf (cx : Context) (n : Node) : Option FunctionDecl :=
  (cx.name? n).map fun name =>
    let parts := callable cx n
    cx.function n name { parts with modifiers := parts.modifiers.insert .exported }

def method? (cx : Context) (inInterface : Bool) (n : Node) : Option MethodDecl :=
  (cx.name? n).map fun name =>
    let parts := callable cx n
    let m := MethodDecl.ofFunction (cx.function n name parts)
      (.ofModifiers parts.modifiers .isPublic)
    { m with isAbstract := m.isAbstract || (inInterface && (n.field? "body").isNone) }

def promoted (cx : Context) (n : Node) : List PropertyDecl :=
  match Context.parameterList? n with
  | none => []
  | some list =>
    (list.namedChildren.filter (·.kind == "property_promotion_parameter")).filterMap fun p =>
      (cx.parameter p).head?.map fun parameter =>
        { cx.property p (dropSigil parameter.name) parameter.type .isPublic with
          initializer := parameter.defaultValue
          docComment := none }

def elements (n : Node) (kind : String) : List Node := n.namedChildren.filter (·.kind == kind)

def propertyElement? (cx : Context) (n element : Node) : Option PropertyDecl :=
  (cx.name? element).map fun name =>
    { cx.property n (dropSigil name) (cx.fieldText? n "type") .isPublic with
      initializer := (cx.fieldText? element "default_value").or (cx.afterEquals? element) }

def constant? (cx : Context) (n element : Node) (initializer : Option String) :
    Option PropertyDecl :=
  (cx.name? element).map fun name =>
    { cx.property n name none .isPublic with
      isStatic := true
      isReadonly := true
      initializer }

def addMember (cx : Context) (inInterface : Bool) (members : Members) (n : Node) : Members :=
  if n.kind == "method_declaration" then
    if cx.name? n == some "__construct" then
      { members with
        properties := members.properties ++ promoted cx n
        constructor := method? cx inInterface n }
    else
      match method? cx inInterface n with
      | some m => members.addMethod m
      | none => members
  else if n.kind == "property_declaration" then
    members.addProperties ((elements n "property_element").filterMap (propertyElement? cx n))
  else if n.kind == "const_declaration" then
    members.addProperties <| (elements n "const_element").filterMap fun e =>
      constant? cx n e (cx.afterEquals? e)
  else if n.kind == "enum_case" then
    members.addProperties
      (constant? cx n n ((cx.fieldText? n "value").or (cx.afterEquals? n))).toList
  else members

def bodyNodes (n : Node) : List Node := (n.classBody?.map Node.namedChildren).getD []

def members (cx : Context) (n : Node) (inInterface : Bool) : Members :=
  (bodyNodes n).foldl (addMember cx inInterface) {}

def usedTraits (cx : Context) (n : Node) : List String :=
  ((bodyNodes n).filter (·.kind == "use_declaration")).flatMap fun u => namesIn cx (some u)

def classOf (cx : Context) (n : Node) : Option ClassDecl :=
  (cx.name? n).map fun name =>
    let found := members cx n false
    let modifiers := (cx.modifiers n).insert .exported
    { name
      kind :=
        if n.kind == "enum_declaration" then .enumeration
        else if n.kind == "trait_declaration" then .moduleLike
        else .plain
      superclass := (namesIn cx (n.childOfKind? ["base_clause"])).head?
      implements := namesIn cx (n.childOfKind? ["class_interface_clause"]) ++ usedTraits cx n
      methods := found.methods
      properties := found.properties
      constructor := found.constructor
      location := cx.location n
      modifiers
      docComment := cx.doc n
      isAbstract := modifiers.contains .abstract }

def interfaceOf (cx : Context) (n : Node) : Option InterfaceDecl :=
  (cx.name? n).map fun name =>
    let found := members cx n true
    { name
      parents := namesIn cx (n.childOfKind? ["base_clause"])
      properties := found.properties
      methods := found.methods
      location := cx.location n
      modifiers := (cx.modifiers n).insert .exported
      docComment := cx.doc n }

def variablesOf (cx : Context) (n : Node) : List VariableDecl :=
  (elements n "const_element").filterMap fun e =>
    (cx.name? e).map fun name => {
      name
      kind := .constant
      initializer := cx.afterEquals? e
      location := cx.location n
      modifiers := (cx.modifiers n).union (.ofList [.const, .exported])
      docComment := cx.doc n }

def specifier (imported : String) (asName : Option String) : ImportSpecifier where
  localName := asName.getD imported
  imported := imported
  kind := .named

def splitAlias (item : String) : String × Option String :=
  match Text.cut? item " as " with
  | some (path, asName) => (Text.trim path, some (Text.trim asName))
  | none => (Text.trim item, none)

def splitNamespace (path : String) : String × String :=
  let path := Text.dropStartWhile (· == '\\') (Text.trim path)
  (Text.cutLast? path "\\").getD ("", path)

def useClause? (cx : Context) (n : Node) (text : String) : Option ImportDecl :=
  let clause := Text.trim text
  if clause.isEmpty then none
  else
    let (source, specifiers) :=
      match Text.cut? clause "\x7b" with
      | some (space, group) =>
        let items := Text.split (· == ',') (Text.dropEndWhile (· == '}') group)
        let named := (items.filter fun item => !(Text.trim item).isEmpty).map fun item =>
          let (path, asName) := splitAlias item
          specifier path asName
        (Text.trimMatches (· == '\\') (Text.trim space), named)
      | none =>
        let (path, asName) := splitAlias clause
        let (space, member) := splitNamespace path
        (space, [specifier member asName])
    some { source, specifiers, location := cx.location n }

def importsOf (cx : Context) (n : Node) : List ImportDecl :=
  let text := Text.dropEndWhile (· == ';')
    (Text.trim (Text.dropPrefixes (cx.trimmed n) "use"))
  let text :=
    ((Text.dropPrefix? text "function ").or (Text.dropPrefix? text "const ")).getD text
  (Text.clauses text).filterMap (useClause? cx n)

def rules : Rules where
  kinds := .php
  functionOf := functionOf
  classOf := classOf
  interfaceOf := interfaceOf
  variablesOf := variablesOf
  importsOf := importsOf

end CodeEntities.Php
