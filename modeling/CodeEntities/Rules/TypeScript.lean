import CodeEntities.Rules.Basic
import CodeEntities.Rules.Members

namespace CodeEntities.TypeScript

def isFunctionValue (n : Node) : Bool :=
  ["arrow_function", "function_expression", "function", "generator_function"].contains n.kind

def isExported (n : Node) : Bool :=
  match n.parent? with
  | some p => p.kind == "export_statement"
  | none => false

def declarationModifiers (cx : Context) (n : Node) : Modifiers :=
  (cx.modifiers n).insertIf (isExported n) .exported

def declarators (n : Node) : List Node := n.namedChildren.filter (·.kind == "variable_declarator")

def isBindingList (n : Node) : Bool :=
  n.kind == "lexical_declaration" || n.kind == "variable_declaration"

def variableKind (cx : Context) (n : Node) : VariableKind :=
  match n.children.head?.map cx.text with
  | some "const" => .constant
  | some "let" => .binding
  | _ => .mutable

def requiredModule? (cx : Context) (value : Node) : Option String := do
  if value.kind != "call_expression" then none
  let function ← value.field? "function"
  if cx.text function != "require" then none
  let arguments ← value.field? "arguments"
  let first ← arguments.namedChildren.head?
  if first.kind == "string" then some (Text.unquote (cx.text first)) else none

def boundNames (cx : Context) (declarator : Node) : List String :=
  match declarator.field? "name" with
  | none => []
  | some name =>
    if name.kind == "identifier" then [cx.text name]
    else (name.descendantsOfKind ["identifier", "shorthand_property_identifier_pattern"] []).map
      cx.text

-- A binding of a function value is the function.
def promoted? (cx : Context) (decl declarator value : Node) : Option FunctionDecl :=
  ((declarator.field? "name").filter (·.kind == "identifier")).map fun name =>
    let parts := cx.callable value
    let single := match value.field? "parameter" with
      | some p => cx.parameter p
      | none => []
    cx.function decl (cx.text name) { parts with
      params := if parts.params.isEmpty then single else parts.params
      modifiers := (parts.modifiers.union (declarationModifiers cx decl)).insertIf
        (variableKind cx decl == .constant) .const }

def functionOf (cx : Context) (n : Node) : Option FunctionDecl :=
  (cx.name? n).map fun name =>
    let parts := cx.callable n
    cx.function n name
      { parts with modifiers := parts.modifiers.union (declarationModifiers cx n) }

def functionsOf (cx : Context) (n : Node) : List FunctionDecl :=
  if isBindingList n then
    (declarators n).filterMap fun d =>
      ((d.field? "value").filter isFunctionValue).bind (promoted? cx n d)
  else (functionOf cx n).toList

def isPrivateName (n : Node) : Bool := n.kind == "private_property_identifier"

def method? (cx : Context) (n : Node) : Option MethodDecl :=
  (cx.name? n).map fun name =>
    let parts := cx.callable n
    let modifiers := parts.modifiers.insertIf (n.kind == "abstract_method_signature") .abstract
    let default : Visibility := if (n.field? "name").any isPrivateName then .isPrivate else .isPublic
    { MethodDecl.ofFunction (cx.function n name { parts with modifiers })
        (.ofModifiers modifiers default) with
      isGetter := n.hasToken "get"
      isSetter := n.hasToken "set" }

def field? (cx : Context) (n : Node) : Option PropertyDecl :=
  ((n.field? "name").or (n.field? "property")).bind fun nameNode =>
    (Text.nonBlank? (cx.text nameNode)).map fun name =>
      let type := (n.field? "type").map fun t => Text.cleanType (cx.text t)
      let default : Visibility := if isPrivateName nameNode then .isPrivate else .isPublic
      { cx.property n name type default with
        isOptional := n.hasToken "?"
        initializer := cx.fieldText? n "value" }

def enumMember? (cx : Context) (n : Node) : Option PropertyDecl :=
  let entry :=
    if n.kind == "enum_assignment" then
      (cx.fieldText? n "name").map fun name => (name, cx.fieldText? n "value")
    else if n.kind == "property_identifier" || n.kind == "string" then
      some (Text.unquote (cx.text n), none)
    else none
  entry.map fun (name, initializer) =>
    { cx.property n name none .isPublic with
      isStatic := true
      isReadonly := true
      initializer }

def bodyNodes (n : Node) : List Node := (n.classBody?.map Node.namedChildren).getD []

-- Supertypes of a class: its superclass and the interfaces it implements. Where
-- the clause holds an expression directly, the first one is the superclass.
def addHeritage (cx : Context) (found : Option String × List String) (clause : Node) :
    Option String × List String :=
  let (superclass, implements) := found
  if clause.kind == "extends_clause" then
    (((clause.field? "value").or clause.namedChildren.head?).map cx.text, implements)
  else if clause.kind == "implements_clause" then
    (superclass, implements ++ clause.namedChildren.map cx.text)
  else if superclass.isNone then (some (cx.text clause), implements)
  else found

def parameterProperties (cx : Context) (n : Node) : List PropertyDecl :=
  match Context.parameterList? n with
  | none => []
  | some list =>
    (list.namedChildren.filter fun p =>
      (p.childOfKind? ["accessibility_modifier", "readonly"]).isSome).filterMap fun p =>
        (cx.parameter p).head?.map fun parameter =>
          { cx.property p parameter.name parameter.type .isPublic with
            isOptional := parameter.isOptional }

def functionField? (cx : Context) (n value : Node) : Option MethodDecl :=
  (field? cx n).map fun property =>
    let parts := cx.callable value
    let modifiers := parts.modifiers.union (cx.modifiers n)
    .ofFunction (cx.function n property.name { parts with modifiers })
      (.ofModifiers modifiers .isPublic)

def addMember (cx : Context) (members : Members) (n : Node) : Members :=
  if ["method_definition", "method_signature", "abstract_method_signature"].contains n.kind then
    match method? cx n with
    | none => members
    | some m =>
      if m.name == "constructor" then
        { members with
          properties := members.properties ++ parameterProperties cx n
          constructor := members.constructor.or (some m) }
      else members.addMethod m
  else if n.kind == "public_field_definition" || n.kind == "field_definition" then
    match (n.field? "value").filter isFunctionValue with
    | some value =>
      match functionField? cx n value with
      | some m => members.addMethod m
      | none => members
    | none => members.addProperties (field? cx n).toList
  else members

def enumClass (cx : Context) (n : Node) (name : String) : ClassDecl where
  name := name
  kind := .enumeration
  properties := (bodyNodes n).filterMap (enumMember? cx)
  location := cx.location n
  modifiers := declarationModifiers cx n
  docComment := cx.doc n

def plainClass (cx : Context) (n : Node) (name : String) : ClassDecl :=
  let clauses := ((n.childOfKind? ["class_heritage"]).map Node.namedChildren).getD []
  let (superclass, implements) := clauses.foldl (addHeritage cx) (none, [])
  let members := (bodyNodes n).foldl (addMember cx) {}
  let modifiers :=
    (declarationModifiers cx n).insertIf (n.kind == "abstract_class_declaration") .abstract
  { name
    typeParams := cx.typeParameters n
    superclass
    implements
    methods := members.methods
    properties := members.properties
    constructor := members.constructor
    location := cx.location n
    modifiers
    docComment := cx.doc n
    isAbstract := modifiers.contains .abstract }

def classOf (cx : Context) (n : Node) : Option ClassDecl :=
  (cx.name? n).map fun name =>
    if n.kind == "enum_declaration" then enumClass cx n name else plainClass cx n name

def interfaceOf (cx : Context) (n : Node) : Option InterfaceDecl :=
  (cx.name? n).map fun name =>
    let parents := ((n.childOfKind? ["extends_type_clause"]).map Node.namedChildren).getD []
    let properties := (bodyNodes n).filter (·.kind == "property_signature")
    let methods := (bodyNodes n).filter (·.kind == "method_signature")
    { name
      typeParams := cx.typeParameters n
      parents := parents.map cx.text
      properties := properties.filterMap fun m =>
        (field? cx m).map fun p => { p with isReadonly := m.hasToken "readonly" }
      methods := methods.filterMap (method? cx)
      location := cx.location n
      modifiers := declarationModifiers cx n
      docComment := cx.doc n }

def typeAliasOf (cx : Context) (n : Node) : Option TypeAliasDecl :=
  (cx.name? n).map fun name => {
    name
    typeParams := cx.typeParameters n
    aliasedType := (cx.fieldText? n "value").getD ""
    location := cx.location n
    modifiers := declarationModifiers cx n
    docComment := cx.doc n }

def variablesOf (cx : Context) (n : Node) : List VariableDecl :=
  let kind := variableKind cx n
  let isOther := fun v : Node => isFunctionValue v || (requiredModule? cx v).isSome
  ((declarators n).filter fun d => !(d.field? "value").any isOther).flatMap fun d =>
    (boundNames cx d).map fun name => {
      name
      kind
      type := (d.field? "type").map fun t => Text.cleanType (cx.text t)
      initializer := (d.field? "value").map cx.text
      location := cx.location n
      modifiers := (declarationModifiers cx n).insertIf (kind == .constant) .const
      docComment := cx.doc n }

def requireImport? (cx : Context) (n declarator : Node) : Option ImportDecl := do
  let source ← (declarator.field? "value").bind (requiredModule? cx)
  let name ← declarator.field? "name"
  let specifiers : List ImportSpecifier :=
    if name.kind == "identifier" then
      [{ localName := cx.text name, imported := "default", kind := .default }]
    else (boundNames cx declarator).map fun bound =>
      { localName := bound, imported := bound, kind := .named }
  return { source, specifiers, location := cx.location n }

def clauseSpecifiers (cx : Context) (part : Node) : List ImportSpecifier :=
  if part.kind == "identifier" then
    [{ localName := cx.text part, imported := "default", kind := .default }]
  else if part.kind == "namespace_import" then
    match part.namedChildren.head? with
    | some name => [{ localName := cx.text name, imported := "*", kind := .wholeModule }]
    | none => []
  else if part.kind == "named_imports" then
    (part.namedChildren.filter (·.kind == "import_specifier")).filterMap fun s =>
      (cx.fieldText? s "name").map fun imported =>
        { localName := (cx.fieldText? s "alias").getD imported, imported, kind := .named }
  else []

def importsOf (cx : Context) (n : Node) : List ImportDecl :=
  if n.kind == "import_statement" then
    match n.field? "source" with
    | none => []
    | some source =>
      let clause := n.childOfKind? ["import_clause"]
      [{ source := Text.unquote (cx.text source)
         specifiers := ((clause.map Node.namedChildren).getD []).flatMap (clauseSpecifiers cx)
         isTypeOnly := n.hasToken "type"
         isSideEffect := clause.isNone
         location := cx.location n }]
  else (declarators n).filterMap (requireImport? cx n)

def exportsOf (cx : Context) (n : Node) : List ExportDecl :=
  let source := (n.field? "source").map fun s => Text.unquote (cx.text s)
  let isTypeOnly := n.hasToken "type"
  let make := fun (name : String) (localName : Option String) (kind : ExportKind)
      (isTypeOnly : Bool) =>
    { name, localName, kind, source, isTypeOnly, location := cx.location n : ExportDecl }
  if n.hasToken "default" then
    let declared := (n.field? "declaration").bind cx.name?
    let value := ((n.field? "value").filter (·.kind == "identifier")).map cx.text
    [make "default" (declared.or value) .default false]
  else
    match n.field? "declaration" with
    | some decl =>
      let names :=
        if isBindingList decl then (declarators decl).flatMap (boundNames cx)
        else (cx.name? decl).toList
      names.map fun name => make name none .named
        (decl.kind == "interface_declaration" || decl.kind == "type_alias_declaration")
    | none =>
      match n.childOfKind? ["export_clause"] with
      | some clause =>
        let kind : ExportKind := if source.isSome then .reExport else .named
        (clause.namedChildren.filter (·.kind == "export_specifier")).filterMap fun s =>
          (cx.fieldText? s "name").map fun localName =>
            match cx.fieldText? s "alias" with
            | some asName => make (Text.unquote asName) (some localName) kind isTypeOnly
            | none => make (Text.unquote localName) none kind isTypeOnly
      | none =>
        match n.childOfKind? ["namespace_export"] with
        | some space =>
          let name := (space.namedChildren.head?.map cx.text).getD "*"
          [make name none .wholeModule isTypeOnly]
        | none => if source.isSome then [make "*" none .reExport isTypeOnly] else []

def rules : Rules where
  kinds := .typescript
  functionOf := functionOf
  classOf := classOf
  interfaceOf := interfaceOf
  typeAliasOf := typeAliasOf
  variablesOf := variablesOf
  importsOf := importsOf
  functions cx root :=
    (root.moduleLevel NodeKinds.typescript.functions NodeKinds.typescript.wrappers).flatMap
      (functionsOf cx)
  exports cx root := (root.moduleLevel ["export_statement"] []).flatMap (exportsOf cx)

end CodeEntities.TypeScript
