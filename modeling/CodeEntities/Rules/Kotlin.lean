import CodeEntities.Rules.Basic
import CodeEntities.Rules.Members
import CodeEntities.Rules.Qualified

namespace CodeEntities.Kotlin

def typeKinds : List String := [
  "user_type", "nullable_type", "function_type", "parenthesized_type", "type"]

-- Interfaces share their node kind with classes and differ by a keyword.
def isInterface (n : Node) : Bool := n.kind == "class_declaration" && n.hasToken "interface"

def modifierWords (cx : Context) (n : Node) : List String :=
  match n.childOfKind? ["modifiers"] with
  | some m => Text.words (cx.text m)
  | none => []

def visibility (cx : Context) (n : Node) : Visibility :=
  let words := modifierWords cx n
  if words.contains "private" then .isPrivate
  else if words.contains "protected" then .isProtected
  else if words.contains "internal" then .internal
  else .isPublic

def declarationModifiers (cx : Context) (n : Node) : Modifiers :=
  (cx.modifiers n).insertIf (visibility cx n == .isPublic) .exported

def typeFrom? (cx : Context) (n : Node) (start : Nat) : Option String :=
  (n.namedChildren.find? fun c => c.label.start ≥ start && typeKinds.contains c.kind).map cx.trimmed

def binding? (cx : Context) (n : Node) : Option (String × Option String) :=
  let decl := (n.childOfKind? ["variable_declaration"]).getD n
  (decl.namedChildren.find? fun c => c.kind == "identifier" || c.kind == "simple_identifier").map
    fun name => (cx.text name, typeFrom? cx decl 0)

def isVal (cx : Context) (n : Node) : Bool :=
  n.children.any fun c => c.kind == "val" || (c.kind == "binding_pattern_kind" && cx.text c == "val")

def replaceLast (f : Parameter → Parameter) (params : List Parameter) : List Parameter :=
  match params.reverse with
  | last :: rest => (f last :: rest).reverse
  | [] => []

-- A parameter list as far as it is read: the parameters, whether a `vararg`
-- modifier waits for its parameter, and whether a default value follows.
structure ParameterScan where
  params : List Parameter := []
  isRest : Bool := false
  awaitsDefault : Bool := false

def scanParameter (cx : Context) (s : ParameterScan) (c : Node) : ParameterScan :=
  if c.kind == "parameter_modifiers" || c.kind == "parameter_modifier" then
    { s with isRest := s.isRest || Text.contains (cx.text c) "vararg" }
  else if c.kind == "parameter" || c.kind == "class_parameter" then
    let found := (cx.parameter c).map fun p =>
      let defaultValue := p.defaultValue.or (cx.afterEquals? c)
      { p with
        isRest := p.isRest || s.isRest
        isOptional := p.isOptional || (p.defaultValue.isNone && defaultValue.isSome)
        defaultValue }
    { s with params := s.params ++ found, isRest := false }
  else if c.kind == "=" then { s with awaitsDefault := true }
  else if s.awaitsDefault && c.isNamed then
    { s with
      params := replaceLast
        (fun p => { p with defaultValue := some (cx.trimmed c), isOptional := true }) s.params
      awaitsDefault := false }
  else s

def parameters (cx : Context) (list : Node) : List Parameter :=
  (list.children.foldl (scanParameter cx) {}).params

def callable (cx : Context) (n : Node) : Callable where
  params := ((Context.parameterList? n).map (parameters cx)).getD []
  returnType := typeFrom? cx n (((Context.parameterList? n).map (·.label.stop)).getD 0)
  typeParams := cx.typeParameters n
  modifiers := declarationModifiers cx n

def functionOf (cx : Context) (n : Node) : Option FunctionDecl :=
  (cx.name? n).map fun name => cx.function n name (callable cx n)

-- A method without a body is abstract.
def method? (cx : Context) (isStatic : Bool) (n : Node) : Option MethodDecl :=
  (cx.name? n).map fun name =>
    let parts := callable cx n
    let m := MethodDecl.ofFunction (cx.function n name
      { parts with modifiers := parts.modifiers.insertIf isStatic .static }) (visibility cx n)
    { m with isAbstract := m.isAbstract || (n.childOfKind? ["function_body"]).isNone }

def property? (cx : Context) (isStatic : Bool) (n : Node) : Option PropertyDecl :=
  (binding? cx n).map fun (name, type) =>
    let property := cx.property n name type (visibility cx n)
    { property with
      isStatic := property.isStatic || isStatic
      isReadonly := property.isReadonly || isVal cx n
      initializer := cx.afterEquals? n }

-- The members of a body in order, each with whether it is static: those of a
-- companion object are, and stand in its place.
def memberNodes (isStatic : Bool) (body : Node) : List (Node × Bool) :=
  body.namedChildren.attach.flatMap fun ⟨m, _⟩ =>
    if m.kind == "companion_object" then
      match _found : m.classBody? with
      | some inner => memberNodes true inner
      | none => []
    else [(m, isStatic)]
termination_by body.size
decreasing_by
  exact Nat.lt_trans (Node.size_classBody (by assumption))
    (Node.size_child (List.mem_filter.mp (by assumption)).1)

def addMember (cx : Context) (members : Members) (entry : Node × Bool) : Members :=
  let (n, isStatic) := entry
  if n.kind == "function_declaration" then
    match method? cx isStatic n with
    | some m => members.addMethod m
    | none => members
  else if n.kind == "property_declaration" then
    members.addProperties (property? cx isStatic n).toList
  else if n.kind == "secondary_constructor" then
    let m := MethodDecl.ofFunction (cx.function n "constructor" (callable cx n)) (visibility cx n)
    { members with constructor := members.constructor.or (some m) }
  else if n.kind == "enum_entry" then
    match cx.name? n with
    | some name => members.addProperties [
        { cx.property n name none .isPublic with isStatic := true, isReadonly := true }]
    | none => members
  else members

def addBody (cx : Context) (n : Node) (isStatic : Bool) (members : Members) : Members :=
  match n.classBody? with
  | some body => (memberNodes isStatic body).foldl (addMember cx) members
  | none => members

def parameterProperty? (cx : Context) (param : Node) : Option PropertyDecl :=
  if param.children.any fun c => ["val", "var", "binding_pattern_kind"].contains c.kind then
    (cx.parameter param).head?.map fun p =>
      let property := cx.property param p.name p.type (visibility cx param)
      { property with
        isReadonly := property.isReadonly || isVal cx param
        initializer := p.defaultValue }
  else none

def primaryMembers (cx : Context) (n : Node) : Members :=
  match n.childOfKind? ["primary_constructor"] with
  | none => {}
  | some primary =>
    let list := (primary.childOfKind? ["class_parameters"]).getD primary
    let parts : Callable := { params := parameters cx list, modifiers := cx.modifiers primary }
    { properties := (list.namedChildren.filter (·.kind == "class_parameter")).filterMap
        (parameterProperty? cx)
      constructor := some (.ofFunction (cx.function primary "constructor" parts)
        (visibility cx primary)) }

def classKind (cx : Context) (n : Node) : ClassKind :=
  let words := modifierWords cx n
  if n.kind == "object_declaration" then .object
  else if words.contains "enum" then .enumeration
  else if words.contains "data" then .record
  else .plain

def addSupertype (cx : Context) (found : Option String × List String) (spec : Node) :
    Option String × List String :=
  let (superclass, implements) := found
  if spec.kind == "constructor_invocation" && superclass.isNone then
    (spec.namedChildren.head?.map cx.text, implements)
  else (superclass, implements ++ [cx.text spec])

def classOf (cx : Context) (n : Node) : Option ClassDecl :=
  if isInterface n then none
  else (cx.name? n).map fun name =>
    let specs := match n.childOfKind? ["delegation_specifiers"] with
      | some list =>
        list.descendantsOfKind ["constructor_invocation", "user_type", "explicit_delegation"] []
      | none => []
    let (superclass, implements) := specs.foldl (addSupertype cx) (none, [])
    let members := addBody cx n (classKind cx n == .object) (primaryMembers cx n)
    { name
      kind := classKind cx n
      typeParams := cx.typeParameters n
      superclass
      implements
      methods := members.methods
      properties := members.properties
      constructor := members.constructor
      location := cx.location n
      modifiers := declarationModifiers cx n
      docComment := cx.doc n
      isAbstract := (declarationModifiers cx n).contains .abstract }

def interfaceOf (cx : Context) (n : Node) : Option InterfaceDecl :=
  if isInterface n then
    (cx.name? n).map fun name =>
      let parents := ((n.childOfKind? ["delegation_specifiers"]).map Node.namedChildren).getD []
      let members := addBody cx n false {}
      { name
        typeParams := cx.typeParameters n
        parents := parents.map cx.trimmed
        properties := members.properties
        methods := members.methods
        location := cx.location n
        modifiers := declarationModifiers cx n
        docComment := cx.doc n }
  else none

def typeAliasOf (cx : Context) (n : Node) : Option TypeAliasDecl :=
  (cx.name? n).map fun name => {
    name
    typeParams := cx.typeParameters n
    aliasedType := ((Text.cut? (cx.text n) "=").map fun cut => Text.trim cut.2).getD ""
    location := cx.location n
    modifiers := declarationModifiers cx n
    docComment := cx.doc n }

def variablesOf (cx : Context) (n : Node) : List VariableDecl :=
  match binding? cx n with
  | none => []
  | some (name, type) =>
    let isConstant := (modifierWords cx n).contains "const" || isVal cx n
    [{ name
       kind := if isConstant then .constant else .mutable
       type
       initializer := cx.afterEquals? n
       location := cx.location n
       modifiers := (declarationModifiers cx n).insertIf isConstant .const
       docComment := cx.doc n }]

def importsOf (cx : Context) (n : Node) : List ImportDecl :=
  let text := Text.dropEndWhile (· == ';')
    (Text.trim (Text.dropPrefixes (cx.trimmed n) "import"))
  let (path, asName) :=
    match Text.cut? text " as " with
    | some (path, asName) => (Text.trim path, some (Text.trim asName))
    | none => (Text.trim text, none)
  if path.isEmpty then []
  else
    let decl := qualifiedImport cx n path
    [{ decl with specifiers := decl.specifiers.map fun s =>
        if s.kind == .named then { s with localName := asName.getD s.localName } else s }]

def rules : Rules where
  kinds := .kotlin
  functionOf := functionOf
  classOf := classOf
  interfaceOf := interfaceOf
  typeAliasOf := typeAliasOf
  variablesOf := variablesOf
  importsOf := importsOf

end CodeEntities.Kotlin
