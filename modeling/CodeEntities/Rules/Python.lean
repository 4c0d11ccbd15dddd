import CodeEntities.Rules.Basic
import CodeEntities.Rules.Members

namespace CodeEntities.Python

def isConstantName (name : String) : Bool :=
  name.toList.any Char.isAlpha &&
    name.toList.all fun c => c.isUpper || c.isDigit || c == '_'

def decorated (n : Node) : Node := (n.parent?.filter (·.kind == "decorated_definition")).getD n

def decorators (cx : Context) (n : Node) : List String :=
  match n.parent?.filter (·.kind == "decorated_definition") with
  | some p => (p.namedChildren.filter (·.kind == "decorator")).map fun d =>
      Text.trim (Text.dropStartWhile (· == '@') (cx.text d))
  | none => []

def definition (n : Node) : Node :=
  if n.kind == "decorated_definition" then (n.field? "definition").getD n else n

def bodyDoc (cx : Context) (n : Node) : Option String :=
  if cx.options.docComments then
    ((n.field? "body").bind (Node.docstring cx.source)).or (cx.doc n)
  else none

def assignedNames (cx : Context) (left : Node) : List String :=
  if left.kind == "identifier" then [cx.text left]
  else if ["pattern_list", "tuple_pattern", "list_pattern"].contains left.kind then
    (left.descendantsOfKind ["identifier"] ["attribute", "subscript"]).map cx.text
  else []

def assignment? (statement : Node) : Option Node :=
  statement.namedChildren.head?.filter (·.kind == "assignment")

def callable (cx : Context) (n : Node) : Callable :=
  { cx.callable n with doc := bodyDoc cx n }

def functionOf (cx : Context) (n : Node) : Option FunctionDecl :=
  (cx.name? n).map fun name => cx.function (decorated n) name (callable cx n)

def passedParameters (isStaticMethod : Bool) (params : List Parameter) : List Parameter :=
  match params with
  | p :: rest => if !isStaticMethod && (p.name == "self" || p.name == "cls") then rest else params
  | [] => []

def member? (cx : Context) (n : Node) : Option MethodDecl :=
  (cx.name? n).map fun name =>
    let marks := decorators cx n
    let parts := callable cx n
    let modifiers := parts.modifiers
      |>.insertIf (marks.contains "staticmethod" || marks.contains "classmethod") .static
      |>.insertIf (marks.any fun d => Text.endsWith d "abstractmethod") .abstract
      |>.insertIf (marks.contains "override" || marks.contains "typing.override") .override
    let f := cx.function (decorated n) name { parts with
      params := passedParameters (marks.contains "staticmethod") parts.params
      modifiers }
    { MethodDecl.ofFunction f (underscoreVisibility name) with
      isGetter := marks.contains "property" || marks.any fun d => Text.endsWith d ".getter"
      isSetter := marks.any fun d => Text.endsWith d ".setter" }

def classAttributes (cx : Context) (statement : Node) : List PropertyDecl :=
  match assignment? statement with
  | none => []
  | some assign =>
    match assign.field? "left" with
    | none => []
    | some left => (assignedNames cx left).map fun name =>
        { cx.property statement name (cx.fieldText? assign "type") (underscoreVisibility name) with
          isStatic := true
          initializer := cx.fieldText? assign "right" }

def selfAttribute? (cx : Context) (assign : Node) : Option String := do
  let left ← (assign.field? "left").filter (·.kind == "attribute")
  let name ← left.field? "attribute"
  if (left.field? "object").map cx.text == some "self" then some (cx.text name) else none

def instanceAttributes (cx : Context) (init : Node) (known : List PropertyDecl) :
    List PropertyDecl :=
  let assigns := match init.field? "body" with
    | some body =>
      body.descendantsOfKind ["assignment"] ["function_definition", "class_definition", "lambda"]
    | none => []
  assigns.foldl (fun properties assign =>
    match selfAttribute? cx assign with
    | some name =>
      if properties.any (·.name == name) then properties
      else properties ++ [
        { cx.property assign name (cx.fieldText? assign "type") (underscoreVisibility name) with
          initializer := cx.fieldText? assign "right" }]
    | none => properties) known

def addMember (cx : Context) (members : Members) (n : Node) : Members :=
  if n.kind == "function_definition" || n.kind == "decorated_definition" then
    let inner := definition n
    if inner.kind == "function_definition" then
      match member? cx inner with
      | some m =>
        if m.name == "__init__" && members.constructor.isNone then
          { members with
            constructor := some m
            properties := instanceAttributes cx inner members.properties }
        else members.addMethod m
      | none => members
    else members
  else if n.kind == "expression_statement" then members.addProperties (classAttributes cx n)
  else members

-- An abstract base is named in the bases or as the metaclass.
def isAbstractBase (cx : Context) (arg : Node) : Bool :=
  if arg.kind == "keyword_argument" then
    match cx.fieldText? arg "value" with
    | some v => Text.endsWith v "ABCMeta"
    | none => false
  else cx.text arg == "ABC" || cx.text arg == "abc.ABC"

def classOf (cx : Context) (n : Node) : Option ClassDecl :=
  (cx.name? n).map fun name =>
    let arguments := ((n.field? "superclasses").map Node.namedChildren).getD []
    let bases := (arguments.filter (·.kind != "keyword_argument")).map cx.text
    let members := (((n.field? "body").map Node.namedChildren).getD []).foldl (addMember cx) {}
    let isAbstract := arguments.any (isAbstractBase cx) || members.methods.any (·.isAbstract)
    { name
      typeParams := cx.typeParameters n
      superclass := bases.head?
      implements := bases.tail
      methods := members.methods
      properties := members.properties
      constructor := members.constructor
      location := cx.location (decorated n)
      modifiers := Modifiers.empty.insertIf isAbstract .abstract
      docComment := bodyDoc cx n
      isAbstract }

def typeAliasOf (cx : Context) (n : Node) : Option TypeAliasDecl :=
  (n.field? "left").map fun left => {
    name := (cx.name? left).getD (cx.text left)
    typeParams := cx.typeParameters left
    aliasedType := (cx.fieldText? n "right").getD ""
    location := cx.location n
    docComment := cx.doc n }

def variablesOf (cx : Context) (n : Node) : List VariableDecl :=
  match assignment? n with
  | none => []
  | some assign =>
    match assign.field? "left" with
    | none => []
    | some left => (assignedNames cx left).map fun name => {
        name
        kind := if isConstantName name then .constant else .mutable
        type := cx.fieldText? assign "type"
        initializer := cx.fieldText? assign "right"
        location := cx.location n
        modifiers := Modifiers.empty.insertIf (isConstantName name) .const
        docComment := cx.doc n }

def importedName? (cx : Context) (n : Node) : Option (String × Option String) :=
  if n.kind == "aliased_import" then
    (cx.fieldText? n "name").map fun name => (name, cx.fieldText? n "alias")
  else some (cx.trimmed n, none)

def importsOf (cx : Context) (n : Node) : List ImportDecl :=
  let names := (n.childrenByField "name").filterMap (importedName? cx)
  if n.kind == "import_statement" then
    names.map fun (name, asName) => {
      source := name
      specifiers := [{ localName := asName.getD name, imported := name, kind := .wholeModule }]
      location := cx.location n }
  else
    match cx.fieldText? n "module_name" with
    | none => []
    | some source =>
      let named := names.map fun (name, asName) =>
        { localName := asName.getD name, imported := name, kind := .named : ImportSpecifier }
      let wildcard : List ImportSpecifier :=
        if n.namedChildren.any (·.kind == "wildcard_import") then
          [{ localName := "*", imported := "*", kind := .wholeModule }]
        else []
      [{ source
         specifiers := named ++ wildcard
         location := cx.location n }]

def exports (cx : Context) (root : Node) : List ExportDecl :=
  (root.moduleLevel ["expression_statement"] []).flatMap fun statement =>
    match assignment? statement with
    | none => []
    | some assign =>
      if cx.fieldText? assign "left" == some "__all__" then
        (((assign.field? "right").map Node.namedChildren).getD []).filter (·.kind == "string")
          |>.map fun item => {
            name := Text.unquote (cx.text item)
            kind := .named
            location := cx.location item }
      else []

def rules : Rules where
  kinds := .python
  functionOf := functionOf
  classOf := classOf
  typeAliasOf := typeAliasOf
  variablesOf := variablesOf
  importsOf := importsOf
  exports := exports

end CodeEntities.Python
