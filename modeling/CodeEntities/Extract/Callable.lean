import CodeEntities.Extract.Context

namespace CodeEntities

-- The parts of a callable that differ between languages. `doc` takes the place
-- of the comment before the declaration.
structure Callable where
  params : List Parameter := []
  returnType : Option String := none
  typeParams : List String := []
  modifiers : Modifiers := .empty
  doc : Option String := none
  deriving Repr, Inhabited

namespace Parameter

def render (p : Parameter) : String :=
  (if p.isRest then "..." else "") ++ p.name ++ (if p.isOptional then "?" else "") ++
    (match p.type with
    | some t => ": " ++ t
    | none => "")

end Parameter

namespace Callable

def signature (name : String) (c : Callable) : String :=
  (if c.modifiers.contains .async then "async " else "") ++ name ++
    (if c.typeParams.isEmpty then "" else "<" ++ Text.join ", " c.typeParams ++ ">") ++
    "(" ++ Text.join ", " (c.params.map (·.render)) ++ ")" ++
    (match c.returnType with
    | some t => ": " ++ t
    | none => "")

end Callable

def restKinds : List String := [
  "rest_pattern", "rest_parameter", "list_splat_pattern", "dictionary_splat_pattern",
  "variadic_parameter", "variadic_parameter_declaration", "splat_parameter",
  "hash_splat_parameter", "spread_parameter"]

namespace Context

def isNoParameter (n : Node) : Bool :=
  ["self_parameter", "keyword_separator", "positional_separator", "comment",
    "attribute_list"].contains n.kind

def isRestParameter (n : Node) (text : String) : Bool :=
  restKinds.contains n.kind || (n.findDescendant? restKinds).isSome ||
    ["...", "params ", "vararg ", "*"].any (Text.startsWith text)

def parameterType? (cx : Context) (n : Node) : Option String :=
  let isType := fun c : Node =>
    ["type_annotation", "user_type", "nullable_type", "type"].contains c.kind
  (((n.field? "type").or (n.namedChildren.find? isType)).map fun t => Text.cleanType (cx.text t))
    |>.filter (! ·.isEmpty)

def parameterDefault? (cx : Context) (n : Node) : Option String :=
  (["value", "default_value", "default"].findSome? (cx.fieldText? n)).or
    ((n.childOfKind? ["equals_value_clause"]).map fun c => Text.cleanType (cx.text c))

def innerName? (n : Node) : Option Node :=
  let typeNode := n.field? "type"
  let visit := fun m : Node =>
    if (typeNode.any m.isSame) || Text.endsWith m.kind "type" || m.kind == "type_annotation" then
      Node.Visit.pass
    else if !m.isSame n && m.isIdentifier && m.kind != "type_identifier" then .report
    else .enter
  (n.collect visit).head?

def parameterNameNode? (n : Node) : Option Node :=
  if n.isIdentifier || ["object_pattern", "array_pattern", "tuple_pattern"].contains n.kind then
    some n
  else innerName? n

def parameter (cx : Context) (n : Node) : List Parameter :=
  if isNoParameter n then []
  else
    let text := cx.trimmed n
    let defaultValue := cx.parameterDefault? n
    let marked := Text.endsWith (Text.trimEnd (Text.before text ":")) "?"
    let names := n.childrenByField "name"
    let nameNodes :=
      if names.length > 1 then names
      else [((names.head?.or (n.field? "pattern")).or (n.field? "declarator")).getD n]
    nameNodes.filterMap fun m =>
      (parameterNameNode? m).bind fun inner =>
        let name := Text.trim (Text.dropStartWhile [ '.', '*', '&' ].contains (cx.text inner))
        if name.isEmpty then none
        else some {
          name
          type := cx.parameterType? n
          isOptional := n.kind == "optional_parameter" || defaultValue.isSome || marked
          isRest := isRestParameter n text
          defaultValue }

-- Parameters of a list. A `params` token stands before the type and the name of
-- a parameter without a node of its own.
def parametersFrom (cx : Context) : List Node → List Parameter
  | [] => []
  | c :: rest =>
    if !c.isNamed && c.kind == "params" then
      match rest with
      | type :: name :: rest =>
        { name := cx.trimmed name
          type := some (Text.cleanType (cx.text type))
          isRest := true } :: cx.parametersFrom rest
      | _ => []
    else if c.isNamed && !c.isComment then cx.parameter c ++ cx.parametersFrom rest
    else cx.parametersFrom rest

def parameters (cx : Context) (list : Node) : List Parameter := cx.parametersFrom list.children

def parameterList? (n : Node) : Option Node :=
  (n.field? "parameters").or (n.childOfKind? [
    "formal_parameters", "parameters", "parameter_list", "function_value_parameters",
    "method_parameters", "lambda_parameters"])

def parametersOf (cx : Context) (n : Node) : List Parameter :=
  match parameterList? n with
  | some list => cx.parameters list
  | none => []

def typeParameter? (cx : Context) (p : Node) : Option String :=
  let named :=
    match p.field? "name" with
    | some name => name
    | none =>
      if p.kind == "lifetime" || p.isIdentifier then p
      else (p.findDescendant? ["type_identifier", "identifier", "lifetime"]).getD p
  Text.nonBlank? (cx.text named)

def typeParameters (cx : Context) (n : Node) : List String :=
  let list := (n.field? "type_parameters").or (n.childOfKind? [
    "type_parameters", "type_parameter_list", "type_parameter_clause", "template_parameter_list"])
  match list with
  | some list => list.namedChildren.filterMap cx.typeParameter?
  | none => []

def callable (cx : Context) (n : Node) : Callable where
  params := cx.parametersOf n
  returnType :=
    ((n.firstField? ["return_type", "result", "returns"]).map fun t => Text.cleanType (cx.text t))
      |>.filter (! ·.isEmpty)
  typeParams := cx.typeParameters n
  modifiers := cx.modifiers n

def function (cx : Context) (n : Node) (name : String) (c : Callable) : FunctionDecl where
  name := name
  params := c.params
  returnType := c.returnType
  typeParams := c.typeParams
  body := cx.body n
  location := cx.location n
  modifiers := c.modifiers
  docComment := if cx.options.docComments then c.doc.or (cx.doc n) else none
  signature := c.signature name
  complexity := cx.complexity n

def property (cx : Context) (n : Node) (name : String) (type : Option String)
    (default : Visibility) : PropertyDecl :=
  let modifiers := cx.modifiers n
  { name
    type
    visibility := .ofModifiers modifiers default
    isStatic := modifiers.contains .static
    isReadonly :=
      modifiers.contains .readonly || modifiers.contains .const || modifiers.contains .final
    location := cx.location n
    docComment := cx.doc n }

end Context

-- Python's convention: a leading underscore makes a name private, unless it has
-- two underscores on both sides.
def underscoreVisibility (name : String) : Visibility :=
  if Text.startsWith name "__" && Text.endsWith name "__" && name.length > 4 then .isPublic
  else if Text.startsWith name "_" then .isPrivate
  else .isPublic

end CodeEntities
