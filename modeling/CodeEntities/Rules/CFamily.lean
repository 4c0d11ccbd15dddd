import CodeEntities.Rules.Basic
import CodeEntities.Rules.Members

namespace CodeEntities.CFamily

def specifierKinds : List String := [
  "struct_specifier", "class_specifier", "union_specifier", "enum_specifier"]

-- What a chain of declarators ends in: the declared name, the class that
-- qualifies it, the innermost function declarator and the number of pointers.
structure Declarator where
  name : String
  qualifier : Option String := none
  function : Option Node := none
  pointers : Nat := 0

def inner? (n : Node) : Option Node :=
  (n.field? "declarator").or (n.namedChildren.find? (·.kind != "attribute_declaration"))

theorem size_inner {n m : Node} (h : inner? n = some m) : m.size < n.size := by
  unfold inner? at h
  rcases Option.or_eq_some_iff.mp h with found | ⟨_, found⟩
  · exact Node.size_field found
  · exact Node.size_child (List.mem_filter.mp (List.mem_of_find?_eq_some found)).1

def isPlainName (n : Node) : Bool :=
  ["identifier", "field_identifier", "type_identifier", "destructor_name",
    "operator_name"].contains n.kind

def resolveFrom (cx : Context) (function : Option Node) (pointers : Nat) (n : Node) :
    Option Declarator :=
  if n.kind == "qualified_identifier" then
    match _found : n.field? "name" with
    | none => none
    | some name =>
      if name.kind == "qualified_identifier" then resolveFrom cx function pointers name
      else (Text.nonBlank? (cx.text name)).map fun text =>
        { name := text
          qualifier := (n.field? "scope").map fun s => Text.afterLast (cx.text s) "::"
          function
          pointers }
  else if isPlainName n then
    (Text.nonBlank? (cx.text n)).map fun text => { name := text, function, pointers }
  else
    let function := if n.kind == "function_declarator" then some n else function
    let isPointer := n.kind == "pointer_declarator" || n.kind == "reference_declarator"
    match _found : inner? n with
    | some m => resolveFrom cx function (if isPointer then pointers + 1 else pointers) m
    | none => none
termination_by n.size
decreasing_by
  · exact Node.size_field (by assumption)
  · exact size_inner (by assumption)

def resolve (cx : Context) (n : Node) : Option Declarator := resolveFrom cx none 0 n

def declarators (cx : Context) (n : Node) : List (Declarator × Node) :=
  (n.childrenByField "declarator").filterMap fun d => (resolve cx d).map fun r => (r, d)

def pointerType (type : String) (d : Declarator) : String :=
  type ++ String.ofList (List.replicate d.pointers '*')

def accessKeyword? (cx : Context) (n : Node) : Option Visibility :=
  let word := Text.trim (Text.dropEndWhile (· == ':') (cx.trimmed n))
  if word == "public" then some .isPublic
  else if word == "private" then some .isPrivate
  else if word == "protected" then some .isProtected
  else none

def bodiedSpecifier? (n : Node) : Option Node :=
  let specifier :=
    if specifierKinds.contains n.kind then some n
    else (n.field? "type").filter fun t => specifierKinds.contains t.kind
  specifier.filter fun s => (s.field? "body").isSome

def template? (n : Node) : Option Node := n.parent?.filter (·.kind == "template_declaration")

def templateParameters (cx : Context) (n : Node) : List String :=
  ((template? n).map cx.typeParameters).getD []

def callable (cx : Context) (n : Node) (d : Declarator) : Callable where
  params := match d.function.bind (·.field? "parameters") with
    | some list => cx.parameters list
    | none => []
  returnType := (cx.fieldText? n "type").map fun t => pointerType t d
  typeParams := templateParameters cx n
  modifiers := match d.function with
    | some f => (cx.modifiers n).union (cx.modifiers f)
    | none => cx.modifiers n

-- A function definition of the module with the class that qualifies its name. Without a class it
-- has external linkage unless it is static.
def topLevelFunction? (cx : Context) (n : Node) : Option (FunctionDecl × Option String) := do
  let d ← (n.field? "declarator").bind (resolve cx)
  let parts := callable cx n d
  let isLinked := d.qualifier.isNone && !parts.modifiers.contains .static
  let f := cx.function ((template? n).getD n) d.name
    { parts with modifiers := parts.modifiers.insertIf isLinked .exported }
  return (f, d.qualifier)

def memberMethod (cx : Context) (n : Node) (d : Declarator) (visibility : Visibility) :
    MethodDecl :=
  let parts := callable cx n d
  let text := Text.trimEnd (Text.dropEndWhile (· == ';') (cx.text n))
  let isPure := Text.endsWith text "= 0" || Text.endsWith text "=0"
  .ofFunction (cx.function n d.name
    { parts with modifiers := parts.modifiers.insertIf isPure .abstract }) visibility

theorem size_last {n m : Node} (h : n.namedChildren.getLast? = some m) : m.size < n.size :=
  Node.size_child (List.mem_filter.mp (List.mem_of_getLast? h)).1

structure Section where
  access : Visibility
  members : Members := {}

def addDeclarator (cx : Context) (className : String) (n : Node) (access : Visibility)
    (members : Members) (entry : Declarator × Node) : Members :=
  let (d, node) := entry
  if d.function.isSome then
    let m := memberMethod cx n d access
    if m.name == className then members.addConstructor m else members.addMethod m
  else
    let type := (cx.fieldText? n "type").map fun t => pointerType t d
    members.addProperties [
      { cx.property n d.name type access with
        initializer := (cx.fieldText? n "default_value").or (cx.fieldText? node "value") }]

def addMember (cx : Context) (className : String) (s : Section) (n : Node) : Section :=
  if n.kind == "access_specifier" then { s with access := (accessKeyword? cx n).getD s.access }
  else if ["function_definition", "field_declaration", "declaration"].contains n.kind then
    { s with
      members := (declarators cx n).foldl (addDeclarator cx className n s.access) s.members }
  else if n.kind == "enumerator" then
    match cx.fieldText? n "name" with
    | some name =>
      { s with members := s.members.addProperties [
        { cx.property n name none .isPublic with
          isStatic := true
          isReadonly := true
          initializer := cx.fieldText? n "value" }] }
    | none => s
  else s

-- Reads the members of a queue; a template puts the declaration inside of it in its place.
def readQueue (cx : Context) (className : String) (s : Section) : List Node → Section
  | [] => s
  | n :: queue =>
    if n.kind == "template_declaration" then
      match _found : n.namedChildren.getLast? with
      | some m => readQueue cx className s (m :: queue)
      | none => readQueue cx className s queue
    else readQueue cx className (addMember cx className s n) queue
termination_by queue => Node.stackSize queue
decreasing_by
  · exact Nat.add_lt_add_right (size_last (by assumption)) _
  · exact Node.stackSize_pop n queue
  · exact Node.stackSize_pop n queue

def members (cx : Context) (className : String) (body : Node) (default : Visibility) : Members :=
  (readQueue cx className ⟨default, {}⟩ body.namedChildren).members

def classKind (spec : Node) : ClassKind :=
  if spec.kind == "class_specifier" then .plain
  else if spec.kind == "enum_specifier" then .enumeration
  else .struct

-- The members of a class are private until a section says otherwise.
def defaultAccess (spec : Node) : Visibility :=
  if spec.kind == "class_specifier" then .isPrivate else .isPublic

def bases (cx : Context) (spec : Node) : List String :=
  match spec.childOfKind? ["base_class_clause"] with
  | some clause =>
    (clause.namedChildren.filter fun b =>
      b.kind != "access_specifier" && b.kind != "virtual").map cx.text
  | none => []

def classDecl (cx : Context) (spec : Node) (name : String) (whole : Node) : ClassDecl :=
  let found := match spec.field? "body" with
    | some body => members cx name body (defaultAccess spec)
    | none => {}
  let isAbstract := found.methods.any (·.isAbstract)
  { name
    kind := classKind spec
    typeParams := templateParameters cx whole
    superclass := (bases cx spec).head?
    implements := (bases cx spec).tail
    methods := found.methods
    properties := found.properties
    constructor := found.constructor
    location := cx.location whole
    modifiers := (cx.modifiers whole).insertIf isAbstract .abstract
    docComment := cx.doc whole
    isAbstract }

def class? (cx : Context) (n : Node) : Option ClassDecl :=
  (bodiedSpecifier? n).bind fun spec =>
    let given :=
      if n.kind == "type_definition" then (declarators cx n).head?.map (·.1.name) else none
    (given.or (cx.fieldText? spec "name")).map fun name => classDecl cx spec name n

-- Puts a definition in the place of the first method of its name, whose
-- visibility stays; none if there is no such method.
def replaceMethod (m : MethodDecl) : List MethodDecl → Option (List MethodDecl)
  | [] => none
  | d :: rest =>
    if d.name == m.name then some ({ m with visibility := d.visibility } :: rest)
    else (replaceMethod m rest).map (d :: ·)

def define (c : ClassDecl) (m : MethodDecl) : ClassDecl :=
  match replaceMethod m c.methods with
  | some methods => { c with methods }
  | none =>
    if m.name == c.name then { c with constructor := some m }
    else { c with methods := c.methods ++ [m] }

def attach (classes : List ClassDecl) (owner : String) (m : MethodDecl) : List ClassDecl :=
  match classes with
  | [] => [{ name := owner, kind := .extension, methods := [m], location := m.function.location }]
  | c :: rest => if c.name == owner then define c m :: rest else c :: attach rest owner m

def functions (cx : Context) (kinds : NodeKinds) (root : Node) : List FunctionDecl :=
  (root.moduleLevel kinds.functions kinds.wrappers).filterMap fun n =>
    ((topLevelFunction? cx n).filter (·.2.isNone)).map (·.1)

def classes (cx : Context) (kinds : NodeKinds) (root : Node) : List ClassDecl :=
  let declared := (root.moduleLevel kinds.classes kinds.wrappers).filterMap (class? cx)
  (root.moduleLevel kinds.functions kinds.wrappers).foldl (fun found n =>
    match topLevelFunction? cx n with
    | some (f, some owner) => attach found owner (.ofFunction f .isPublic)
    | _ => found) declared

def aliases (cx : Context) (n : Node) : List TypeAliasDecl :=
  let target := (cx.fieldText? n "type").getD ""
  if n.kind == "alias_declaration" then
    match cx.fieldText? n "name" with
    | some name => [{
        name
        aliasedType := target
        location := cx.location n
        docComment := cx.doc n }]
    | none => []
  else if (bodiedSpecifier? n).isSome then []
  else (declarators cx n).map fun (d, _) => {
    name := d.name
    aliasedType := pointerType target d
    location := cx.location n
    docComment := cx.doc n }

def variablesOf (cx : Context) (n : Node) : List VariableDecl :=
  let modifiers := cx.modifiers n
  let kind : VariableKind :=
    if modifiers.contains .static then .static
    else if modifiers.contains .const then .constant
    else .mutable
  let isExtern := n.namedChildren.any fun c =>
    c.kind == "storage_class_specifier" && cx.text c == "extern"
  ((declarators cx n).filter (·.1.function.isNone)).map fun (d, node) => {
    name := d.name
    kind
    type := (cx.fieldText? n "type").map fun t => pointerType t d
    initializer := cx.fieldText? node "value"
    location := cx.location n
    modifiers := modifiers.insertIf (kind != .static && !isExtern) .exported
    docComment := cx.doc n }

def importsOf (cx : Context) (n : Node) : List ImportDecl :=
  if n.kind == "preproc_include" then
    match cx.fieldText? n "path" with
    | some path => [{
        source :=
          Text.unquote (Text.dropEndWhile (· == '>') (Text.dropStartWhile (· == '<') path))
        isSideEffect := true
        location := cx.location n }]
    | none => []
  else
    let text := Text.trim (Text.dropEndWhile (· == ';') (Text.dropPrefixes (cx.text n) "using"))
    match Text.dropPrefix? text "namespace" with
    | some space => [{
        source := Text.trim space
        specifiers := [{ localName := "*", imported := "*", kind := .wholeModule }]
        location := cx.location n }]
    | none =>
      let (qualifier, member) := (Text.cutLast? text "::").getD ("", text)
      [{ source := qualifier
         specifiers := [{ localName := member, imported := member, kind := .named }]
         location := cx.location n }]

def rules (table : NodeKinds) : Rules where
  kinds := table
  functions cx root := functions cx table root
  classes cx root := classes cx table root
  typeAliases cx root := (root.moduleLevel table.typeAliases table.wrappers).flatMap (aliases cx)
  variablesOf := variablesOf
  importsOf := importsOf

end CodeEntities.CFamily
