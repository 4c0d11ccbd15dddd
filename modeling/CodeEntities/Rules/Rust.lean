import CodeEntities.Rules.Basic

namespace CodeEntities.Rust

-- `pub` is public, a restricted `pub` internal, no keyword private.
def visibility (cx : Context) (n : Node) : Visibility :=
  match n.childOfKind? ["visibility_modifier"] with
  | some v => if cx.trimmed v == "pub" then .isPublic else .internal
  | none => .isPrivate

def modifiers (cx : Context) (n : Node) : Modifiers :=
  (Modifiers.ofList ((cx.modifiers n).members.filter (· != .exported))).insertIf
    (visibility cx n == .isPublic) .exported

def functionOf (cx : Context) (n : Node) : Option FunctionDecl :=
  (cx.name? n).map fun name => cx.function n name { cx.callable n with modifiers := modifiers cx n }

def implType? (cx : Context) (n : Node) : Option String :=
  (n.field? "type").bind fun type =>
    let base := if type.kind == "generic_type" then (type.field? "type").getD type else type
    (Text.nonBlank? (cx.text base)).map fun text => Text.afterLast text "::"

def hasReceiver (n : Node) : Bool :=
  match Context.parameterList? n with
  | some list => list.namedChildren.any (·.kind == "self_parameter")
  | none => false

def implMethod? (cx : Context) (inTrait : Bool) (n : Node) : Option MethodDecl :=
  (cx.name? n).map fun name =>
    let marks := (modifiers cx n).insertIf (!hasReceiver n) .static
      |>.insertIf (n.kind == "function_signature_item") .abstract
    .ofFunction (cx.function n name { cx.callable n with modifiers := marks })
      (if inTrait then .isPublic else visibility cx n)

def bodyMethods (cx : Context) (n : Node) (inTrait : Bool) : List MethodDecl :=
  let members := ((n.field? "body").map Node.namedChildren).getD []
  (members.filter fun m => NodeKinds.rust.methods.contains m.kind).filterMap (implMethod? cx inTrait)

def fields (cx : Context) (n : Node) : List PropertyDecl :=
  match n.field? "body" with
  | none => []
  | some body =>
    if body.kind == "field_declaration_list" then
      (body.namedChildren.filter (·.kind == "field_declaration")).filterMap fun f =>
        (cx.fieldText? f "name").map fun name =>
          cx.property f name (cx.fieldText? f "type") (visibility cx f)
    else if body.kind == "ordered_field_declaration_list" then
      (body.childrenByField "type").zipIdx.map fun (type, i) =>
        cx.property type (toString i) (some (cx.text type)) (visibility cx body)
    else if body.kind == "enum_variant_list" then
      (body.namedChildren.filter (·.kind == "enum_variant")).filterMap fun v =>
        (cx.fieldText? v "name").map fun name =>
          { cx.property v name (cx.fieldText? v "body") .isPublic with
            isStatic := true
            isReadonly := true
            initializer := cx.fieldText? v "value" }
    else []

def typeClass? (cx : Context) (n : Node) : Option ClassDecl :=
  (cx.name? n).map fun name => {
    name
    kind := if n.kind == "enum_item" then .enumeration else .struct
    typeParams := cx.typeParameters n
    properties := fields cx n
    location := cx.location n
    modifiers := modifiers cx n
    docComment := cx.doc n }

structure ImplBlock where
  node : Node
  owner : String
  traitName : Option String
  methods : List MethodDecl

def implBlock? (cx : Context) (n : Node) : Option ImplBlock :=
  (implType? cx n).map fun owner =>
    let traitName := cx.fieldText? n "trait"
    { node := n, owner, traitName, methods := bodyMethods cx n traitName.isSome }

def extend (block : ImplBlock) (c : ClassDecl) : ClassDecl :=
  { c with
    methods := c.methods ++ block.methods
    implements := match block.traitName with
      | some t => if c.implements.contains t then c.implements else c.implements ++ [t]
      | none => c.implements }

def attach (cx : Context) (classes : List ClassDecl) (block : ImplBlock) : List ClassDecl :=
  match classes with
  | [] => [extend block {
      name := block.owner
      kind := .extension
      typeParams := cx.typeParameters block.node
      location := cx.location block.node
      docComment := cx.doc block.node }]
  | c :: rest =>
    if c.name == block.owner then extend block c :: rest else c :: attach cx rest block

def classes (cx : Context) (root : Node) : List ClassDecl :=
  let candidates := root.moduleLevel NodeKinds.rust.classes NodeKinds.rust.wrappers
  let types := (candidates.filter (·.kind != "impl_item")).filterMap (typeClass? cx)
  let blocks := (candidates.filter (·.kind == "impl_item")).filterMap (implBlock? cx)
  blocks.foldl (attach cx) types

def interfaceOf (cx : Context) (n : Node) : Option InterfaceDecl :=
  (cx.name? n).map fun name => {
    name
    typeParams := cx.typeParameters n
    parents := (((n.field? "bounds").map Node.namedChildren).getD []).map cx.text
    methods := bodyMethods cx n true
    location := cx.location n
    modifiers := modifiers cx n
    docComment := cx.doc n }

def typeAliasOf (cx : Context) (n : Node) : Option TypeAliasDecl :=
  (cx.name? n).map fun name => {
    name
    typeParams := cx.typeParameters n
    aliasedType := (cx.fieldText? n "type").getD ""
    location := cx.location n
    modifiers := modifiers cx n
    docComment := cx.doc n }

def variablesOf (cx : Context) (n : Node) : List VariableDecl :=
  match cx.name? n with
  | none => []
  | some name =>
    let isStatic := n.kind == "static_item"
    [{ name
       kind := if isStatic then .static else .constant
       type := cx.fieldText? n "type"
       initializer := cx.fieldText? n "value"
       location := cx.location n
       modifiers := (modifiers cx n).insertIf (!isStatic) .const
       docComment := cx.doc n }]

structure UsePath where
  path : String
  localName : Option String := none
  isGlob : Bool := false
  deriving Repr, DecidableEq

def join (start segment : String) : String :=
  if start.isEmpty then segment else start ++ "::" ++ segment

structure UsePlace where
  enclosing : String
  node : Node

inductive UseStep where
  | leaf (used : UsePath)
  | below (places : List UsePlace)

def useStep (cx : Context) (p : UsePlace) : UseStep :=
  if p.node.kind == "use_as_clause" then
    match p.node.field? "path" with
    | some path => .leaf {
        path := join p.enclosing (cx.text path)
        localName := cx.fieldText? p.node "alias" }
    | none => .below []
  else if p.node.kind == "use_list" then
    .below (p.node.namedChildren.map fun c => ⟨p.enclosing, c⟩)
  else if p.node.kind == "scoped_use_list" then
    let inner := match p.node.field? "path" with
      | some path => join p.enclosing (cx.text path)
      | none => p.enclosing
    .below ((p.node.field? "list").toList.map fun list => ⟨inner, list⟩)
  else if p.node.kind == "use_wildcard" then
    .leaf {
      path := match p.node.namedChildren.head? with
        | some path => join p.enclosing (cx.text path)
        | none => p.enclosing
      isGlob := true }
  else if p.node.kind == "self" then .leaf { path := p.enclosing }
  else .leaf { path := join p.enclosing (cx.trimmed p.node) }

theorem useStep_smaller {cx : Context} {p : UsePlace} {places : List UsePlace}
    (read : useStep cx p = .below places) :
    Node.stackSize (places.map (·.node)) < p.node.size := by
  have pos : 0 < p.node.size := p.node.focus.size_pos
  unfold useStep at read
  split at read
  · split at read <;> cases read
    exact pos
  · split at read
    · cases read
      rw [List.map_map]
      exact (List.map_id _).symm ▸ p.node.stackSize_named
    · split at read
      · cases read
        cases found : p.node.field? "list" with
        | none => exact pos
        | some list => exact Node.size_field found
      · split at read <;> try cases read
        split at read <;> cases read

def pathsOnStack (cx : Context) : List UsePlace → List UsePath
  | [] => []
  | p :: stack =>
    match _read : useStep cx p with
    | .leaf used => used :: pathsOnStack cx stack
    | .below places => pathsOnStack cx (places ++ stack)
termination_by stack => Node.stackSize (stack.map (·.node))
decreasing_by
  · exact Node.stackSize_pop _ _
  · rw [List.map_append, Node.stackSize_append]
    exact Nat.add_lt_add_right (useStep_smaller _read) _

theorem pathsOnStack_leaf {cx : Context} {p : UsePlace} {used : UsePath}
    (read : useStep cx p = .leaf used) (stack : List UsePlace) :
    pathsOnStack cx (p :: stack) = used :: pathsOnStack cx stack := by
  rw [pathsOnStack]
  split
  · next other => cases read.symm.trans other; rfl
  · next other => cases read.symm.trans other

theorem pathsOnStack_below {cx : Context} {p : UsePlace} {places : List UsePlace}
    (read : useStep cx p = .below places) (stack : List UsePlace) :
    pathsOnStack cx (p :: stack) = pathsOnStack cx (places ++ stack) := by
  rw [pathsOnStack]
  split
  · next other => cases read.symm.trans other
  · next other => cases read.symm.trans other; rfl

def usePaths (cx : Context) (start : String) (n : Node) : List UsePath :=
  pathsOnStack cx [⟨start, n⟩]

def useSpecifier (used : UsePath) : String × ImportSpecifier :=
  if used.isGlob then
    (used.path, { localName := "*", imported := "*", kind := .wholeModule })
  else
    let (parent, last) := (Text.cutLast? used.path "::").getD ("", used.path)
    (if parent.isEmpty then used.path else parent,
      { localName := used.localName.getD last, imported := last, kind := .named })

def addSpecifier (location : Location) (imports : List ImportDecl)
    (entry : String × ImportSpecifier) : List ImportDecl :=
  match imports with
  | [] => [{ source := entry.1, specifiers := [entry.2], location }]
  | i :: rest =>
    if i.source == entry.1 then { i with specifiers := i.specifiers ++ [entry.2] } :: rest
    else i :: addSpecifier location rest entry

def importsOf (cx : Context) (n : Node) : List ImportDecl :=
  match n.field? "argument" with
  | none => []
  | some argument =>
    ((usePaths cx "" argument).map useSpecifier).foldl (addSpecifier (cx.location n)) []

def rules : Rules where
  kinds := .rust
  defaultVisibility := .isPrivate
  functionOf := functionOf
  classes := classes
  interfaceOf := interfaceOf
  typeAliasOf := typeAliasOf
  variablesOf := variablesOf
  importsOf := importsOf

end CodeEntities.Rust
