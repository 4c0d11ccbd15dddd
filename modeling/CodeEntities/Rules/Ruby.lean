import CodeEntities.Rules.Basic
import CodeEntities.Rules.Members

namespace CodeEntities.Ruby

def visibilityWord? (word : String) : Option Visibility :=
  if word == "private" then some .isPrivate
  else if word == "protected" then some .isProtected
  else if word == "public" then some .isPublic
  else none

def command? (cx : Context) (n : Node) : Option (String × List Node) :=
  if n.kind != "call" || (n.field? "receiver").isSome then none
  else (n.field? "method").map fun name =>
    (cx.text name, ((n.field? "arguments").map Node.namedChildren).getD [])

def symbolName (cx : Context) (n : Node) : String :=
  Text.unquote (Text.dropStartWhile (· == ':') (cx.trimmed n))

def functionOf (cx : Context) (n : Node) : Option FunctionDecl :=
  (cx.name? n).map fun name =>
    let parts := cx.callable n
    cx.function n name { parts with modifiers := parts.modifiers.insert .exported }

def method? (cx : Context) (visibility : Visibility) (n : Node) : Option MethodDecl :=
  (cx.name? n).map fun name =>
    let parts := cx.callable n
    let modifiers := parts.modifiers.insertIf (n.kind == "singleton_method") .static
    .ofFunction (cx.function n name { parts with modifiers }) visibility

def instanceVariables (cx : Context) (init : Node) : List PropertyDecl :=
  let assigns := init.descendantsOfKind ["assignment", "operator_assignment"]
    ["method", "singleton_method"]
  assigns.foldl (fun properties assign =>
    match (assign.field? "left").filter (·.kind == "instance_variable") with
    | some left =>
      let name := Text.dropStartWhile (· == '@') (cx.text left)
      if properties.any (·.name == name) then properties
      else properties ++ [{ cx.property assign name none .isPrivate with docComment := none }]
    | none => properties) []

-- A class as far as its body is read: the members, the modules mixed in, the
-- visibility of the section, and the instance variables of the constructor.
structure Body where
  members : Members := {}
  mixins : List String := []
  visibility : Visibility := .isPublic
  instanceVariables : List PropertyDecl := []

def setVisibility (name : String) (visibility : Visibility) : List MethodDecl → List MethodDecl
  | [] => []
  | m :: rest =>
    if m.name == name then { m with visibility } :: rest
    else m :: setVisibility name visibility rest

def isMethod (n : Node) : Bool := n.kind == "method" || n.kind == "singleton_method"

-- An argument of a visibility command: a definition, or the name of a method.
def addVisibilityArgument (cx : Context) (visibility : Visibility) (members : Members)
    (argument : Node) : Members :=
  if isMethod argument then
    match method? cx visibility argument with
    | some m => members.addMethod m
    | none => members
  else
    { members with
      methods := setVisibility (symbolName cx argument) visibility members.methods }

def addCommand (cx : Context) (body : Body) (n : Node) : Body :=
  match command? cx n with
  | none => body
  | some (name, arguments) =>
    if ["attr_reader", "attr_writer", "attr_accessor"].contains name then
      { body with members := body.members.addProperties <| arguments.map fun a =>
          { cx.property n (symbolName cx a) none .isPublic with
            isReadonly := name == "attr_reader" } }
    else if ["include", "extend", "prepend"].contains name then
      { body with mixins := body.mixins ++ arguments.map cx.trimmed }
    else
      match visibilityWord? name with
      | some visibility =>
        { body with
          members := arguments.foldl (addVisibilityArgument cx visibility) body.members }
      | none => body

def addStatement (cx : Context) (body : Body) (n : Node) : Body :=
  if n.kind == "identifier" then
    { body with visibility := (visibilityWord? (cx.trimmed n)).getD body.visibility }
  else if n.kind == "method" && cx.name? n == some "initialize" then
    { body with
      members := { body.members with constructor := method? cx .isPublic n }
      instanceVariables := instanceVariables cx n }
  else if isMethod n then
    match method? cx body.visibility n with
    | some m => { body with members := body.members.addMethod m }
    | none => body
  else if n.kind == "assignment" then
    match (n.field? "left").filter (·.kind == "constant") with
    | some left =>
      { body with members := body.members.addProperties [
        { cx.property n (cx.text left) none .isPublic with
          isStatic := true
          isReadonly := true
          initializer := cx.fieldText? n "right" }] }
    | none => body
  else if n.kind == "call" then addCommand cx body n
  else body

def addNew (properties more : List PropertyDecl) : List PropertyDecl :=
  more.foldl (fun found p => if found.any (·.name == p.name) then found else found ++ [p]) properties

def class? (cx : Context) (n : Node) : Option ClassDecl :=
  (cx.name? n).map fun name =>
    let body := ((n.classBody?.map Node.namedChildren).getD []).foldl (addStatement cx) {}
    { name
      kind := if n.kind == "module" then .moduleLike else .plain
      superclass := (n.field? "superclass").map fun s =>
        Text.trim (Text.dropStartWhile (· == '<') (cx.trimmed s))
      implements := body.mixins
      methods := body.members.methods
      properties := addNew body.members.properties body.instanceVariables
      constructor := body.members.constructor
      location := cx.location n
      modifiers := Modifiers.empty.insert .exported
      docComment := cx.doc n }

def classNodes (n : Node) : List Node :=
  n.children.attach.flatMap fun ⟨c, _⟩ =>
    if c.kind == "module" then
      c :: match _found : c.classBody? with
        | some body => classNodes body
        | none => []
    else if c.kind == "class" then [c]
    else []
termination_by n.size
decreasing_by
  exact Nat.lt_trans (Node.size_classBody (by assumption)) (Node.size_child (by assumption))

def variablesOf (cx : Context) (n : Node) : List VariableDecl :=
  let declare := fun (left : Node) (kind : VariableKind) (modifiers : Modifiers) =>
    { name := cx.text left
      kind
      initializer := cx.fieldText? n "right"
      location := cx.location n
      modifiers
      docComment := cx.doc n : VariableDecl }
  match n.field? "left" with
  | none => []
  | some left =>
    if left.kind == "constant" then [declare left .constant (.ofList [.const, .exported])]
    else if left.kind == "identifier" then [declare left .mutable .empty]
    else if left.kind == "global_variable" then [declare left .static (.ofList [.exported])]
    else []

def importsOf (cx : Context) (n : Node) : List ImportDecl :=
  match command? cx n with
  | some (name, first :: _) =>
    if ["require", "require_relative", "load"].contains name && first.kind == "string" then
      [{ source := Text.unquote (cx.text first)
         isSideEffect := true
         location := cx.location n }]
    else []
  | _ => []

def rules : Rules where
  kinds := .ruby
  functionOf := functionOf
  variablesOf := variablesOf
  importsOf := importsOf
  classes cx root := (classNodes root).filterMap (class? cx)

end CodeEntities.Ruby
