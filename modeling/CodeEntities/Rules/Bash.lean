import CodeEntities.Rules.Basic

namespace CodeEntities.Bash

def assignment? (cx : Context) (n whole : Node) (kind : VariableKind) (modifiers : Modifiers) :
    Option VariableDecl :=
  (cx.fieldText? n "name").map fun name => {
    name
    kind
    initializer := (n.field? "value").map fun v => Text.unquote (cx.text v)
    location := cx.location whole
    modifiers
    docComment := cx.doc whole }

-- A plain assignment, or the names that a declaration command lists. `readonly` and the flag `r`
-- make constants, `export` and the flag `x` exports.
def variablesOf (cx : Context) (n : Node) : List VariableDecl :=
  if n.kind == "variable_assignment" then (assignment? cx n n .mutable .empty).toList
  else
    let keyword := (n.children.head?.map cx.text).getD ""
    let flags := (n.namedChildren.filter fun c =>
      c.kind == "word" && Text.startsWith (cx.text c) "-").map cx.text
    let isReadonly := keyword == "readonly" || flags.any fun f => f.toList.contains 'r'
    let isExported := keyword == "export" || flags.any fun f => f.toList.contains 'x'
    let modifiers := (Modifiers.empty.insertIf isExported .exported).insertIf isReadonly .const
    let kind : VariableKind :=
      if isReadonly then .constant else if keyword == "local" then .binding else .mutable
    n.namedChildren.filterMap fun c =>
      if c.kind == "variable_assignment" then assignment? cx c n kind modifiers
      else if c.kind == "variable_name" then
        some {
          name := cx.text c
          kind
          location := cx.location n
          modifiers
          docComment := cx.doc n }
      else none

def importsOf (cx : Context) (n : Node) : List ImportDecl :=
  let command := ((n.field? "name").map cx.trimmed).getD ""
  if command == "source" || command == "." then
    match n.field? "argument" with
    | some path => [{
        source := Text.unquote (cx.text path)
        isSideEffect := true
        location := cx.location n }]
    | none => []
  else []

def rules : Rules where
  kinds := .bash
  variablesOf := variablesOf
  importsOf := importsOf

end CodeEntities.Bash
