import CodeEntities.Outline.Basic

namespace CodeEntities

inductive EntityKind where
  | function | method | classLike | interface | typeAlias | var
  deriving Repr, DecidableEq, Inhabited

namespace EntityKind

def all : List EntityKind := [function, method, classLike, interface, typeAlias, var]

def name : EntityKind → String
  | function => "function"
  | method => "method"
  | classLike => "class"
  | interface => "interface"
  | typeAlias => "type"
  | var => "variable"

def ofName? (s : String) : Option EntityKind := all.find? (·.name == s)

end EntityKind

structure EntitySummary where
  name : String
  kind : EntityKind
  filePath : String
  startLine : Nat
  endLine : Nat
  signature : Option String
  docComment : Option String
  isExported : Bool
  deriving Repr, DecidableEq, Inhabited

namespace EntitySummary

def lineCount (s : EntitySummary) : Nat := s.endLine - s.startLine + 1

end EntitySummary

namespace Outline

def exportedNames (o : Outline) : List String :=
  (o.exports.filter (·.source.isNone)).map fun e => e.localName.getD e.name

def isExported (o : Outline) (name : String) (modifiers : Modifiers) : Bool :=
  modifiers.contains .exported || o.exportedNames.contains name

def summary (o : Outline) (name : String) (kind : EntityKind) (location : Location)
    (signature docComment : Option String) (isExported : Bool) : EntitySummary where
  name := name
  kind := kind
  filePath := o.filePath
  startLine := location.startLine
  endLine := location.endLine
  signature := signature
  docComment := docComment
  isExported := isExported

-- A class, then its constructor and methods as `Class.method`. A method is
-- exported with its class if it is public.
def classSummaries (o : Outline) (c : ClassDecl) : List EntitySummary :=
  let exported := o.isExported c.name c.modifiers
  o.summary c.name .classLike c.location none c.docComment exported ::
    c.callables.map fun m =>
      o.summary (c.name ++ "." ++ m.name) .method m.function.location (some m.function.signature)
        m.function.docComment (exported && m.visibility == .isPublic)

def summaries (o : Outline) : List EntitySummary :=
  (o.functions.map fun f =>
    o.summary f.name .function f.location (some f.signature) f.docComment
      (o.isExported f.name f.modifiers)) ++
  o.classes.flatMap o.classSummaries ++
  (o.interfaces.map fun i =>
    o.summary i.name .interface i.location none i.docComment (o.isExported i.name i.modifiers)) ++
  (o.typeAliases.map fun t =>
    o.summary t.name .typeAlias t.location none t.docComment (o.isExported t.name t.modifiers)) ++
  (o.bindings.map fun v =>
    o.summary v.name .var v.location none v.docComment (o.isExported v.name v.modifiers))

end Outline

end CodeEntities
