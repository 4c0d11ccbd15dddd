import CodeEntities.Calls.Graph
import CodeEntities.Calls.Walk
import CodeEntities.Outline.Basic

namespace CodeEntities

structure Span where
  location : Location
  name : String
  deriving Repr, DecidableEq, Inhabited

namespace Span

def extent (s : Span) : Nat := s.location.endLine - s.location.startLine

def start (s : Span) : Nat × Nat := (s.location.startLine, s.location.startColumn)

def smallest? : List Span → Option Span
  | [] => none
  | s :: rest =>
    match smallest? rest with
    | some t => if t.extent < s.extent then some t else some s
    | none => some s

end Span

namespace Outline

def functionSpan (f : FunctionDecl) : Span := { location := f.location, name := f.name }

def classSpan (c : ClassDecl) : Span := { location := c.location, name := c.name }

def memberSpan (c : ClassDecl) (m : MethodDecl) : Span where
  location := m.function.location
  name := c.name ++ "." ++ m.name

def members (c : ClassDecl) : List MethodDecl := c.methods ++ c.constructor.toList

def spans (o : Outline) : List Span :=
  o.functions.map functionSpan ++
    o.classes.flatMap fun c => classSpan c :: (members c).map (memberSpan c)

-- Names of definitions by their start; of two at one place the later holds. A
-- class is a scope and no definition, so none is named where a class starts.
def declaredNames (o : Outline) : DeclaredNames :=
  let classStarts := o.classes.map fun c => (classSpan c).start
  ((o.spans.filter fun s => !classStarts.contains s.start).map fun s => (s.start, s.name)).reverse

def owner? (o : Outline) (line : Nat) : Option Span :=
  Span.smallest? (o.spans.filter fun s => s.location.containsLine line)

def assign (o : Outline) (c : FunctionCall) : FunctionCall :=
  if c.callerName == moduleScope then
    match o.owner? c.line with
    | some s => c.withCaller o.filePath s.name
    | none => c
  else c

def search (o : Outline) (source : String) : CallSearch where
  source := source
  filePath := o.filePath
  forms := .of o.language
  declared := o.declaredNames

def calls (o : Outline) (source : String) (root : Node) : List FunctionCall :=
  ((o.search source).run root).map o.assign

end Outline

namespace CallGraph

def ofTree (forms : CallForms) (source filePath : String) (root : Node) : CallGraph where
  filePath := filePath
  calls := CallSearch.run { source, filePath, forms } root

end CallGraph

end CodeEntities
