import CodeEntities.Extract.Documentation
import CodeEntities.Language
import CodeEntities.Outline.Declaration

namespace CodeEntities

-- What a caller wants of an extraction. Without a limit bodies are kept whole;
-- with `complexity` off every complexity is 1.
structure Options where
  includeBodies : Bool := true
  maxBodyBytes : Option Nat := none
  docComments : Bool := true
  complexity : Bool := true
  deriving Repr, DecidableEq, Inhabited

structure Context where
  source : String
  filePath : String
  language : Language
  options : Options
  deriving Repr, Inhabited

def identifierKinds : List String := [
  "identifier", "simple_identifier", "type_identifier", "field_identifier", "property_identifier",
  "private_property_identifier", "constant", "name", "variable_name", "word", "variable",
  "constructor", "package_identifier", "namespace_identifier",
  "shorthand_property_identifier_pattern", "shorthand_property_identifier"]

def modifierContainers : List String := [
  "modifiers", "modifier", "declaration_modifiers", "accessibility_modifier", "override_modifier",
  "visibility_modifier", "member_modifier", "function_modifier", "function_modifiers",
  "class_modifier", "inheritance_modifier", "property_modifier", "static_modifier",
  "abstract_modifier", "final_modifier", "readonly_modifier", "storage_class_specifier",
  "type_qualifier", "access_modifier"]

namespace Node

def isIdentifier (n : Node) : Bool := identifierKinds.contains n.kind

end Node

namespace Context

def text (cx : Context) (n : Node) : String := n.text cx.source

def trimmed (cx : Context) (n : Node) : String := Text.trim (cx.text n)

def fieldText? (cx : Context) (n : Node) (field : String) : Option String :=
  (n.field? field).bind fun c => Text.nonBlank? (cx.text c)

def location (cx : Context) (n : Node) : Location :=
  let start := n.startPosition cx.source
  let stop := n.endPosition cx.source
  { filePath := cx.filePath
    startLine := start.row + 1
    endLine := stop.row + 1
    startColumn := start.column
    endColumn := stop.column }

def body (cx : Context) (n : Node) : String :=
  if cx.options.includeBodies then
    match cx.options.maxBodyBytes with
    | some limit => Text.truncate limit (cx.text n)
    | none => cx.text n
  else ""

def doc (cx : Context) (n : Node) : Option String :=
  if cx.options.docComments then n.precedingComment cx.source else none

def complexity (cx : Context) (n : Node) : Nat :=
  if cx.options.complexity then n.cyclomatic cx.source else 1

def nameNode? (n : Node) : Option Node :=
  (n.field? "name").or (n.namedChildren.find? (·.isIdentifier))

def name? (cx : Context) (n : Node) : Option String :=
  (nameNode? n).bind fun candidate =>
    let inner :=
      if candidate.isIdentifier then candidate
      else (candidate.findDescendant? identifierKinds).getD candidate
    Text.nonBlank? (cx.text inner)

def keywordModifier? (word : String) : Option Modifier :=
  if word == "@Override" then some .override else Modifier.ofKeyword? word

def modifiers (cx : Context) (n : Node) : Modifiers :=
  .ofList <| n.children.flatMap fun c =>
    if modifierContainers.contains c.kind then
      (Text.split (fun ch => Text.isBlank ch || ch == '(') (cx.text c)).filterMap keywordModifier?
    else if !c.isNamed then (Modifier.ofKeyword? c.kind).toList
    else []

end Context

end CodeEntities
