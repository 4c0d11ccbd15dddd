import CodeEntities.Outline.Modifier

namespace CodeEntities

-- A range of a source file: lines from 1 and inclusive, byte columns from 0.
structure Location where
  filePath : String
  startLine : Nat
  endLine : Nat
  startColumn : Nat
  endColumn : Nat
  deriving Repr, DecidableEq, Inhabited

namespace Location

def lineCount (l : Location) : Nat := l.endLine - l.startLine + 1

def containsLine (l : Location) (line : Nat) : Bool := l.startLine ≤ line && line ≤ l.endLine

end Location

-- An absent type means untyped or inferred, never "nothing".
structure Parameter where
  name : String
  type : Option String := none
  isOptional : Bool := false
  isRest : Bool := false
  defaultValue : Option String := none
  deriving Repr, DecidableEq, Inhabited

-- A function-like declaration. `body` is the text of the whole declaration,
-- shortened or dropped when the options say so.
structure FunctionDecl where
  name : String
  params : List Parameter
  returnType : Option String
  typeParams : List String
  body : String
  location : Location
  modifiers : Modifiers
  docComment : Option String
  signature : String
  complexity : Nat
  deriving Repr, DecidableEq, Inhabited

structure MethodDecl where
  function : FunctionDecl
  visibility : Visibility
  isStatic : Bool := false
  isAbstract : Bool := false
  isGetter : Bool := false
  isSetter : Bool := false
  deriving Repr, DecidableEq, Inhabited

namespace MethodDecl

def name (m : MethodDecl) : String := m.function.name

def ofFunction (f : FunctionDecl) (visibility : Visibility) : MethodDecl where
  function := f
  visibility := visibility
  isStatic := f.modifiers.contains .static
  isAbstract := f.modifiers.contains .abstract

end MethodDecl

-- What a class-like declaration is. A module is a namespace of functions, an
-- extension holds methods of a type that is declared elsewhere.
inductive ClassKind where
  | plain | struct | enumeration | object | record | moduleLike | extension
  deriving Repr, DecidableEq, Inhabited

namespace ClassKind

def all : List ClassKind := [plain, struct, enumeration, object, record, moduleLike, extension]

def name : ClassKind → String
  | plain => "class"
  | struct => "struct"
  | enumeration => "enum"
  | object => "object"
  | record => "record"
  | moduleLike => "module"
  | extension => "extension"

def ofName? (s : String) : Option ClassKind := all.find? (·.name == s)

end ClassKind

structure PropertyDecl where
  name : String
  type : Option String := none
  visibility : Visibility := .isPublic
  isStatic : Bool := false
  isReadonly : Bool := false
  isOptional : Bool := false
  initializer : Option String := none
  location : Location
  docComment : Option String := none
  deriving Repr, DecidableEq, Inhabited

structure ClassDecl where
  name : String
  kind : ClassKind := .plain
  typeParams : List String := []
  superclass : Option String := none
  implements : List String := []
  methods : List MethodDecl := []
  properties : List PropertyDecl := []
  constructor : Option MethodDecl := none
  location : Location
  modifiers : Modifiers := .empty
  docComment : Option String := none
  isAbstract : Bool := false
  deriving Repr, DecidableEq, Inhabited

structure InterfaceDecl where
  name : String
  typeParams : List String := []
  parents : List String := []
  properties : List PropertyDecl := []
  methods : List MethodDecl := []
  location : Location
  modifiers : Modifiers := .empty
  docComment : Option String := none
  deriving Repr, DecidableEq, Inhabited

structure TypeAliasDecl where
  name : String
  typeParams : List String := []
  aliasedType : String
  location : Location
  modifiers : Modifiers := .empty
  docComment : Option String := none
  deriving Repr, DecidableEq, Inhabited

inductive VariableKind where
  | constant | binding | mutable | static
  deriving Repr, DecidableEq, Inhabited

namespace VariableKind

def all : List VariableKind := [constant, binding, mutable, static]

def name : VariableKind → String
  | constant => "const"
  | binding => "let"
  | mutable => "var"
  | static => "static"

def ofName? (s : String) : Option VariableKind := all.find? (·.name == s)

end VariableKind

structure VariableDecl where
  name : String
  kind : VariableKind := .mutable
  type : Option String := none
  initializer : Option String := none
  location : Location
  modifiers : Modifiers := .empty
  docComment : Option String := none
  deriving Repr, DecidableEq, Inhabited

inductive SpecifierKind where
  | default | named | wholeModule
  deriving Repr, DecidableEq, Inhabited

namespace SpecifierKind

def all : List SpecifierKind := [default, named, wholeModule]

def name : SpecifierKind → String
  | default => "default"
  | named => "named"
  | wholeModule => "namespace"

def ofName? (s : String) : Option SpecifierKind := all.find? (·.name == s)

end SpecifierKind

structure ImportSpecifier where
  localName : String
  imported : String
  kind : SpecifierKind
  deriving Repr, DecidableEq, Inhabited

-- An import for its side effects binds no name.
structure ImportDecl where
  source : String
  specifiers : List ImportSpecifier := []
  isTypeOnly : Bool := false
  isSideEffect : Bool := false
  location : Location
  deriving Repr, DecidableEq, Inhabited

inductive ExportKind where
  | default | named | wholeModule | reExport
  deriving Repr, DecidableEq, Inhabited

namespace ExportKind

def all : List ExportKind := [default, named, wholeModule, reExport]

def name : ExportKind → String
  | default => "default"
  | named => "named"
  | wholeModule => "namespace"
  | reExport => "re-export"

def ofName? (s : String) : Option ExportKind := all.find? (·.name == s)

end ExportKind

-- An exported name. `source` is the module that it is passed on from, if any.
structure ExportDecl where
  name : String
  localName : Option String := none
  kind : ExportKind
  source : Option String := none
  isTypeOnly : Bool := false
  location : Location
  deriving Repr, DecidableEq, Inhabited

inductive Severity where
  | error
  deriving Repr, DecidableEq, Inhabited

namespace Severity

def all : List Severity := [error]

def name : Severity → String
  | error => "error"

def ofName? (s : String) : Option Severity := all.find? (·.name == s)

end Severity

structure ParseError where
  message : String
  location : Location
  severity : Severity := .error
  deriving Repr, DecidableEq, Inhabited

end CodeEntities
