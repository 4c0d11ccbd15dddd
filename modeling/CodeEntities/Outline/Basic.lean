import CodeEntities.Language
import CodeEntities.Outline.Declaration

namespace CodeEntities

structure Outline where
  filePath : String
  language : Language
  functions : List FunctionDecl := []
  classes : List ClassDecl := []
  interfaces : List InterfaceDecl := []
  typeAliases : List TypeAliasDecl := []
  bindings : List VariableDecl := []
  imports : List ImportDecl := []
  exports : List ExportDecl := []
  errors : List ParseError := []
  deriving Repr, DecidableEq, Inhabited

namespace Outline

def entityCount (o : Outline) : Nat :=
  o.functions.length + o.classes.length + o.interfaces.length + o.typeAliases.length +
    o.bindings.length

def findFunction? (o : Outline) (name : String) : Option FunctionDecl :=
  o.functions.find? (·.name == name)

def findClass? (o : Outline) (name : String) : Option ClassDecl :=
  o.classes.find? (·.name == name)

def findInterface? (o : Outline) (name : String) : Option InterfaceDecl :=
  o.interfaces.find? (·.name == name)

end Outline

namespace ClassDecl

def callables (c : ClassDecl) : List MethodDecl := c.constructor.toList ++ c.methods

end ClassDecl

end CodeEntities
