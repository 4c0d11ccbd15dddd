import CodeEntities.Outline.Declaration

namespace CodeEntities

structure Members where
  methods : List MethodDecl := []
  properties : List PropertyDecl := []
  constructor : Option MethodDecl := none
  deriving Repr, DecidableEq, Inhabited

namespace Members

def addMethod (m : Members) (method : MethodDecl) : Members :=
  { m with methods := m.methods ++ [method] }

def addProperties (m : Members) (properties : List PropertyDecl) : Members :=
  { m with properties := m.properties ++ properties }

-- The first constructor takes the slot; further ones stand among the methods.
def addConstructor (m : Members) (method : MethodDecl) : Members :=
  match m.constructor with
  | none => { m with constructor := some method }
  | some _ => m.addMethod method

end Members

end CodeEntities
