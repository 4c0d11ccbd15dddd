import CodeEntities.Json.Basic
import CodeEntities.Tree.Flat

namespace CodeEntities

structure TreeNames where
  kinds : List String
  fields : List String
  deriving Repr, DecidableEq, Inhabited

-- A lookup that is written apart from its node: both nodes by their place in the
-- preorder. The root is nobody's target; its place stands for "nowhere".
structure WrittenLookup where
  node : Nat
  field : Nat
  target : Nat
  deriving Repr, DecidableEq

namespace WrittenLookup

def ofNumbers : List Nat → List WrittenLookup
  | node :: field :: target :: rest => { node, field, target } :: ofNumbers rest
  | _ => []

end WrittenLookup

namespace TreeNames

def field? (names : TreeNames) (i : Nat) : Option String :=
  if i = 0 then none else names.fields[i - 1]?

def lookup? (names : TreeNames) (l : WrittenLookup) : Option (String × Option Nat) :=
  (names.field? l.field).map fun name =>
    (name, if l.target ≤ l.node then none else some (l.target - l.node))

-- Reads six numbers for each node: its kind, its marks, where it starts and stops,
-- its field or 0, and how many children it has. `i` is the place of the first one.
def nodes? (names : TreeNames) (lookups : List WrittenLookup) (i : Nat) :
    List Nat → Option (List FlatNode)
  | [] => some []
  | kind :: marks :: start :: stop :: field :: childCount :: rest => do
    let kind ← names.kinds[kind]?
    let field ← if field = 0 then some none else (names.field? field).map some
    let own ← (lookups.filter (·.node = i)).mapM names.lookup?
    let more ← names.nodes? lookups (i + 1) rest
    pure ({
      kind
      named := marks.testBit 0
      missing := marks.testBit 1
      error := marks.testBit 2
      hasError := marks.testBit 3
      start, stop, field, childCount
      lookups := own } :: more)
  | _ => none

end TreeNames

namespace Tree

def ofJson? (j : Json) : Option Tree := do
  let kinds ← (← j.member? "kinds").asList? Json.asString?
  let fields ← (← j.member? "fields").asList? Json.asString?
  let nodes ← (← j.member? "nodes").asList? Json.asSize?
  let lookups ← (← j.member? "lookup").asList? Json.asSize?
  FlatNode.tree? (← TreeNames.nodes? { kinds, fields } (WrittenLookup.ofNumbers lookups) 0 nodes)

end Tree

end CodeEntities
