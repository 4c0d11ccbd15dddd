import CodeEntities.Tree.Fold

namespace CodeEntities

mutual

def Tree.pathOf : Nat → Tree → List Nat
  | 0, _ => []
  | k + 1, .mk _ children =>
    match Tree.forestPath k 0 children with
    | some (i, below) => i :: below
    | none => []

def Tree.forestPath : Nat → Nat → List Tree → Option (Nat × List Nat)
  | _, _, [] => none
  | k, i, t :: ts =>
    if k < t.size then some (i, Tree.pathOf k t) else Tree.forestPath (k - t.size) (i + 1) ts

end

-- A node in the flat form of a tree: the nodes in preorder, each with the number
-- of its children. `lookups` names the fields whose lookup leads elsewhere than to
-- the first child with the field: so many places further on in the preorder, or
-- nowhere.
structure FlatNode where
  kind : String
  named : Bool := false
  missing : Bool := false
  error : Bool := false
  hasError : Bool := false
  start : Nat
  stop : Nat
  field : Option String := none
  childCount : Nat
  lookups : List (String × Option Nat) := []
  deriving Repr, Inhabited

namespace FlatNode

def label (n : FlatNode) (children : List Tree) : Label where
  kind := n.kind
  named := n.named
  missing := n.missing
  error := n.error
  hasError := n.hasError
  start := n.start
  stop := n.stop
  field := n.field
  lookups := n.lookups.map fun (field, offset) =>
    (field, offset.bind fun k => Tree.forestPath (k - 1) 0 children)

-- Reads so many trees from a list of nodes. Each node takes one unit of fuel and
-- each row of siblings one more.
def forest? : Nat → Nat → List FlatNode → Option (List Tree × List FlatNode)
  | 0, _, _ => none
  | _ + 1, 0, rest => some ([], rest)
  | _ + 1, _ + 1, [] => none
  | fuel + 1, count + 1, n :: rest => do
    let (children, rest) ← forest? fuel n.childCount rest
    let (siblings, rest) ← forest? fuel count rest
    pure (.mk (n.label children) children :: siblings, rest)

def tree? (nodes : List FlatNode) : Option Tree :=
  match forest? (2 * nodes.length + 2) 1 nodes with
  | some ([t], []) => some t
  | _ => none

end FlatNode

end CodeEntities
