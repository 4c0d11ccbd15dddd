import CodeEntities.Tree.Node

namespace CodeEntities

variable {α : Type}

mutual

def Tree.foldAt (f : Node → List α → α) (above : List Frame) : Tree → α
  | .mk label children =>
    f ⟨.mk label children, above⟩ (Tree.foldAllAt f label above [] children)

def Tree.foldAllAt (f : Node → List α → α) (label : Label) (above : List Frame)
    (left : List Tree) : List Tree → List α
  | [] => []
  | t :: ts =>
    Tree.foldAt f (⟨label, left, ts⟩ :: above) t :: Tree.foldAllAt f label above (t :: left) ts

end

namespace Node

def fold (f : Node → List α → α) (n : Node) : α := n.focus.foldAt f n.above

theorem foldAllAt_eq (f : Node → List α → α) (label : Label) (above : List Frame)
    (left ts : List Tree) :
    Tree.foldAllAt f label above left ts = (childrenFrom label above left ts).map (fold f) := by
  induction ts generalizing left with
  | nil => simp [Tree.foldAllAt, childrenFrom]
  | cons t ts ih => simp [Tree.foldAllAt, childrenFrom, fold, ih]

theorem fold_eq (f : Node → List α → α) (n : Node) : n.fold f = f n (n.children.map (fold f)) := by
  obtain ⟨⟨label, children⟩, above⟩ := n
  simp only [fold, Tree.foldAt, foldAllAt_eq]
  rfl

def preorder (n : Node) : List Node := n.fold fun m below => m :: below.flatten

theorem preorder_eq (n : Node) : n.preorder = n :: (n.children.map preorder).flatten :=
  fold_eq _ n

def descendants (n : Node) : List Node := (n.children.map preorder).flatten

end Node

end CodeEntities
