import CodeEntities.Text.Split
import CodeEntities.Tree.Fold

namespace CodeEntities.Node

def isComment (n : Node) : Bool :=
  Text.contains n.kind "comment" || n.kind == "haddock"

def namedChildren (n : Node) : List Node :=
  n.children.filter fun c => c.isNamed && !c.isComment

def childOfKind? (n : Node) (kinds : List String) : Option Node :=
  n.children.find? fun c => kinds.contains c.kind

def hasToken (n : Node) (kind : String) : Bool := n.children.any (·.kind == kind)

def stackSize (stack : List Node) : Nat := Tree.sizeAll (stack.map (·.focus))

theorem stackSize_append (stack others : List Node) :
    stackSize (stack ++ others) = stackSize stack + stackSize others := by
  rw [stackSize, List.map_append, Tree.sizeAll_append]
  rfl

theorem stackSize_named (n : Node) : stackSize n.namedChildren < n.size := by
  have fewer : (n.namedChildren.map (·.focus)).Sublist n.focus.children :=
    children_focus n ▸ List.filter_sublist.map _
  have less := Tree.sizeAll_sublist fewer
  rw [stackSize, size, Tree.size_eq]
  omega

theorem stackSize_children (n : Node) (stack : List Node) :
    stackSize (n.children ++ stack) < stackSize (n :: stack) := by
  simp only [stackSize, List.map_append, List.map_cons, children_focus, Tree.sizeAll,
    Tree.sizeAll_append, Tree.size_eq]
  omega

theorem stackSize_perm {stack others : List Node} (h : stack.Perm others) :
    stackSize stack = stackSize others :=
  Tree.sizeAll_perm (h.map _)

theorem stackSize_reversed (n : Node) (stack : List Node) :
    stackSize (n.children.reverse ++ stack) < stackSize (n :: stack) := by
  rw [stackSize_perm ((List.reverse_perm n.children).append_right stack)]
  exact stackSize_children n stack

theorem stackSize_pop (n : Node) (stack : List Node) :
    stackSize stack < stackSize (n :: stack) := by
  have := n.focus.size_pos
  simp only [stackSize, List.map_cons, Tree.sizeAll]
  omega

-- The first wanted node at or below the nodes of a stack, the top of the stack first. The
-- children of a node are put on top of the others, the first child uppermost.
def firstOnStack? (wanted : Node → Bool) : List Node → Option Node
  | [] => none
  | n :: stack => if wanted n then some n else firstOnStack? wanted (n.children ++ stack)
termination_by stack => stackSize stack
decreasing_by exact stackSize_children n stack

theorem firstOnStack_eq (wanted : Node → Bool) (stack : List Node) :
    firstOnStack? wanted stack = (stack.flatMap preorder).find? wanted := by
  fun_induction firstOnStack? wanted stack with
  | case1 => rfl
  | case2 n stack found => simp [preorder_eq n, found]
  | case3 n stack other ih =>
    rw [ih, List.flatMap_append, List.flatMap_cons, preorder_eq n, ← List.flatMap_def,
      List.cons_append, List.find?_cons_of_neg other]

def findDescendant? (n : Node) (kinds : List String) : Option Node :=
  firstOnStack? (fun m => !m.isSame n && kinds.contains m.kind) [n]

inductive Visit where
  | report
  | enter
  | pass
  deriving Repr, DecidableEq

-- The nodes that a search reports from a node downwards, in document order. It
-- looks below a node only where it enters.
def collect (visit : Node → Visit) (n : Node) : List Node :=
  n.fold fun m below =>
    match visit m with
    | .report => [m]
    | .enter => below.flatten
    | .pass => []

theorem collect_eq (visit : Node → Visit) (n : Node) :
    n.collect visit =
      match visit n with
      | .report => [n]
      | .enter => (n.children.map (collect visit)).flatten
      | .pass => [] :=
  fold_eq _ n

def reportedOnStack (visit : Node → Visit) : List Node → List Node
  | [] => []
  | n :: stack =>
    match visit n with
    | .report => n :: reportedOnStack visit stack
    | .enter => reportedOnStack visit (n.children ++ stack)
    | .pass => reportedOnStack visit stack
termination_by stack => stackSize stack
decreasing_by
  · exact stackSize_pop n stack
  · exact stackSize_children n stack
  · exact stackSize_pop n stack

-- The stack holds what is left of the recursion over the tree.
theorem reportedOnStack_eq (visit : Node → Visit) (stack : List Node) :
    reportedOnStack visit stack = stack.flatMap (collect visit) := by
  fun_induction reportedOnStack visit stack with
  | case1 => rfl
  | case2 n stack here ih =>
    simp only [List.flatMap_cons, collect_eq visit n, here, ih, List.singleton_append]
  | case3 n stack here ih =>
    simp only [List.flatMap_cons, List.flatMap_append, collect_eq visit n, here, ih,
      ← List.flatMap_def]
  | case4 n stack here ih =>
    simp only [List.flatMap_cons, collect_eq visit n, here, ih, List.nil_append]

def collectBelow (visit : Node → Visit) (n : Node) : List Node := reportedOnStack visit n.children

theorem collectBelow_eq (visit : Node → Visit) (n : Node) :
    n.collectBelow visit = n.children.flatMap (collect visit) :=
  reportedOnStack_eq visit n.children

def descendantsOfKind (n : Node) (kinds stop : List String) : List Node :=
  n.collectBelow fun m =>
    if kinds.contains m.kind then .report else if stop.contains m.kind then .pass else .enter

def moduleLevel (root : Node) (targets wrappers : List String) : List Node :=
  root.collectBelow fun m =>
    if targets.contains m.kind then .report else if wrappers.contains m.kind then .enter else .pass

end CodeEntities.Node
