import CodeEntities.Tree.Basic

namespace CodeEntities

-- The surroundings of a node one level up: the parent's label and the siblings,
-- those before the node nearest first.
structure Frame where
  label : Label
  left : List Tree
  right : List Tree
  deriving Repr

def Frame.plug (frame : Frame) (t : Tree) : Tree :=
  .mk frame.label (frame.left.reverse ++ t :: frame.right)

structure Node where
  focus : Tree
  above : List Frame
  deriving Repr

namespace Node

def root (t : Tree) : Node := ⟨t, []⟩

def label (n : Node) : Label := n.focus.label

def kind (n : Node) : String := n.label.kind

def isNamed (n : Node) : Bool := n.label.named

def size (n : Node) : Nat := n.focus.size

-- Child indexes from the node up to the root. Two nodes of one tree are the same
-- node exactly when their paths agree.
def path (n : Node) : List Nat := n.above.map (·.left.length)

def isSame (a b : Node) : Bool := a.path == b.path

def childrenFrom (label : Label) (above : List Frame) (left : List Tree) : List Tree → List Node
  | [] => []
  | t :: ts => ⟨t, ⟨label, left, ts⟩ :: above⟩ :: childrenFrom label above (t :: left) ts

def children (n : Node) : List Node := childrenFrom n.label n.above [] n.focus.children

theorem childrenFrom_focus (label : Label) (above : List Frame) (left ts : List Tree) :
    (childrenFrom label above left ts).map (·.focus) = ts := by
  induction ts generalizing left with
  | nil => rfl
  | cons t ts ih => simp [childrenFrom, ih]

theorem children_focus (n : Node) : n.children.map (·.focus) = n.focus.children :=
  childrenFrom_focus _ _ _ _

theorem size_child {n c : Node} (h : c ∈ n.children) : c.size < n.size := by
  apply Tree.size_lt_of_mem
  rw [← children_focus]
  exact List.mem_map_of_mem h

theorem induction {P : Node → Prop} (step : ∀ n, (∀ c ∈ n.children, P c) → P n) (n : Node) : P n := by
  induction h : n.size using Nat.strongRecOn generalizing n with
  | ind k ih => exact step n fun c member => ih c.size (h ▸ size_child member) c rfl

def parent? (n : Node) : Option Node :=
  match n.above with
  | [] => none
  | frame :: above => some ⟨frame.plug n.focus, above⟩

def ancestorsFrom (t : Tree) : List Frame → List Node
  | [] => []
  | frame :: above => ⟨frame.plug t, above⟩ :: ancestorsFrom (frame.plug t) above

def ancestors (n : Node) : List Node := ancestorsFrom n.focus n.above

def earlierFrom (label : Label) (above : List Frame) : List Tree → List Tree → List Node
  | [], _ => []
  | t :: left, right => ⟨t, ⟨label, left, right⟩ :: above⟩ :: earlierFrom label above left (t :: right)

def earlierSiblings (n : Node) : List Node :=
  match n.above with
  | [] => []
  | frame :: above => earlierFrom frame.label above frame.left (n.focus :: frame.right)

def previousSibling? (n : Node) : Option Node := n.earlierSiblings.head?

def descend : List Nat → Node → Option Node
  | [], n => some n
  | i :: is, n => n.children[i]?.bind (descend is)

theorem size_descend {is : List Nat} {n m : Node} (h : descend is n = some m) : m.size ≤ n.size := by
  induction is generalizing n with
  | nil => simp only [descend, Option.some.injEq] at h; subst h; exact Nat.le_refl _
  | cons i is ih =>
    simp only [descend, Option.bind_eq_some_iff] at h
    obtain ⟨c, found, rest⟩ := h
    have := size_child (List.mem_of_getElem? found)
    have := ih rest
    omega

def childrenByField (n : Node) (field : String) : List Node :=
  n.children.filter (·.label.field == some field)

def field? (n : Node) (field : String) : Option Node :=
  match n.label.lookups.find? (·.1 == field) with
  | some (_, some (first, below)) => descend (first :: below) n
  | some (_, none) => none
  | none => n.children.find? (·.label.field == some field)

theorem size_field {n m : Node} {field : String} (h : n.field? field = some m) : m.size < n.size := by
  unfold field? at h
  split at h
  · simp only [descend, Option.bind_eq_some_iff] at h
    obtain ⟨c, found, rest⟩ := h
    have := size_child (List.mem_of_getElem? found)
    have := size_descend rest
    omega
  · cases h
  · exact size_child (List.mem_of_find?_eq_some h)

def firstField? (n : Node) (fields : List String) : Option Node := fields.findSome? n.field?

end Node

end CodeEntities
