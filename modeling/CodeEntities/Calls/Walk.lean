import CodeEntities.Calls.Scope

namespace CodeEntities

-- A node to be visited, with what the nodes above it settled. The caller, and the
-- class when a class is the nearest scope, are places in the table of scopes.
structure PendingNode where
  node : Node
  scope : Nat := 0
  classScope : Option Nat := none
  isAwaited : Bool := false

-- A walk over a tree: the nodes to be visited, the next one first, the names of
-- the scopes opened so far, the heads of definitions, which are passed over, and
-- the calls found.
structure CallWalk where
  pending : List PendingNode
  scopes : List String := [moduleScope]
  skipped : List Node := []
  calls : List FunctionCall := []

namespace CallWalk

def scopeName (w : CallWalk) (i : Nat) : String := w.scopes[i]?.getD moduleScope

def workload (pending : List PendingNode) : Nat := Tree.sizeAll (pending.map (·.node.focus))

end CallWalk

namespace CallSearch

-- What the role of a node does to a walk, with the scope and the class that the
-- children of the node belong to.
def enter (s : CallSearch) (w : CallWalk) (p : PendingNode) : CallWalk × Nat × Option Nat :=
  match s.role p.node with
  | .definition name head =>
    let name := s.resolveName (p.classScope.map w.scopeName) p.node name
    ({ w with scopes := w.scopes ++ [name], skipped := head.toList ++ w.skipped },
      w.scopes.length, none)
  | .container name =>
    ({ w with scopes := w.scopes ++ [name] }, w.scopes.length, some w.scopes.length)
  | .call =>
    let call := s.callAt? (w.scopeName p.scope) p.isAwaited p.node
    ({ w with calls := w.calls ++ call.toList }, p.scope, p.classScope)
  | .other => (w, p.scope, p.classScope)

def visit (s : CallSearch) (w : CallWalk) (p : PendingNode) : CallWalk :=
  if w.skipped.any p.node.isSame then w
  else
    let (entered, scope, classScope) := s.enter w p
    let isAwaited := s.awaitsBelow p.node p.isAwaited
    let children := p.node.children.map fun c => { node := c, scope, classScope, isAwaited }
    { entered with pending := children ++ entered.pending }

theorem enter_pending (s : CallSearch) (w : CallWalk) (p : PendingNode) :
    (s.enter w p).1.pending = w.pending := by
  unfold enter
  split <;> rfl

theorem workload_visit (s : CallSearch) (w : CallWalk) (p : PendingNode) :
    CallWalk.workload (s.visit w p).pending < CallWalk.workload (p :: w.pending) := by
  have visited : CallWalk.workload (p :: w.pending) =
      1 + Tree.sizeAll p.node.focus.children + CallWalk.workload w.pending := by
    simp only [CallWalk.workload, List.map_cons, Tree.sizeAll, Tree.size_eq]
  unfold visit
  split
  · omega
  · have children : ∀ make : Node → PendingNode, (∀ c, (make c).node = c) →
        CallWalk.workload (p.node.children.map make ++ w.pending) =
          Tree.sizeAll p.node.focus.children + CallWalk.workload w.pending := by
      intro make same
      simp only [CallWalk.workload, List.map_append, List.map_map, Function.comp_def, same,
        Tree.sizeAll_append, Node.children_focus]
    simp only [enter_pending, visited]
    rw [children _ fun _ => rfl]
    omega

def drain (s : CallSearch) (w : CallWalk) : CallWalk :=
  match _next : w.pending with
  | [] => w
  | p :: rest => s.drain (s.visit { w with pending := rest } p)
termination_by CallWalk.workload w.pending
decreasing_by
  rw [‹w.pending = p :: rest›]
  exact s.workload_visit { w with pending := rest } p

def startsBy (a b : FunctionCall) : Bool :=
  a.line < b.line || (a.line == b.line && a.column ≤ b.column)

def run (s : CallSearch) (root : Node) : List FunctionCall :=
  (s.drain { pending := [{ node := root }] }).calls.mergeSort startsBy

end CallSearch

end CodeEntities
