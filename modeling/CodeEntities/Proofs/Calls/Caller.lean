import CodeEntities.Calls.Walk
import CodeEntities.Proofs.Tree.Ancestry

namespace CodeEntities

namespace CallRole

def opensScope : CallRole → Bool
  | definition .. | container _ => true
  | call | other => false

def className? : CallRole → Option String
  | container name => some name
  | definition .. | call | other => none

def head? : CallRole → Option Node
  | definition _ head => head
  | container _ | call | other => none

theorem ofMacro_head (source : String) (n head : Node) (name : String)
    (same : ofMacro source n = .definition name (some head)) : macroHead? n = some head := by
  unfold ofMacro at same
  split at same
  · cases same
  · dsimp only at same
    split at same
    · cases same
    · split at same
      · split at same
        · cases same
        · split at same
          · cases same; assumption
          · cases same
      · split at same
        · split at same <;> cases same
        · split at same <;> cases same

theorem of_head (forms : CallForms) (source : String) (n head : Node)
    (headed : (CallRole.of forms source n).head? = some head) :
    ∃ a ∈ n.children, head ∈ a.children := by
  unfold CallRole.of at headed
  split at headed
  · cases role : ofMacro source n with
    | definition name found =>
      rw [role] at headed
      cases headed
      exact macroHead_grandchild (ofMacro_head source n head name role)
    | container name => rw [role] at headed; cases headed
    | call => rw [role] at headed; cases headed
    | other => rw [role] at headed; cases headed
  · dsimp only at headed
    split at headed
    · cases headed
    · cases headed
    · split at headed <;> cases headed

end CallRole

namespace CallSearch

-- The definition or the class next above a node.
def enclosing? (s : CallSearch) (n : Node) : Option Node :=
  n.ancestors.find? fun a => (s.role a).opensScope

def enclosingClass? (s : CallSearch) (n : Node) : Option String :=
  (s.enclosing? n).bind fun a => (s.role a).className?

def scopeName? (s : CallSearch) (n : Node) : Option String :=
  match s.role n with
  | .definition name _ => some (s.resolveName (s.enclosingClass? n) n name)
  | .container name => some name
  | .call | .other => none

def callerOf (s : CallSearch) (n : Node) : String :=
  ((s.enclosing? n).bind s.scopeName?).getD moduleScope

def isWaitedFor (s : CallSearch) (n : Node) : Bool :=
  (n.ancestors.find? fun a =>
    s.forms.awaits.contains a.kind || !parenthesisKinds.contains a.kind).any
      fun a => s.forms.awaits.contains a.kind

def isHead (s : CallSearch) (n : Node) : Bool :=
  n.ancestors.any fun d => (s.role d).head?.any n.isSame

def isHidden (s : CallSearch) (n : Node) : Bool := (n :: n.ancestors).any s.isHead

-- The call that a node of a tree stands for.
def callOf? (s : CallSearch) (n : Node) : Option FunctionCall :=
  if s.isHidden n then none
  else
    match s.role n with
    | .call => s.callAt? (s.callerOf n) (s.isWaitedFor n) n
    | .definition .. | .container _ | .other => none

def callsWithin (s : CallSearch) (n : Node) : List FunctionCall := n.preorder.filterMap s.callOf?

variable {s : CallSearch} {n m c d : Node}

theorem head_within (headed : (s.role d).head? = some m) : Node.Within d m := by
  obtain ⟨a, first, second⟩ := CallRole.of_head _ _ _ _ headed
  exact .of_child first (Node.within_child second)

def Nearest (s : CallSearch) (n d : Node) : Prop :=
  ∃ inner outer, n.ancestors = inner ++ d :: outer ∧
    (∀ a ∈ inner, (s.role a).opensScope = false) ∧ (s.role d).opensScope = true

-- Independent rules for the caller of what stands at a node.
inductive CalledFrom (s : CallSearch) (n : Node) : String → Prop where
  | topLevel (outside : ∀ a ∈ n.ancestors, (s.role a).opensScope = false) :
      CalledFrom s n moduleScope
  | container {d name} (nearest : s.Nearest n d) (role : s.role d = .container name) :
      CalledFrom s n name
  | declared {d own head name} (nearest : s.Nearest n d) (role : s.role d = .definition own head)
      (given : s.givenName? d = some name) : CalledFrom s n name
  | method {d own head c name} (nearest : s.Nearest n d) (role : s.role d = .definition own head)
      (unknown : s.givenName? d = none) (around : s.Nearest d c)
      (inClass : s.role c = .container name) : CalledFrom s n (name ++ "." ++ own)
  | function {d own head} (nearest : s.Nearest n d) (role : s.role d = .definition own head)
      (unknown : s.givenName? d = none)
      (outside : ∀ c name, s.Nearest d c → s.role c ≠ .container name) : CalledFrom s n own

theorem nearest_exact : s.Nearest n d ↔ s.enclosing? n = some d := by
  unfold Nearest enclosing?
  rw [List.find?_eq_some_iff_append]
  constructor
  · rintro ⟨inner, outer, split, inside, opens⟩
    exact ⟨opens, inner, outer, split, fun a member => by simp [inside a member]⟩
  · rintro ⟨opens, inner, outer, split, inside⟩
    exact ⟨inner, outer, split, fun a member => by simpa using inside a member, opens⟩

theorem enclosingClass_exact {name : String} :
    s.enclosingClass? n = some name ↔ ∃ c, s.Nearest n c ∧ s.role c = .container name := by
  unfold enclosingClass?
  rw [Option.bind_eq_some_iff]
  refine exists_congr fun c => and_congr nearest_exact.symm ?_
  cases s.role c <;> simp [CallRole.className?]

theorem callerOf_sound (s : CallSearch) (n : Node) : s.CalledFrom n (s.callerOf n) := by
  unfold callerOf
  cases around : s.enclosing? n with
  | none =>
    refine .topLevel fun a member => ?_
    simpa using List.find?_eq_none.mp around a member
  | some d =>
    have nearest := nearest_exact.mpr around
    have opens := List.find?_some around
    cases role : s.role d with
    | call => rw [role] at opens; cases opens
    | other => rw [role] at opens; cases opens
    | container name => simpa [scopeName?, role] using CalledFrom.container nearest role
    | definition own head =>
      simp only [Option.bind_some, scopeName?, role, Option.getD_some, resolveName]
      cases given : s.givenName? d with
      | some name => exact .declared nearest role given
      | none =>
        cases inClass : s.enclosingClass? d with
        | some name =>
          obtain ⟨c, next, container⟩ := enclosingClass_exact.mp inClass
          exact .method nearest role given next container
        | none =>
          refine .function nearest role given fun c name next container => ?_
          have found := enclosingClass_exact.mpr ⟨c, next, container⟩
          rw [inClass] at found
          cases found

theorem callerOf_complete {name : String} (called : s.CalledFrom n name) : s.callerOf n = name := by
  unfold callerOf
  cases called with
  | topLevel outside =>
    have unscoped : s.enclosing? n = none :=
      List.find?_eq_none.mpr fun a member => by simp [outside a member]
    rw [unscoped]
    rfl
  | container nearest role =>
    simp [nearest_exact.mp nearest, scopeName?, role]
  | declared nearest role given =>
    simp [nearest_exact.mp nearest, scopeName?, role, resolveName, given]
  | method nearest role unknown around inClass =>
    have found := enclosingClass_exact.mpr ⟨_, around, inClass⟩
    simp [nearest_exact.mp nearest, scopeName?, role, resolveName, unknown, found, qualified]
  | @function d own head nearest role unknown outside =>
    have classless : s.enclosingClass? d = none := by
      cases found : s.enclosingClass? d with
      | none => rfl
      | some name =>
        obtain ⟨c, next, container⟩ := enclosingClass_exact.mp found
        exact absurd container (outside c name next)
    simp [nearest_exact.mp nearest, scopeName?, role, resolveName, unknown, classless, qualified]

theorem calledFrom_exact {name : String} : s.CalledFrom n name ↔ s.callerOf n = name :=
  ⟨callerOf_complete, fun same => same ▸ callerOf_sound s n⟩

theorem enclosing_child (s : CallSearch) (member : c ∈ n.children) :
    s.enclosing? c = if (s.role n).opensScope then some n else s.enclosing? n := by
  simp only [enclosing?, Node.ancestors_child member, List.find?_cons]
  cases (s.role n).opensScope <;> rfl

theorem callerOf_child (s : CallSearch) (member : c ∈ n.children) :
    s.callerOf c = (s.scopeName? n).getD (s.callerOf n) := by
  unfold callerOf
  rw [enclosing_child s member]
  cases role : s.role n <;> simp [CallRole.opensScope, scopeName?, role]

theorem enclosingClass_child (s : CallSearch) (member : c ∈ n.children) :
    s.enclosingClass? c =
      if (s.role n).opensScope then (s.role n).className? else s.enclosingClass? n := by
  unfold enclosingClass?
  rw [enclosing_child s member]
  cases (s.role n).opensScope <;> rfl

theorem waited_child (s : CallSearch) (member : c ∈ n.children) :
    s.isWaitedFor c = s.awaitsBelow n (s.isWaitedFor n) := by
  unfold isWaitedFor awaitsBelow
  rw [Node.ancestors_child member, List.find?_cons]
  cases awaits : s.forms.awaits.contains n.kind <;>
    cases parenthesis : parenthesisKinds.contains n.kind <;>
    simp_all

-- A node stands for a call exactly when it is searched, has the role of a call and
-- is a call site; its nearest scope is the caller.
theorem callOf_exact {call : FunctionCall} :
    s.callOf? n = some call ↔ s.isHidden n = false ∧ s.role n = .call ∧
      ∃ name, s.CalledFrom n name ∧ s.callAt? name (s.isWaitedFor n) n = some call := by
  unfold callOf?
  constructor
  · intro found
    split at found
    · cases found
    · rename_i shown
      split at found
      · rename_i role
        exact ⟨by simpa using shown, role, _, callerOf_sound s n, found⟩
      · cases found
      · cases found
      · cases found
  · rintro ⟨shown, role, name, called, found⟩
    rw [shown, role, calledFrom_exact.mp called]
    exact found

theorem callAt_caller {caller : String} {waited : Bool} {call : FunctionCall}
    (found : s.callAt? caller waited n = some call) :
    call.callerName = caller ∧ call.callerId = FunctionCall.callerIdOf s.filePath caller := by
  obtain ⟨site, _, rfl⟩ := Option.map_eq_some_iff.mp found
  exact ⟨rfl, rfl⟩

theorem callsWithin_eq (s : CallSearch) (n : Node) :
    s.callsWithin n = (s.callOf? n).toList ++ n.children.flatMap s.callsWithin := by
  unfold callsWithin
  rw [Node.preorder_eq, ← List.flatMap_def, List.filterMap_cons, List.filterMap_flatMap]
  cases s.callOf? n <;> rfl

theorem callsWithin_head (head : s.isHead n = true) : s.callsWithin n = [] := by
  apply List.filterMap_eq_nil_iff.mpr
  intro m below
  have above : n ∈ m :: m.ancestors :=
    (Node.ancestors_preorder below).subset (List.mem_cons_self ..)
  have hidden : s.isHidden m = true := List.any_eq_true.mpr ⟨n, above, head⟩
  simp only [callOf?, hidden, if_true]

end CallSearch

end CodeEntities
