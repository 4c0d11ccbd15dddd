import CodeEntities.Calls.Walk
import CodeEntities.Extract.Callable
import CodeEntities.Outline.Extract
import CodeEntities.Proofs.Loops.Basic

namespace CodeEntities

namespace Node

variable {β : Type} {n : Node} {k : Nat}

theorem stackSize_push {pushed : List Node} (smaller : stackSize pushed < n.size)
    (stack : List Node) : stackSize (pushed ++ stack) < stackSize (n :: stack) := by
  rw [stackSize_append]
  exact Nat.add_lt_add_right smaller _

theorem stackSize_below (n : Node) : stackSize n.children < n.size := by
  have less := stackSize_children n []
  rwa [List.append_nil] at less

-- A listing whose nodes lead to less than themselves ends within a turn for each node at and below
-- those on the stack, and one to see that the stack is empty.
theorem listing_result (read : Node → List β × List Node) (listed : Node → List β)
    (smaller : ∀ n, stackSize (read n).2 < n.size)
    (step : ∀ n, (read n).1 ++ (read n).2.flatMap listed = listed n)
    {stack : List Node} (enough : stackSize stack < k) :
    (Loop.listing read).within k ([], stack) = some (stack.flatMap listed) :=
  Loop.listing_result read stackSize listed (fun n stack => stackSize_push (smaller n) stack) step
    enough

section Search

variable (visit : Node → Visit)

def searchLoop : Loop (List Node) (Option Node) where
  turn
    | [] => .leave none
    | n :: stack =>
      match visit n with
      | .report => .leave (some n)
      | .enter => .next (n.children ++ stack)
      | .pass => .next stack

theorem search_lowers (stack later : List Node)
    (turn : (searchLoop visit).turn stack = .next later) : stackSize later < stackSize stack := by
  cases stack with
  | nil => cases turn
  | cons n stack =>
    simp only [searchLoop] at turn
    split at turn
    · cases turn
    · cases turn
      exact stackSize_children n stack
    · cases turn
      exact stackSize_pop n _

theorem search_worth (stack : List Node) :
    ((searchLoop visit).turn stack).worth (fun stack => (reportedOnStack visit stack).head?) =
      (reportedOnStack visit stack).head? := by
  cases stack with
  | nil => rw [reportedOnStack]; rfl
  | cons n stack =>
    rw [reportedOnStack]
    simp only [searchLoop]
    cases visit n <;> rfl

theorem search_result (n : Node) (enough : n.size < k) :
    (searchLoop visit).within k [n] = some (n.collect visit).head? := by
  have whole : stackSize [n] < k := enough
  rw [← List.flatMap_singleton (collect visit) n, ← reportedOnStack_eq]
  exact Loop.computes stackSize (fun stack => (reportedOnStack visit stack).head?)
    (search_lowers visit) (search_worth visit) whole

def collectStep (n : Node) : List Node × List Node :=
  match visit n with
  | .report => ([n], [])
  | .enter => ([], n.children)
  | .pass => ([], [])

theorem collect_result {stack : List Node} (enough : stackSize stack < k) :
    (Loop.listing (collectStep visit)).within k ([], stack) =
      some (stack.flatMap (collect visit)) := by
  refine listing_result (collectStep visit) (collect visit) (fun n => ?_) (fun n => ?_) enough
  · unfold collectStep
    cases visit n with
    | enter => exact stackSize_below n
    | report | pass => exact n.focus.size_pos
  · rw [collectStep, collect_eq]
    cases visit n with
    | enter => exact List.flatMap_def ..
    | report | pass => rfl

theorem collectBelow_result (n : Node) :
    (Loop.listing (collectStep visit)).within n.size ([], n.children) =
      some (n.collectBelow visit) := by
  rw [collectBelow_eq]
  exact collect_result visit (stackSize_below n)

def wantedVisit (wanted : Node → Bool) (n : Node) : Visit := if wanted n then .report else .enter

theorem firstOnStack_reported (wanted : Node → Bool) (stack : List Node) :
    (reportedOnStack (wantedVisit wanted) stack).head? = firstOnStack? wanted stack := by
  fun_induction firstOnStack? wanted stack with
  | case1 => rw [reportedOnStack]; rfl
  | case2 n stack found =>
    rw [reportedOnStack, wantedVisit, if_pos found]
    rfl
  | case3 n stack other ih =>
    rw [reportedOnStack, wantedVisit, if_neg other]
    exact ih

theorem first_result (wanted : Node → Bool) (n : Node) (enough : n.size < k) :
    (searchLoop (wantedVisit wanted)).within k [n] = some (firstOnStack? wanted [n]) := by
  rw [search_result _ n enough, ← firstOnStack_reported, reportedOnStack_eq,
    List.flatMap_singleton]

end Search

section Score

variable (source : String)

def scoreLoop : Loop (UInt32 × List Node) UInt32 :=
  Loop.overStack fun score n => (n.addDecisions source score, n.children.reverse)

theorem score_result (n : Node) (enough : n.size < k) :
    (scoreLoop source).within k (1, [n]) = some (scoreStack source 1 [n]) := by
  have whole : stackSize [n] < k := enough
  exact Loop.overStack_result _ stackSize (scoreStack source)
    (fun _ n stack => stackSize_reversed n stack) (fun score => scoreStack.eq_1 source score)
    (fun score n stack => (scoreStack.eq_2 source score n stack).symm) 1 whole

end Score

end Node

namespace CallSearch

variable (s : CallSearch)

def walkLoop : Loop CallWalk CallWalk where
  turn w :=
    match w.pending with
    | [] => .leave w
    | p :: rest => .next (s.visit { w with pending := rest } p)

theorem walk_lowers (w later : CallWalk) (turn : s.walkLoop.turn w = .next later) :
    CallWalk.workload later.pending < CallWalk.workload w.pending := by
  simp only [walkLoop] at turn
  split at turn
  · cases turn
  · next p rest pending =>
    cases turn
    rw [pending]
    exact s.workload_visit { w with pending := rest } p

theorem walk_worth (w : CallWalk) : (s.walkLoop.turn w).worth s.drain = s.drain w := by
  rw [drain.eq_def s w]
  simp only [walkLoop]
  split
  · next done =>
    split
    · rfl
    · next p rest pending => cases done.symm.trans pending
  · next p rest pending =>
    split
    · next done => cases done.symm.trans pending
    · next q others same => cases pending.symm.trans same; rfl

theorem walk_result (root : Node) {k : Nat} (enough : root.size < k) :
    s.walkLoop.within k { pending := [{ node := root }] } =
      some (s.drain { pending := [{ node := root }] }) :=
  Loop.computes (fun w : CallWalk => CallWalk.workload w.pending) s.drain s.walk_lowers s.walk_worth
    enough

end CallSearch

end CodeEntities
