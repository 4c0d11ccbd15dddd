import CodeEntities.Extract.Complexity
import CodeEntities.Proofs.Tree.ModuleLevel
import Mathlib.Logic.Relation

namespace CodeEntities.Node

variable {source : String} {n m : Node}

def sumOver (f : Node → Nat) : List Node → Nat
  | [] => 0
  | n :: ns => f n + sumOver f ns

theorem sumOver_append (f : Node → Nat) (ns ms : List Node) :
    sumOver f (ns ++ ms) = sumOver f ns + sumOver f ms := by
  induction ns with
  | nil => simp [sumOver]
  | cons n ns ih => simp [sumOver, ih, Nat.add_assoc]

theorem sumOver_perm {f : Node → Nat} {ns ms : List Node} (same : ns.Perm ms) :
    sumOver f ns = sumOver f ms := by
  induction same with
  | nil => rfl
  | cons n _ ih => simp [sumOver, ih]
  | swap n m ns => exact Nat.add_left_comm ..
  | trans _ _ first second => exact first.trans second

theorem sumOver_sublist {f : Node → Nat} {ns ms : List Node} (fewer : ns.Sublist ms) :
    sumOver f ns ≤ sumOver f ms := by
  induction fewer with
  | slnil => exact Nat.le_refl _
  | cons m _ ih => exact Nat.le_trans ih (Nat.le_add_left ..)
  | cons_cons m _ ih => exact Nat.add_le_add_left ih _

theorem sumOver_congr {f g : Node → Nat} {ns : List Node} (same : ∀ n ∈ ns, f n = g n) :
    sumOver f ns = sumOver g ns := by
  induction ns with
  | nil => rfl
  | cons n ns ih =>
    obtain ⟨here, later⟩ := List.forall_mem_cons.mp same
    rw [sumOver, sumOver, here, ih later]

theorem sumOver_flatten (f : Node → Nat) (below : Node → List Node) (ns : List Node) :
    sumOver f (ns.map below).flatten = sumOver (fun n => sumOver f (below n)) ns := by
  induction ns with
  | nil => rfl
  | cons n ns ih => rw [List.map_cons, List.flatten_cons, sumOver_append, ih, sumOver]

def decisions (source : String) (n : Node) : Nat :=
  (if n.isBranch source then 1 else 0) + n.booleanOperatorCount

-- Decisions made at the node and at all nodes below it.
def totalDecisions (source : String) (n : Node) : Nat :=
  sumOver (decisions source) (n :: n.descendants)

theorem totalDecisions_eq (source : String) (n : Node) :
    n.totalDecisions source =
      n.decisions source + sumOver (totalDecisions source) n.children := by
  rw [totalDecisions, sumOver, descendants, sumOver_flatten]
  refine congrArg _ (sumOver_congr fun c _ => ?_)
  rw [totalDecisions, preorder_eq, descendants]

theorem operators_le_tokens (n : Node) :
    n.booleanOperatorCount ≤ n.children.countP (!·.isNamed) := by
  unfold booleanOperatorCount
  split
  · exact List.countP_mono_left fun c _ both => (Bool.and_eq_true_iff.mp both).1
  · exact Nat.zero_le _

theorem branch_or_token (source : String) (n : Node) :
    (if n.isBranch source then 1 else 0) + (if !n.isNamed then 1 else 0) ≤ 1 := by
  unfold isBranch
  cases n.isNamed with
  | true => split <;> simp
  | false => simp

theorem sumOver_bound {f : Node → Nat} {p : Node → Bool} {ns : List Node}
    (bounded : ∀ c ∈ ns, f c + (if p c then 1 else 0) ≤ c.size) :
    sumOver f ns + ns.countP p ≤ stackSize ns := by
  induction ns with
  | nil => exact Nat.le_refl _
  | cons c ns ih =>
    obtain ⟨here, later⟩ := List.forall_mem_cons.mp bounded
    have rest := ih later
    rw [sumOver, List.countP_cons]
    change _ ≤ c.size + stackSize ns
    omega

-- Every node counts at most once: a named node as a branch, a token as an operator of its parent.
-- The induction therefore leaves a token out at its own place.
theorem totalDecisions_bound (source : String) (n : Node) :
    n.totalDecisions source + (if !n.isNamed then 1 else 0) ≤ n.size := by
  induction n using Node.induction with
  | step n ih =>
    have below := sumOver_bound ih
    have operators := operators_le_tokens n
    have branches := branch_or_token source n
    have size : n.size = 1 + stackSize n.children := by
      rw [size, Tree.size_eq, stackSize, children_focus]
    rw [totalDecisions_eq, decisions, size]
    omega

theorem totalDecisions_le (source : String) (n : Node) : n.totalDecisions source ≤ n.size :=
  Nat.le_trans (Nat.le_add_right ..) (totalDecisions_bound source n)

structure Tally where
  score : UInt32
  pending : List Node

namespace Tally

variable {t u : Tally}

-- Any pending node may be visited next, and its children may be put anywhere among the others.
inductive Visits (source : String) : Tally → Tally → Prop where
  | visit {score : UInt32} {n : Node} {pending rest next : List Node}
      (taken : pending.Perm (n :: rest)) (put : next.Perm (n.children ++ rest)) :
      Visits source ⟨score, pending⟩ ⟨n.addDecisions source score, next⟩

def Reaches (source : String) : Tally → Tally → Prop := Relation.ReflTransGen (Visits source)

def due (source : String) (t : Tally) : Nat :=
  t.score.toNat + sumOver (totalDecisions source) t.pending

theorem addDecisions_exact {score : UInt32}
    (room : score.toNat + n.decisions source < 4294967296) :
    (n.addDecisions source score).toNat = score.toNat + n.decisions source := by
  have branch : (if n.isBranch source then score + 1 else score).toNat =
      score.toNat + if n.isBranch source then 1 else 0 := by
    unfold decisions at room
    split at room
    · next isBranch =>
      have one : (1 : UInt32).toNat = 1 := rfl
      rw [if_pos isBranch, if_pos isBranch, UInt32.toNat_add, one]
      exact Nat.mod_eq_of_lt (by omega)
    · next other => rw [if_neg other, if_neg other, Nat.add_zero]
  have operators : n.booleanOperatorCount.toUInt32.toNat = n.booleanOperatorCount :=
    Nat.mod_eq_of_lt (by unfold decisions at room; omega)
  rw [addDecisions, UInt32.toNat_add, branch, operators, Nat.add_assoc]
  exact Nat.mod_eq_of_lt room

theorem pending_room (room : t.due source < 4294967296) (pending : m ∈ t.pending) :
    t.score.toNat + m.decisions source < 4294967296 := by
  have listed := sumOver_sublist (f := totalDecisions source) (List.singleton_sublist.mpr pending)
  have own := totalDecisions_eq source m
  unfold due at room
  simp only [sumOver] at listed
  omega

-- A visit takes the decisions of a node out of what is pending and puts them into the score.
theorem Visits.keeps (step : Visits source t u) (room : t.due source < 4294967296) :
    u.due source = t.due source := by
  cases step with
  | visit taken put =>
    rename_i score n pending rest next
    have added := addDecisions_exact (pending_room room (taken.mem_iff.mpr (List.mem_cons_self ..)))
    simp only [due, added, sumOver_perm taken, sumOver_perm put, sumOver_append, sumOver,
      totalDecisions_eq source n]
    omega

theorem Reaches.keeps (run : Reaches source t u) (room : t.due source < 4294967296) :
    u.due source = t.due source := by
  induction run with
  | refl => rfl
  | tail _ step ih => exact (step.keeps (ih ▸ room)).trans ih

theorem scoreStack_reaches (source : String) (score : UInt32) (stack : List Node) :
    Reaches source ⟨score, stack⟩ ⟨scoreStack source score stack, []⟩ := by
  fun_induction scoreStack source score stack with
  | case1 score => exact .refl
  | case2 score n stack ih =>
    exact .head (.visit (.refl _) ((List.reverse_perm n.children).append_right stack)) ih

end Tally

theorem due_start (source : String) (n : Node) :
    Tally.due source ⟨1, [n]⟩ = 1 + n.totalDecisions source := rfl

theorem start_room (small : n.size < 2147483648) : Tally.due source ⟨1, [n]⟩ < 4294967296 := by
  have total := totalDecisions_le source n
  rw [due_start]
  omega

theorem cyclomatic_exact (small : n.size < 2147483648) :
    n.cyclomatic source = 1 + n.totalDecisions source := by
  have added := (Tally.scoreStack_reaches source 1 [n]).keeps (start_room small)
  rwa [due_start] at added

-- The complexity of a node is one more than all decisions at and below it. In whichever order the
-- pending nodes are visited, no addition overflows and the same score comes out; the stack is one
-- such order. What a node adds to its children are its own decisions, and no node below it is more
-- complex.
theorem cyclomatic_adds_up (small : n.size < 2147483648) :
    n.cyclomatic source = 1 + sumOver (decisions source) (n :: n.descendants) ∧
    (∀ t, Tally.Reaches source ⟨1, [n]⟩ t →
      (∀ m ∈ t.pending, t.score.toNat + m.decisions source < 4294967296) ∧
      (t.pending = [] → t.score.toNat = n.cyclomatic source)) ∧
    Tally.Reaches source ⟨1, [n]⟩ ⟨scoreStack source 1 [n], []⟩ ∧
    1 ≤ n.cyclomatic source ∧
    n.cyclomatic source - 1 =
      n.decisions source + sumOver (fun c => c.cyclomatic source - 1) n.children ∧
    ∀ m ∈ n.descendants, m.cyclomatic source ≤ n.cyclomatic source := by
  have total : n.cyclomatic source = 1 + n.totalDecisions source := cyclomatic_exact small
  refine ⟨total, ?_, Tally.scoreStack_reaches source 1 [n], by omega, ?_, ?_⟩
  · intro t run
    have room : Tally.due source ⟨1, [n]⟩ < 4294967296 := start_room small
    have kept := run.keeps room
    refine ⟨fun m => Tally.pending_room (kept ▸ room), fun done => ?_⟩
    rw [total, ← due_start source n, ← kept, Tally.due, done]
    rfl
  · have children : sumOver (fun c => c.cyclomatic source - 1) n.children =
        sumOver (totalDecisions source) n.children := by
      refine sumOver_congr fun c child => ?_
      have less := size_child child
      rw [cyclomatic_exact (by omega), Nat.add_sub_cancel_left]
    rw [total, children, Nat.add_sub_cancel_left, totalDecisions_eq]
  · intro m below
    have within : m ∈ n.preorder := (descendants_sublist n).subset below
    have less := size_preorder within
    have part : m.totalDecisions source ≤ n.totalDecisions source := by
      have inside := sumOver_sublist (f := decisions source) (preorder_sublist within)
      rwa [preorder_eq m, preorder_eq n] at inside
    rw [total, cyclomatic_exact (by omega)]
    omega

-- `if (a && b) c`, where the keyword `if` is a token of the name of a branch.
def guardedStatement : Tree :=
  .whole "if_statement" 0 13 none [
    .token "if" 0,
    .whole "parenthesized_expression" 3 11 (some "condition") [
      .token "(" 3,
      .whole "binary_expression" 4 10 none [
        .whole "identifier" 4 5 (some "left") [],
        .token "&&" 6,
        .whole "identifier" 9 10 (some "right") []],
      .token ")" 10],
    .whole "identifier" 12 13 (some "consequence") []]

theorem guarded_statement_adds_up :
    let source := "if (a && b) c"
    let n : Node := .root guardedStatement
    n.size < 2147483648 ∧ n.cyclomatic source = 3 ∧
      n.children.map (fun c => c.cyclomatic source - 1) = [0, 1, 0] ∧
      n.cyclomatic source - 1 =
        n.decisions source + sumOver (fun c => c.cyclomatic source - 1) n.children := by
  intro source n
  have small : n.size < 2147483648 := by decide +kernel
  have added := @cyclomatic_adds_up source n small
  exact ⟨small, by decide +kernel, by decide +kernel, added.2.2.2.2.1⟩

end CodeEntities.Node
