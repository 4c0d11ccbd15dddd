import CodeEntities.Calls.Attribution
import CodeEntities.Proofs.Calls.Walk
import Mathlib.Data.List.Forall2

namespace CodeEntities

namespace Span

def First (spans : List Span) (s : Span) : Prop :=
  ∃ before after, spans = before ++ s :: after ∧
    (∀ b ∈ before, s.extent < b.extent) ∧ ∀ a ∈ after, s.extent ≤ a.extent

variable {spans : List Span} {s : Span}

theorem smallest_none : smallest? spans = none ↔ spans = [] := by
  cases spans with
  | nil => simp [smallest?]
  | cons s rest =>
    simp only [smallest?, List.cons_ne_nil, iff_false]
    split
    · split <;> exact Option.some_ne_none _
    · exact Option.some_ne_none _

theorem smallest_first (found : smallest? spans = some s) : First spans s := by
  induction spans generalizing s with
  | nil => cases found
  | cons head rest ih =>
    cases later : smallest? rest with
    | none =>
      simp only [smallest?, later, Option.some.injEq] at found
      cases smallest_none.mp later
      exact ⟨[], [], by rw [found]; rfl, by simp, by simp⟩
    | some t =>
      obtain ⟨before, after, split, larger, least⟩ := ih later
      simp only [smallest?, later] at found
      split at found
      · rename_i less
        cases found
        refine ⟨head :: before, after, by rw [split]; rfl, ?_, least⟩
        intro b member
        rcases List.mem_cons.mp member with rfl | member
        · exact less
        · exact larger b member
      · rename_i atLeast
        cases found
        refine ⟨[], rest, rfl, by simp, ?_⟩
        intro a member
        rw [split] at member
        rcases List.mem_append.mp member with member | member
        · have := larger a member
          omega
        · rcases List.mem_cons.mp member with rfl | member
          · omega
          · have := least a member
            omega

theorem first_smallest (first : First spans s) : smallest? spans = some s := by
  obtain ⟨before, after, rfl, larger, least⟩ := first
  induction before with
  | nil =>
    cases later : smallest? after with
    | none => simp [smallest?, later]
    | some t =>
      obtain ⟨_, _, rfl, _⟩ := smallest_first later
      have bound := least t (by simp)
      simp [smallest?, later, Nat.not_lt.mpr bound]
  | cons b before ih =>
    have found := ih fun b member => larger b (List.mem_cons_of_mem _ member)
    simp [smallest?, found, larger b (List.mem_cons_self ..)]

theorem smallest_exact : smallest? spans = some s ↔ First spans s := ⟨smallest_first, first_smallest⟩

end Span

namespace Outline

variable {o : Outline} {c : FunctionCall} {line : Nat}

def Covers (o : Outline) (line : Nat) : Prop :=
  ∃ s ∈ o.spans, s.location.startLine ≤ line ∧ line ≤ s.location.endLine

-- The smallest of the entities over the line, the one declared first among equals.
def Owns (o : Outline) (line : Nat) (s : Span) : Prop :=
  Span.First (o.spans.filter fun s => s.location.startLine ≤ line ∧ line ≤ s.location.endLine) s

-- Rules for a call before and after the entities of the file are consulted.
inductive Assigned (o : Outline) (c : FunctionCall) : FunctionCall → Prop where
  | moved {s} (topLevel : c.callerName = moduleScope) (owner : o.Owns c.line s) :
      Assigned o c (c.withCaller o.filePath s.name)
  | uncovered (topLevel : c.callerName = moduleScope) (outside : ¬ o.Covers c.line) :
      Assigned o c c
  | claimed (inside : c.callerName ≠ moduleScope) : Assigned o c c

theorem owner_exact {s : Span} : o.owner? line = some s ↔ o.Owns line s := by
  simp only [owner?, Span.smallest_exact, Owns, Location.containsLine, Bool.decide_and]

theorem owner_none : o.owner? line = none ↔ ¬ o.Covers line := by
  simp [owner?, Span.smallest_none, Covers, Location.containsLine, List.filter_eq_nil_iff]

theorem assign_owned {s : Span} (topLevel : c.callerName = moduleScope) (owner : o.Owns c.line s) :
    o.assign c = c.withCaller o.filePath s.name := by
  unfold assign
  rw [if_pos (beq_iff_eq.mpr topLevel), owner_exact.mpr owner]

theorem assign_claimed (inside : c.callerName ≠ moduleScope) : o.assign c = c := by
  unfold assign
  rw [if_neg (by simpa using inside)]

theorem assign_sound (o : Outline) (c : FunctionCall) : o.Assigned c (o.assign c) := by
  by_cases topLevel : c.callerName = moduleScope
  · cases owner : o.owner? c.line with
    | some s =>
      rw [assign_owned topLevel (owner_exact.mp owner)]
      exact .moved topLevel (owner_exact.mp owner)
    | none =>
      have same : o.assign c = c := by
        unfold assign
        rw [if_pos (beq_iff_eq.mpr topLevel), owner]
      rw [same]
      exact .uncovered topLevel (owner_none.mp owner)
  · rw [assign_claimed topLevel]
    exact .claimed topLevel

theorem memberName_ne (className name : String) : className ++ "." ++ name ≠ moduleScope := by
  intro same
  have chars := congrArg String.toList same
  have dot : '.' ∈ (className ++ "." ++ name).toList := by simp
  rw [chars] at dot
  revert dot
  decide

theorem Owns.mem {s : Span} (owner : o.Owns line s) : s ∈ o.spans := by
  obtain ⟨before, after, split, _⟩ := owner
  exact (List.mem_filter.mp (split ▸ List.mem_append_right before (List.mem_cons_self ..))).1

theorem Assigned.outside {before after : FunctionCall} (assigned : o.Assigned before after)
    (named : ∀ s ∈ o.spans, s.name ≠ moduleScope) (topLevel : after.callerName = moduleScope) :
    ¬ o.Covers after.line := by
  cases assigned with
  | moved _ owner => exact absurd topLevel (named _ owner.mem)
  | uncovered _ outside => exact outside
  | claimed inside => exact absurd topLevel inside

theorem Assigned.callerId {before after : FunctionCall} (assigned : o.Assigned before after)
    (walked : before.callerId = FunctionCall.callerIdOf o.filePath before.callerName) :
    after.callerId = FunctionCall.callerIdOf o.filePath after.callerName := by
  cases assigned with
  | moved _ _ => rfl
  | uncovered _ _ => exact walked
  | claimed _ => exact walked

end Outline

end CodeEntities
