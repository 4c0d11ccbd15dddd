import CodeEntities.Tree.Search

namespace CodeEntities

variable {α β γ σ ρ : Type}

inductive Turn (σ ρ : Type) where
  | next (state : σ)
  | leave (result : ρ)

def Turn.worth (value : σ → ρ) : Turn σ ρ → ρ
  | next state => value state
  | leave result => result

-- A loop is its body. Nothing says that it ever ends.
structure Loop (σ ρ : Type) where
  turn : σ → Turn σ ρ

namespace Loop

variable {l : Loop σ ρ} {s : σ} {k : Nat}

def within (l : Loop σ ρ) : Nat → σ → Option ρ
  | 0, _ => none
  | k + 1, s =>
    match l.turn s with
    | .next later => l.within k later
    | .leave result => some result

-- A number that every turn lowers runs out. `good` is what the states have in common.
theorem ends (good : σ → Prop) (left : σ → Nat)
    (lowers : ∀ s later, good s → l.turn s = .next later → good later ∧ left later < left s)
    (start : good s) (enough : left s < k) : ∃ r, l.within k s = some r := by
  induction k generalizing s with
  | zero => exact absurd enough (Nat.not_lt_zero _)
  | succ k ih =>
    rw [within]
    split
    · next later turn =>
      obtain ⟨stays, lower⟩ := lowers s later start turn
      exact ih stays (by omega)
    · next result turn => exact ⟨result, rfl⟩

theorem never_ends (trapped : σ → Prop)
    (stays : ∀ s, trapped s → ∃ later, l.turn s = .next later ∧ trapped later)
    (start : trapped s) (k : Nat) : l.within k s = none := by
  induction k generalizing s with
  | zero => rfl
  | succ k ih =>
    obtain ⟨later, turn, still⟩ := stays s start
    rw [within, turn]
    exact ih still

-- If no turn changes what the state is worth, the loop ends with what it started with.
theorem result (good : σ → Prop) (left : σ → Nat) (value : σ → ρ)
    (lowers : ∀ s later, good s → l.turn s = .next later → good later ∧ left later < left s)
    (keeps : ∀ s, good s → (l.turn s).worth value = value s)
    (start : good s) (enough : left s < k) : l.within k s = some (value s) := by
  induction k generalizing s with
  | zero => exact absurd enough (Nat.not_lt_zero _)
  | succ k ih =>
    have same := keeps s start
    rw [within]
    split
    · next later turn =>
      obtain ⟨stays, lower⟩ := lowers s later start turn
      rw [turn] at same
      rw [← same]
      exact ih stays (by omega)
    · next found turn =>
      rw [turn] at same
      rw [← same]
      rfl

theorem computes (left : σ → Nat) (value : σ → ρ)
    (lowers : ∀ s later, l.turn s = .next later → left later < left s)
    (keeps : ∀ s, (l.turn s).worth value = value s) (enough : left s < k) :
    l.within k s = some (value s) :=
  result (fun _ => True) left value (fun s later _ turn => ⟨trivial, lowers s later turn⟩)
    (fun s _ => keeps s) trivial enough

-- A loop over a stack: the topmost entry is taken off and read, and the entries that it leads to
-- are put on top of the others. The loop is left when the stack is empty.
def overStack (read : γ → α → γ × List α) : Loop (γ × List α) γ where
  turn
    | (found, []) => .leave found
    | (found, entry :: stack) => .next ((read found entry).1, (read found entry).2 ++ stack)

theorem overStack_result (read : γ → α → γ × List α) (size : List α → Nat)
    (value : γ → List α → γ)
    (smaller : ∀ found entry stack,
      size ((read found entry).2 ++ stack) < size (entry :: stack))
    (empty : ∀ found, value found [] = found)
    (step : ∀ found entry stack,
      value (read found entry).1 ((read found entry).2 ++ stack) = value found (entry :: stack))
    (found : γ) {stack : List α} (enough : size stack < k) :
    (overStack read).within k (found, stack) = some (value found stack) := by
  refine computes (fun s : γ × List α => size s.2) (fun s => value s.1 s.2) ?_ ?_ enough
  · rintro ⟨found, stack⟩ later turn
    cases stack with
    | nil => cases turn
    | cons entry stack =>
      cases turn
      exact smaller found entry stack
  · rintro ⟨found, stack⟩
    cases stack with
    | nil => exact (empty found).symm
    | cons entry stack => exact step found entry stack

def listing (read : α → List β × List α) : Loop (List β × List α) (List β) :=
  overStack fun found entry => (found ++ (read entry).1, (read entry).2)

theorem listing_result (read : α → List β × List α) (size : List α → Nat) (listed : α → List β)
    (smaller : ∀ entry stack, size ((read entry).2 ++ stack) < size (entry :: stack))
    (step : ∀ entry, (read entry).1 ++ (read entry).2.flatMap listed = listed entry)
    {stack : List α} (enough : size stack < k) :
    (listing read).within k ([], stack) = some (stack.flatMap listed) := by
  have ended := overStack_result (fun found entry => (found ++ (read entry).1, (read entry).2))
    size (fun found stack => found ++ stack.flatMap listed) (fun _ => smaller)
    (fun _ => List.append_nil _) ?_ [] enough
  · rwa [List.nil_append] at ended
  · intro found entry stack
    simp only [List.flatMap_append, List.flatMap_cons, ← step entry, List.append_assoc]

end Loop

end CodeEntities
