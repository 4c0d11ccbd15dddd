import CodeEntities.Proofs.Calls.Caller

namespace CodeEntities.CallSearch

variable {s : CallSearch} {root : Node} {w : CallWalk} {p q : PendingNode}

def Names (scopes : List String) (i : Nat) (name : String) : Prop := scopes[i]? = some name

theorem Names.grown {scopes names : List String} {i : Nat} {name : String}
    (known : Names scopes i name) : Names (scopes ++ names) i name := by
  obtain ⟨bound, _⟩ := List.getElem?_eq_some_iff.mp known
  exact (List.getElem?_append_left bound).trans known

theorem Names.rel_grown {scopes names : List String} {i : Option Nat} {name : Option String}
    (known : Option.Rel (Names scopes) i name) : Option.Rel (Names (scopes ++ names)) i name := by
  cases known with
  | none => exact .none
  | some known => exact .some known.grown

theorem Names.scopeName {i : Nat} {name : String} (known : Names w.scopes i name) :
    w.scopeName i = name := by
  unfold CallWalk.scopeName
  rw [known, Option.getD_some]

theorem Names.map_scopeName {i : Option Nat} {name : Option String}
    (known : Option.Rel (Names w.scopes) i name) : i.map w.scopeName = name := by
  cases known with
  | none => rfl
  | some known => rw [Option.map_some, known.scopeName]

-- What a walk knows about a pending node is what the nodes above it say. Of the
-- skipped heads only those at or below the node matter to it.
structure Placed (s : CallSearch) (scopes : List String) (skipped : List Node)
    (p : PendingNode) : Prop where
  scope : Names scopes p.scope (s.callerOf p.node)
  classScope : Option.Rel (Names scopes) p.classScope (s.enclosingClass? p.node)
  waited : p.isAwaited = s.isWaitedFor p.node
  above : p.node.ancestors.any s.isHead = false
  skipped : ∀ m, Node.Within p.node m →
    skipped.any m.isSame = p.node.ancestors.any fun d => (s.role d).head?.any m.isSame

-- The calls found so far and those within the pending nodes are all the calls.
structure Sound (s : CallSearch) (root : Node) (w : CallWalk) : Prop where
  placed : ∀ p ∈ w.pending, Placed s w.scopes w.skipped p
  apart : w.pending.Pairwise fun p q => Node.Apart p.node q.node
  calls : w.calls ++ w.pending.flatMap (fun p => s.callsWithin p.node) = s.callsWithin root

theorem initial_sound (s : CallSearch) (t : Tree) :
    Sound s (.root t) { pending := [{ node := .root t }] } := by
  refine ⟨?_, List.pairwise_singleton _ _, by simp⟩
  intro p member
  cases List.mem_singleton.mp member
  exact ⟨rfl, .none, rfl, rfl, fun _ _ => rfl⟩

theorem Placed.isHead (placed : Placed s w.scopes w.skipped p) :
    w.skipped.any p.node.isSame = s.isHead p.node := placed.skipped _ (.refl _)

theorem Placed.isHidden (placed : Placed s w.scopes w.skipped p) :
    s.isHidden p.node = s.isHead p.node := by
  simp only [CallSearch.isHidden, List.any_cons, placed.above, Bool.or_false]

theorem Placed.retained {scopes names : List String} {skipped heads : List Node}
    (placed : Placed s scopes skipped q) (below : ∀ h ∈ heads, Node.Within p.node h)
    (apart : Node.Apart p.node q.node) : Placed s (scopes ++ names) (heads ++ skipped) q where
  scope := placed.scope.grown
  classScope := Names.rel_grown placed.classScope
  waited := placed.waited
  above := placed.above
  skipped := by
    intro m within
    have other : heads.any m.isSame = false := by
      apply List.any_eq_false.mpr
      intro h member same
      have path : m.path = h.path := by simpa [Node.isSame] using same
      exact apart m (path ▸ below h member : p.node.path <:+ m.path) within
    rw [List.any_append, other, Bool.false_or]
    exact placed.skipped m within

theorem enter_scopes (placed : Placed s w.scopes w.skipped p) :
    (s.enter w p).1.scopes = w.scopes ++ (s.scopeName? p.node).toList := by
  unfold enter scopeName?
  rw [Names.map_scopeName placed.classScope]
  cases s.role p.node <;> simp

theorem enter_skipped (s : CallSearch) (w : CallWalk) (p : PendingNode) :
    (s.enter w p).1.skipped = (s.role p.node).head?.toList ++ w.skipped := by
  unfold enter
  cases s.role p.node <;> simp [CallRole.head?]

theorem enter_calls (placed : Placed s w.scopes w.skipped p) (shown : s.isHead p.node = false) :
    (s.enter w p).1.calls = w.calls ++ (s.callOf? p.node).toList := by
  have visible : s.isHidden p.node = false := placed.isHidden.trans shown
  unfold enter callOf?
  rw [visible, placed.scope.scopeName, placed.waited]
  cases s.role p.node <;> simp

theorem enter_scope (placed : Placed s w.scopes w.skipped p) {c : Node}
    (member : c ∈ p.node.children) :
    Names (s.enter w p).1.scopes (s.enter w p).2.1 (s.callerOf c) := by
  rw [enter_scopes placed, callerOf_child s member]
  unfold enter scopeName?
  cases s.role p.node with
  | definition name head => simp [Names]
  | container name => simp [Names]
  | call => exact placed.scope.grown
  | other => exact placed.scope.grown

theorem enter_classScope (placed : Placed s w.scopes w.skipped p) {c : Node}
    (member : c ∈ p.node.children) :
    Option.Rel (Names (s.enter w p).1.scopes) (s.enter w p).2.2 (s.enclosingClass? c) := by
  rw [enter_scopes placed, enclosingClass_child s member]
  unfold enter scopeName?
  cases s.role p.node with
  | definition name head => exact .none
  | container name => exact .some (by simp [Names])
  | call => exact Names.rel_grown placed.classScope
  | other => exact Names.rel_grown placed.classScope

-- The children of a visited node are placed by what the visit made of the walk.
theorem child_placed (placed : Placed s w.scopes w.skipped p) (shown : s.isHead p.node = false)
    {c : Node} (member : c ∈ p.node.children) :
    Placed s (s.enter w p).1.scopes (s.enter w p).1.skipped
      { node := c
        scope := (s.enter w p).2.1
        classScope := (s.enter w p).2.2
        isAwaited := s.awaitsBelow p.node p.isAwaited } where
  scope := enter_scope placed member
  classScope := enter_classScope placed member
  waited := by rw [waited_child s member, placed.waited]
  above := by
    rw [Node.ancestors_child member, List.any_cons, shown, placed.above, Bool.or_false]
  skipped := by
    intro m within
    rw [enter_skipped, Node.ancestors_child member, List.any_append, List.any_cons,
      placed.skipped m (.of_child member within)]
    cases (s.role p.node).head? <;> simp

theorem enter_retains (placed : Placed s w.scopes w.skipped p)
    (other : Placed s w.scopes w.skipped q) (apart : Node.Apart p.node q.node) :
    Placed s (s.enter w p).1.scopes (s.enter w p).1.skipped q := by
  rw [enter_scopes placed, enter_skipped]
  refine other.retained ?_ apart
  intro h found
  exact head_within (Option.mem_toList.mp found)

theorem pass_head (sound : Sound s root { w with pending := p :: w.pending })
    (head : s.isHead p.node = true) : Sound s root w := by
  obtain ⟨placed, apart, calls⟩ := sound
  refine ⟨fun q member => placed q (List.mem_cons_of_mem _ member), apart.of_cons, ?_⟩
  rw [List.flatMap_cons, callsWithin_head head] at calls
  exact calls

theorem visit_preserves (sound : Sound s root { w with pending := p :: w.pending }) :
    Sound s root (s.visit w p) := by
  have known : Placed s w.scopes w.skipped p := sound.placed p (List.mem_cons_self ..)
  unfold visit
  rw [known.isHead]
  cases shown : s.isHead p.node with
  | true => exact pass_head sound shown
  | false =>
    obtain ⟨placed, apart, calls⟩ := sound
    obtain ⟨here, apart⟩ := List.pairwise_cons.mp apart
    simp only [Bool.false_eq_true, if_false]
    refine ⟨?_, ?_, ?_⟩
    · intro q found
      rw [enter_pending] at found
      rcases List.mem_append.mp found with child | old
      · obtain ⟨c, member, rfl⟩ := List.mem_map.mp child
        exact child_placed known shown member
      · exact enter_retains known (placed q (List.mem_cons_of_mem _ old)) (here q old)
    · rw [enter_pending, List.pairwise_append, List.pairwise_map]
      refine ⟨Node.children_apart p.node, apart, ?_⟩
      intro one child two old
      obtain ⟨c, member, rfl⟩ := List.mem_map.mp child
      exact (here two old).of_child member
    · rw [enter_calls known shown, enter_pending, List.flatMap_append, List.flatMap_map]
      rw [List.flatMap_cons, callsWithin_eq] at calls
      simpa using calls

theorem drain_sound (sound : Sound s root w) :
    Sound s root (s.drain w) ∧ (s.drain w).pending = [] := by
  fun_induction drain s w with
  | case1 w done => exact ⟨sound, done⟩
  | case2 w p rest next ih =>
    have popped : w = { w with pending := p :: rest } := by rw [← next]
    rw [popped] at sound
    exact ih (visit_preserves sound)

theorem drain_calls (s : CallSearch) (t : Tree) :
    (s.drain { pending := [{ node := .root t }] }).calls = s.callsWithin (.root t) := by
  obtain ⟨sound, finished⟩ := drain_sound (initial_sound s t)
  have found := sound.calls
  rw [finished] at found
  simpa using found

theorem run_eq (s : CallSearch) (t : Tree) :
    s.run (.root t) = (s.callsWithin (.root t)).mergeSort startsBy := by
  unfold run
  rw [drain_calls]

theorem mem_run {t : Tree} {call : FunctionCall} :
    call ∈ s.run (.root t) ↔ ∃ n ∈ (Node.root t).preorder, s.callOf? n = some call := by
  rw [run_eq, List.mem_mergeSort]
  exact List.mem_filterMap

end CodeEntities.CallSearch
