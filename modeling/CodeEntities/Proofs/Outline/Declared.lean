import CodeEntities.Proofs.Outline.Located
import CodeEntities.Proofs.Tree.ModuleLevel

namespace CodeEntities

namespace Node

variable {n whole root : Node}

-- A declaration is shown alone, or with the decorators or the template around it.
def Around (n whole : Node) : Prop :=
  whole = n ∨ n.parent? = some whole ∧ whole.kind ∈ holderKinds

theorem around_self (n : Node) : n.Around n := .inl rfl

theorem heldIn_around {kind : String} (holder : kind ∈ holderKinds) :
    n.Around (n.heldIn kind) := by
  unfold heldIn
  cases held : n.parent?.filter (·.kind == kind) with
  | none => exact around_self n
  | some p =>
    obtain ⟨parent, same⟩ := Option.filter_eq_some_iff.mp held
    exact .inr ⟨parent, eq_of_beq same ▸ holder⟩

theorem Around.below (around : n.Around whole) (inside : n ∈ root.descendants) :
    whole ∈ root.preorder := by
  rcases around with rfl | ⟨parent, _⟩
  · exact (descendants_sublist root).subset inside
  · exact parent_below inside parent

theorem Around.start_le (around : n.Around whole) (placed : root.WellPlaced)
    (inside : n ∈ root.descendants) : whole.label.start ≤ n.label.start := by
  rcases around with rfl | ⟨parent, _⟩
  · exact Nat.le_refl _
  · have held : n.heldIn whole.kind = whole := by
      rw [heldIn, parent, Option.filter_some, if_pos (beq_self_eq_true _), Option.getD_some]
    exact held ▸ heldIn_start placed inside

end Node

-- What a function shows of the node that declares it and of further clauses: the text of the
-- one, the stretch from it to the last, and the branches of all.
def FunctionDecl.BuiltFrom (cx : Context) (f : FunctionDecl) (first : Node) (more : List Node) :
    Prop :=
  ∃ whole, first.Around whole ∧ f.body = cx.body whole ∧
    f.location = cx.span whole (more.getLast?.getD whole) ∧
    f.complexity = if cx.options.complexity then
      more.foldl (fun total n => total + cx.complexity n) (cx.complexity whole) else 1

namespace Context

variable {cx : Context} {n k whole root : Node} {nodes others : List Node} {f : FunctionDecl}

-- Some of the nodes, in their order, are what a function is built from.
def DeclaredBy (cx : Context) (nodes : List Node) (f : FunctionDecl) : Prop :=
  ∃ first more, (first :: more).Sublist nodes ∧ f.BuiltFrom cx first more

theorem function_built (around : n.Around whole) (name : String) (parts : Callable) :
    (cx.function whole name parts).BuiltFrom cx n [] := by
  refine ⟨whole, around, rfl, rfl, ?_⟩
  simp only [function, complexity, List.foldl_nil]
  split
  · rfl
  · rfl

theorem function_read {found : Option String} {parts : String → Callable}
    (around : n.Around whole)
    (read : (found.map fun name => cx.function whole name (parts name)) = some f) :
    f.BuiltFrom cx n [] := by
  obtain ⟨name, _, rfl⟩ := Option.map_eq_some_iff.mp read
  exact function_built around name (parts name)

theorem declared_below (below : n ∈ nodes) (built : f.BuiltFrom cx n []) : cx.DeclaredBy nodes f :=
  ⟨n, [], List.singleton_sublist.mpr below, built⟩

theorem DeclaredBy.imp (declared : cx.DeclaredBy nodes f) (inOrder : nodes.Sublist others) :
    cx.DeclaredBy others f := by
  obtain ⟨first, more, listed, built⟩ := declared
  exact ⟨first, more, listed.trans inOrder, built⟩

theorem DeclaredBy.pass (declared : cx.DeclaredBy nodes f) (k : Node) :
    cx.DeclaredBy (nodes ++ [k]) f :=
  declared.imp (List.sublist_append_left nodes [k])

def Homed (cx : Context) (homes : List Node) (f : FunctionDecl) : Prop :=
  ∃ home ∈ homes, cx.DeclaredBy home.preorder f

-- Where the tree is well placed, a location lies between nodes of it.
def Placed (cx : Context) (root : Node) (l : Location) : Prop :=
  root.WellPlaced → cx.Spanned root l

theorem stretch_spanned {first : Node} {more : List Node} (around : first.Around whole)
    (inOrder : (first :: more).Sublist root.descendants) :
    cx.Placed root (cx.span whole (more.getLast?.getD whole)) := by
  intro placed
  have firstInside := inOrder.subset (List.mem_cons_self ..)
  have wholeBelow := around.below firstInside
  cases last : more.getLast? with
  | none => exact spanned_below wholeBelow
  | some k =>
    have member := List.mem_of_getLast? last
    have behind := inOrder.trans (Node.descendants_sublist root)
    have starts := List.pairwise_cons.mp (placed.preorder_starts.sublist behind)
    refine ⟨whole, wholeBelow, k, behind.subset (List.mem_cons_of_mem first member), ?_, rfl⟩
    exact Nat.le_trans (around.start_le placed firstInside) (starts.1 k member)

theorem DeclaredBy.placed (declared : cx.DeclaredBy nodes f)
    (inside : nodes.Sublist root.descendants) : cx.Placed root f.location := by
  obtain ⟨first, more, listed, whole, around, _, place, _⟩ := declared
  exact place ▸ stretch_spanned around (listed.trans inside)

def Stretch (cx : Context) (nodes : List Node) (l : Location) : Prop :=
  ∃ first more, (first :: more).Sublist nodes ∧ l = cx.span first (more.getLast?.getD first)

variable {l : Location}

theorem stretch_node (below : k ∈ nodes) : cx.Stretch nodes (cx.location k) :=
  ⟨k, [], List.singleton_sublist.mpr below, rfl⟩

theorem Stretch.pass (stretch : cx.Stretch nodes l) (k : Node) : cx.Stretch (nodes ++ [k]) l := by
  obtain ⟨first, more, listed, same⟩ := stretch
  exact ⟨first, more, listed.trans (List.sublist_append_left nodes [k]), same⟩

theorem Stretch.extend (stretch : cx.Stretch nodes l) (k : Node) :
    cx.Stretch (nodes ++ [k]) { l with
      endLine := (cx.location k).endLine
      endColumn := (cx.location k).endColumn } := by
  obtain ⟨first, more, listed, rfl⟩ := stretch
  refine ⟨first, more ++ [k], listed.append (List.Sublist.refl [k]), ?_⟩
  rw [List.getLast?_concat]
  rfl

theorem Stretch.placed (stretch : cx.Stretch nodes l) (inside : nodes.Sublist root.descendants) :
    cx.Placed root l := by
  obtain ⟨first, more, listed, rfl⟩ := stretch
  exact stretch_spanned (Node.around_self first) (listed.trans inside)

theorem foldl_seen {α β : Type} {motive : List α → β → Prop} {add : β → α → β} {start : β}
    {entries : List α} (initial : motive [] start)
    (step : ∀ seen a b, seen ++ [a] <+: entries → motive seen b → motive (seen ++ [a]) (add b a)) :
    motive entries (entries.foldl add start) := by
  induction entries using List.reverseRecOn with
  | nil => exact initial
  | append_singleton seen a ih =>
    rw [List.foldl_append]
    refine step seen a _ (List.prefix_refl _) (ih fun earlier b found before => ?_)
    exact step earlier b found (before.trans (List.prefix_append seen [a]))

end Context

end CodeEntities
