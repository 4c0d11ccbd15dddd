import CodeEntities.Proofs.Rules.Basic

namespace CodeEntities

structure ClassHead where
  name : String
  kind : ClassKind
  opening : Text.Position
  deriving Repr, DecidableEq

def ClassDecl.head (c : ClassDecl) : ClassHead := ⟨c.name, c.kind, c.location.opening⟩

theorem head_listed {classes : List ClassDecl} {heads : List ClassHead} {c : ClassDecl}
    (listed : classes.map (·.head) = heads) (member : c ∈ classes) : c.head ∈ heads :=
  listed ▸ List.mem_map_of_mem member

theorem inOrder_heads {classes : List ClassDecl} : InOrder (·.location) classes ↔
    (classes.map (·.head)).Pairwise fun a b => a.opening ≤ b.opening := by
  rw [List.pairwise_map]
  rfl

namespace Rules

-- The classes that nodes declare and, behind them, those that only definitions apart from
-- their type tell of.
structure Runs (classes declared extensions : List ClassDecl) : Prop where
  split : classes = declared ++ extensions
  declaredInOrder : InOrder (·.location) declared
  extensionsInOrder : InOrder (·.location) extensions
  declaredKinds : ∀ c ∈ declared, c.kind ≠ .extension
  extensionKinds : ∀ e ∈ extensions, e.kind = .extension
  undeclared : ∀ e ∈ extensions, ∀ c ∈ declared, c.name ≠ e.name

-- Two runs in order are in order together exactly when no class of the second starts before
-- one of the first.
theorem Runs.inOrder_iff {classes declared extensions : List ClassDecl}
    (runs : Runs classes declared extensions) : InOrder (·.location) classes ↔
      ∀ c ∈ declared, ∀ e ∈ extensions, c.location.opening ≤ e.location.opening := by
  rw [runs.split, InOrder, List.pairwise_append]
  exact ⟨fun whole => whole.2.2,
    fun between => ⟨runs.declaredInOrder, runs.extensionsInOrder, between⟩⟩

def AppendsExtensions (r : Rules) : Prop :=
  ∀ {cx root}, root.WellPlaced → root.HoldsOne r.kinds →
    ∃ declared extensions, Runs (r.classes cx root) declared extensions

section Attached

variable {owner : String} {update : ClassDecl → ClassDecl} {new : ClassDecl}
  {found more : List ClassDecl}

-- One step of a loop that puts what it finds to the first class of its owner, or to a new
-- class behind the others.
inductive Attaches (owner : String) (update : ClassDecl → ClassDecl) (new : ClassDecl) :
    List ClassDecl → List ClassDecl → Prop
  | new : Attaches owner update new [] [new]
  | owner {c : ClassDecl} {rest : List ClassDecl} (own : c.name = owner) :
      Attaches owner update new (c :: rest) (update c :: rest)
  | past {c : ClassDecl} {rest more : List ClassDecl} (other : c.name ≠ owner)
      (later : Attaches owner update new rest more) :
      Attaches owner update new (c :: rest) (c :: more)

theorem Attaches.forall {P Q : ClassDecl → Prop} (attaches : Attaches owner update new found more)
    (all : ∀ c ∈ found, P c) (passed : ∀ c, P c → Q c) (updated : ∀ c, P c → Q (update c))
    (fresh : Q new) : ∀ c ∈ more, Q c := by
  induction attaches with
  | new => exact List.forall_mem_singleton.mpr fresh
  | owner own =>
    obtain ⟨here, later⟩ := List.forall_mem_cons.mp all
    exact List.forall_mem_cons.mpr ⟨updated _ here, fun c member => passed c (later c member)⟩
  | past other _ ih =>
    obtain ⟨here, later⟩ := List.forall_mem_cons.mp all
    exact List.forall_mem_cons.mpr ⟨passed _ here, ih later⟩

theorem Attaches.names (attaches : Attaches owner update new found more)
    (kept : ∀ c, (update c).name = c.name) (own : new.name = owner) :
    "" ∈ more.map (·.name) ↔ "" ∈ found.map (·.name) ∨ owner = "" := by
  induction attaches with
  | new => simp [own, eq_comm]
  | owner here =>
    rw [List.map_cons, List.map_cons, kept, here, List.mem_cons, eq_comm]
    tauto
  | past other _ ih =>
    rw [List.map_cons, List.map_cons, List.mem_cons, List.mem_cons, ih, or_assoc]

def Appends (new : ClassHead) (found more : List ClassDecl) : Prop :=
  more.map (·.head) = found.map (·.head) ∨
    (∀ h ∈ found.map (·.head), h.name ≠ new.name) ∧
      more.map (·.head) = found.map (·.head) ++ [new]

theorem appends_self (new : ClassHead) (found : List ClassDecl) : Appends new found found :=
  .inl rfl

theorem Attaches.appends (attaches : Attaches owner update new found more)
    (kept : ∀ c, (update c).head = c.head) (own : new.name = owner) :
    Appends new.head found more := by
  induction attaches with
  | new => exact .inr ⟨List.forall_mem_nil _, rfl⟩
  | owner here => exact .inl (by rw [List.map_cons, List.map_cons, kept])
  | @past c rest more other _ ih =>
    rcases ih with same | ⟨apart, longer⟩
    · exact .inl (by rw [List.map_cons, List.map_cons, same])
    · have different : c.head.name ≠ new.head.name := fun same => other (same.trans own)
      refine .inr ⟨List.forall_mem_cons.mpr ⟨different, apart⟩, ?_⟩
      rw [List.map_cons, List.map_cons, longer, List.cons_append]

variable {α : Type} {add : List ClassDecl → α → List ClassDecl} (head : α → ClassHead)

theorem foldl_appends (each : ∀ found a, Appends (head a) found (add found a))
    (entries : List α) (declared : List ClassDecl) :
    ∃ added : List α, added.Sublist entries ∧
      (entries.foldl add declared).map (·.head) = declared.map (·.head) ++ added.map head ∧
      ∀ a ∈ added, ∀ h ∈ declared.map (·.head), h.name ≠ (head a).name := by
  induction entries generalizing declared with
  | nil => exact ⟨[], List.Sublist.refl _, by simp, List.forall_mem_nil _⟩
  | cons a rest ih =>
    obtain ⟨added, sublist, heads, apart⟩ := ih (add declared a)
    rw [List.foldl_cons]
    rcases each declared a with same | ⟨own, longer⟩
    · rw [same] at heads apart
      exact ⟨added, sublist.cons a, heads, apart⟩
    · rw [longer] at heads apart
      refine ⟨a :: added, sublist.cons_cons a, ?_, List.forall_mem_cons.mpr ⟨own, ?_⟩⟩
      · rw [heads, List.map_cons, List.append_assoc, List.singleton_append]
      · exact fun b later h earlier => apart b later h (List.mem_append_left _ earlier)

theorem foldl_inOrder {entries : List α}
    (each : ∀ found a, Appends (head a) found (add found a))
    (entriesInOrder : entries.Pairwise fun a b => (head a).opening ≤ (head b).opening) :
    InOrder (·.location) (entries.foldl add []) := by
  obtain ⟨added, sublist, heads, _⟩ := foldl_appends head each entries []
  rw [inOrder_heads, heads, List.map_nil, List.nil_append, List.pairwise_map]
  exact entriesInOrder.sublist sublist

theorem foldl_runs {entries : List α} {declared : List ClassDecl}
    (each : ∀ found a, Appends (head a) found (add found a))
    (declaredInOrder : InOrder (·.location) declared)
    (entriesInOrder : entries.Pairwise fun a b => (head a).opening ≤ (head b).opening)
    (declaredKinds : ∀ c ∈ declared, c.kind ≠ .extension)
    (kind : ∀ a, (head a).kind = .extension) :
    ∃ kept extensions, Runs (entries.foldl add declared) kept extensions := by
  obtain ⟨added, sublist, heads, apart⟩ := foldl_appends head each entries declared
  obtain ⟨kept, extensions, split, keptHeads, addedHeads⟩ := List.map_eq_append_iff.mp heads
  have origin : ∀ e ∈ extensions, ∃ a ∈ added, head a = e.head :=
    fun e member => List.mem_map.mp (head_listed addedHeads member)
  have source : ∀ c ∈ kept, ∃ d ∈ declared, d.head = c.head :=
    fun c member => List.mem_map.mp (head_listed keptHeads member)
  refine ⟨kept, extensions, split, ?_, ?_, ?_, ?_, ?_⟩
  · rw [inOrder_heads, keptHeads]
    exact inOrder_heads.mp declaredInOrder
  · rw [inOrder_heads, addedHeads, List.pairwise_map]
    exact entriesInOrder.sublist sublist
  · intro c member
    obtain ⟨d, own, same⟩ := source c member
    exact fun extension => declaredKinds d own ((congrArg ClassHead.kind same).trans extension)
  · intro e member
    obtain ⟨a, _, same⟩ := origin e member
    exact (congrArg ClassHead.kind same).symm.trans (kind a)
  · intro e member c first
    obtain ⟨a, own, same⟩ := origin e member
    obtain ⟨d, there, alike⟩ := source c first
    have different := apart a own d.head (List.mem_map_of_mem there)
    rw [same, alike] at different
    exact different

end Attached

end Rules

end CodeEntities
