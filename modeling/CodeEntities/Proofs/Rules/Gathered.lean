import CodeEntities.Proofs.Rules.Attached

namespace CodeEntities

def ClassDecl.firstNamed? (name : String) (classes : List ClassDecl) : Option ClassDecl :=
  classes.find? (·.name == name)

namespace Rules

open ClassDecl (firstNamed?)

def put (update : ClassDecl → ClassDecl) (new : ClassDecl) (found : Option ClassDecl) :
    Option ClassDecl :=
  some ((found.map update).getD new)

section Step

variable {owner name : String} {update : ClassDecl → ClassDecl} {new c : ClassDecl}
  {found more : List ClassDecl}

-- The owner's class is given the entry, and every other name stands for what it did.
theorem Attaches.firstNamed (attaches : Attaches owner update new found more)
    (kept : ∀ c, (update c).name = c.name) (own : new.name = owner) :
    firstNamed? name more =
      if owner = name then put update new (firstNamed? name found) else firstNamed? name found := by
  unfold firstNamed?
  induction attaches with
  | new => by_cases same : owner = name <;> simp [own, same, put]
  | @owner c rest here => by_cases same : owner = name <;> simp [kept, here, same, put]
  | @past c rest more other _ ih =>
    by_cases first : c.name = name
    · have apart : owner ≠ name := fun same => other (first.trans same.symm)
      simp [first, apart]
    · simpa [first] using ih

theorem Attaches.mem (attaches : Attaches owner update new found more) (member : c ∈ more) :
    c ∈ found ∨ c = new ∨ ∃ d ∈ found, d.name = owner ∧ c = update d := by
  induction attaches with
  | new => exact .inr (.inl (List.mem_singleton.mp member))
  | @owner d rest own =>
    rcases List.mem_cons.mp member with rfl | later
    · exact .inr (.inr ⟨d, List.mem_cons_self .., own, rfl⟩)
    · exact .inl (List.mem_cons_of_mem d later)
  | @past d rest more _ _ ih =>
    rcases List.mem_cons.mp member with rfl | later
    · exact .inl (List.mem_cons_self ..)
    · rcases ih later with old | new | ⟨e, there, own⟩
      · exact .inl (List.mem_cons_of_mem d old)
      · exact .inr (.inl new)
      · exact .inr (.inr ⟨e, List.mem_cons_of_mem d there, own⟩)

theorem Attaches.pairwise {R : ClassDecl → ClassDecl → Prop}
    (attaches : Attaches owner update new found more) (related : found.Pairwise R)
    (first : ∀ a b, R a b → R (update a) b)
    (second : ∀ a b, a.name ≠ owner → b.name = owner → R a b → R a (update b))
    (last : ∀ a, a.name ≠ owner → R a new) : more.Pairwise R := by
  induction attaches with
  | new => exact List.pairwise_singleton R new
  | owner own =>
    obtain ⟨here, later⟩ := List.pairwise_cons.mp related
    exact List.pairwise_cons.mpr ⟨fun b member => first _ b (here b member), later⟩
  | past other attached ih =>
    obtain ⟨here, later⟩ := List.pairwise_cons.mp related
    refine List.pairwise_cons.mpr ⟨fun b member => ?_, ih later⟩
    rcases attached.mem member with old | rfl | ⟨d, there, own, rfl⟩
    · exact here b old
    · exact last _ other
    · exact second _ d other own (here d there)

end Step

variable {ε : Type} {owner : ε → String} {update : ε → ClassDecl → ClassDecl} {new : ε → ClassDecl}
  {add : List ClassDecl → ε → List ClassDecl}

-- A loop that puts every entry to the first class of its owner, or to a new one of that name
-- behind the others.
structure Gathers (owner : ε → String) (update : ε → ClassDecl → ClassDecl) (new : ε → ClassDecl)
    (add : List ClassDecl → ε → List ClassDecl) : Prop where
  attaches (found e) : Attaches (owner e) (update e) (new e) found (add found e)
  kept (e c) : (update e c).name = c.name
  owned (e) : (new e).name = owner e

abbrev OwnedMethods := List (String × MethodDecl)

-- Every method is one of the first class of its owner, where the methods of an owner stand in
-- their order, and no other class has any.
structure GroupsMethods (owned : OwnedMethods) (classes : List ClassDecl) : Prop where
  kept : ∀ m ∈ owned, ∃ c, firstNamed? m.1 classes = some c
  first : ∀ name c, firstNamed? name classes = some c →
    c.methods = (owned.filter (·.1 == name)).map (·.2)
  others : classes.Pairwise fun a b => a.name = b.name → b.methods = []

namespace Gathers

theorem firstNamed (gathers : Gathers owner update new add) (name : String) (entries : List ε)
    (declared : List ClassDecl) : firstNamed? name (entries.foldl add declared) =
      (entries.filter (owner · == name)).foldl (fun found e => put (update e) (new e) found)
        (firstNamed? name declared) := by
  induction entries generalizing declared with
  | nil => rfl
  | cons e rest ih =>
    rw [List.foldl_cons, ih,
      (gathers.attaches declared e).firstNamed (gathers.kept e) (gathers.owned e)]
    by_cases own : owner e = name
    · simp [own]
    · simp [own]

-- A class behind another one of its name is a declared one, and is left alone.
theorem behind (gathers : Gathers owner update new add) (entries : List ε)
    (declared : List ClassDecl) :
    (entries.foldl add declared).Pairwise fun a b => a.name = b.name → b ∈ declared := by
  refine List.foldlRecOn entries add ?_ fun found related e _ => ?_
  · exact List.pairwise_of_forall_mem_list fun a _ b member _ => member
  · refine (gathers.attaches found e).pairwise related ?_ ?_ ?_
    · exact fun a b related same => related ((gathers.kept e a).symm.trans same)
    · exact fun a b other own _ same => absurd (same.trans ((gathers.kept e b).trans own)) other
    · exact fun a other same => absurd (same.trans (gathers.owned e)) other

theorem apart (gathers : Gathers owner update new add)
    (kinds : ∀ e c, (update e c).kind = c.kind) (entries : List ε) {declared : List ClassDecl}
    (noExtension : ∀ c ∈ declared, c.kind ≠ .extension) :
    (entries.foldl add declared).Pairwise fun a b =>
      a.kind = .extension ∨ b.kind = .extension → a.name ≠ b.name := by
  refine List.foldlRecOn entries add ?_ fun found related e _ => ?_
  · refine List.pairwise_of_forall_mem_list fun a first b second extension => ?_
    rcases extension with left | right
    · exact absurd left (noExtension a first)
    · exact absurd right (noExtension b second)
  · refine (gathers.attaches found e).pairwise related ?_ ?_ ?_
    · intro a b related
      rwa [gathers.kept e a, kinds e a]
    · intro a b _ _ related
      rwa [gathers.kept e b, kinds e b]
    · intro a other _ same
      exact other (same.trans (gathers.owned e))

variable {name : String} {entries : List ε} {declared : List ClassDecl} {c : ClassDecl} {e : ε}

theorem reached (gathers : Gathers owner update new add) (member : e ∈ entries) :
    ∃ c, firstNamed? (owner e) (entries.foldl add declared) = some c := by
  have own : e ∈ entries.filter (owner · == owner e) :=
    List.mem_filter.mpr ⟨member, beq_self_eq_true _⟩
  rw [gathers.firstNamed, ← Option.isSome_iff_exists]
  obtain ⟨first, rest, split⟩ := List.exists_cons_of_ne_nil (List.ne_nil_of_mem own)
  rw [split, List.foldl_cons]
  exact List.foldlRecOn rest (motive := fun found : Option ClassDecl => found.isSome = true) _ rfl
    fun _ _ _ _ => rfl

variable {β : Type} (field : ClassDecl → β) (empty : β) (step : β → ε → β)

theorem foldl_put (added : ∀ e c, field (update e c) = step (field c) e)
    (opened : ∀ e, field (new e) = step empty e) (entries : List ε) (start : Option ClassDecl) :
    (entries.foldl (fun found e => put (update e) (new e) found) start).elim empty field =
      entries.foldl step (start.elim empty field) := by
  induction entries generalizing start with
  | nil => rfl
  | cons e rest ih =>
    rw [List.foldl_cons, List.foldl_cons, ih]
    cases start with
    | none => simp [put, opened]
    | some c => simp [put, added]

theorem gathered (gathers : Gathers owner update new add)
    (added : ∀ e c, field (update e c) = step (field c) e)
    (opened : ∀ e, field (new e) = step empty e) (bare : ∀ c ∈ declared, field c = empty)
    (first : firstNamed? name (entries.foldl add declared) = some c) :
    field c = (entries.filter (owner · == name)).foldl step empty := by
  have start : (firstNamed? name declared).elim empty field = empty := by
    cases found : firstNamed? name declared with
    | none => rfl
    | some d => exact bare d (List.mem_of_find?_eq_some found)
  rw [gathers.firstNamed] at first
  have read := foldl_put field empty step added opened (entries.filter (owner · == name))
    (firstNamed? name declared)
  rwa [first, start] at read

theorem groups (gathers : Gathers owner update new add) {method : ε → MethodDecl}
    (added : ∀ e c, (update e c).methods = c.methods ++ [method e])
    (opened : ∀ e, (new e).methods = [method e]) (bare : ∀ c ∈ declared, c.methods = [])
    (entries : List ε) :
    GroupsMethods (entries.map fun e => (owner e, method e)) (entries.foldl add declared) where
  kept m member := by
    obtain ⟨e, entry, rfl⟩ := List.mem_map.mp member
    exact gathers.reached entry
  first name c first := by
    have own := gathers.gathered (·.methods) [] (fun ms e => ms ++ [method e]) added opened bare
      first
    rw [own, ← List.flatMap_eq_foldl, ← List.map_eq_flatMap, List.filter_map, List.map_map]
    rfl
  others := (gathers.behind entries declared).imp fun declared same => bare _ (declared same)

end Gathers

end Rules

end CodeEntities
