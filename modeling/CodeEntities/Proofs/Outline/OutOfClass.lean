import CodeEntities.Proofs.Rules.CFamily
import CodeEntities.Proofs.Rules.Gathered
import Mathlib.Data.List.Basic

namespace CodeEntities.CFamily

open ClassDecl (firstNamed?)

section Definition

variable {c : ClassDecl} {m d : MethodDecl} {name : String} {before after : List MethodDecl}

def shownAs (m : MethodDecl) (v : Visibility) : MethodDecl := { m with visibility := v }

@[simp]
theorem shownAs_name (m : MethodDecl) (v : Visibility) : (shownAs m v).name = m.name := rfl

@[simp]
theorem shownAs_function (m : MethodDecl) (v : Visibility) :
    (shownAs m v).function = m.function := rfl

@[simp]
theorem shownAs_visibility (m : MethodDecl) (v : Visibility) : (shownAs m v).visibility = v := rfl

theorem shownAs_self (m : MethodDecl) : shownAs m m.visibility = m := rfl

def methodNamed? (methods : List MethodDecl) (name : String) : Option MethodDecl :=
  methods.find? (·.name == name)

-- What a definition of a name replaces in a class: the first method of the name, else the
-- constructor if this is the name of the class.
def slot? (c : ClassDecl) (name : String) : Option MethodDecl :=
  (methodNamed? c.methods name).or (if name = c.name then c.constructor else none)

-- The access that a definition takes over: a method hands it on, a constructor does not.
def access (c : ClassDecl) (name : String) : Visibility :=
  ((methodNamed? c.methods name).map (·.visibility)).getD .isPublic

inductive Defined (c : ClassDecl) (m : MethodDecl) : ClassDecl → Prop
  | replaced {before after : List MethodDecl} {d : MethodDecl}
      (split : c.methods = before ++ d :: after) (named : d.name = m.name)
      (first : ∀ e ∈ before, e.name ≠ m.name) :
      Defined c m { c with methods := before ++ shownAs m d.visibility :: after }
  | constructor (absent : ∀ e ∈ c.methods, e.name ≠ m.name) (own : m.name = c.name) :
      Defined c m { c with constructor := some m }
  | added (absent : ∀ e ∈ c.methods, e.name ≠ m.name) (other : m.name ≠ c.name) :
      Defined c m { c with methods := c.methods ++ [m] }

theorem replaceMethod_absent {methods : List MethodDecl} (absent : replaceMethod m methods = none) :
    ∀ e ∈ methods, e.name ≠ m.name := by
  induction methods with
  | nil => exact List.forall_mem_nil _
  | cons d rest ih =>
    unfold replaceMethod at absent
    split at absent
    · cases absent
    · next other =>
      exact List.forall_mem_cons.mpr
        ⟨mt beq_iff_eq.mpr other, ih (Option.map_eq_none_iff.mp absent)⟩

theorem replaceMethod_found {methods result : List MethodDecl}
    (found : replaceMethod m methods = some result) : ∃ before d after,
      methods = before ++ d :: after ∧ d.name = m.name ∧ (∀ e ∈ before, e.name ≠ m.name) ∧
      result = before ++ shownAs m d.visibility :: after := by
  induction methods generalizing result with
  | nil => cases found
  | cons d rest ih =>
    unfold replaceMethod at found
    split at found
    · next same =>
      cases found
      exact ⟨[], d, rest, rfl, beq_iff_eq.mp same, List.forall_mem_nil _, rfl⟩
    · next other =>
      obtain ⟨later, read, rfl⟩ := Option.map_eq_some_iff.mp found
      obtain ⟨before, e, after, rfl, named, first, rfl⟩ := ih read
      exact ⟨d :: before, e, after, rfl, named,
        List.forall_mem_cons.mpr ⟨mt beq_iff_eq.mpr other, first⟩, rfl⟩

theorem define_defined (c : ClassDecl) (m : MethodDecl) : Defined c m (define c m) := by
  unfold define
  split
  · next found =>
    obtain ⟨before, d, after, split, named, first, rfl⟩ := replaceMethod_found found
    exact .replaced split named first
  · next unreplaced =>
    have absent := replaceMethod_absent unreplaced
    split
    · next own => exact .constructor absent (beq_iff_eq.mp own)
    · next other => exact .added absent (mt beq_iff_eq.mpr other)

theorem methodNamed_absent {methods : List MethodDecl} (absent : ∀ e ∈ methods, e.name ≠ name) :
    methodNamed? methods name = none :=
  List.find?_eq_none.mpr fun e member => by simpa using absent e member

theorem methodNamed_first (first : ∀ e ∈ before, e.name ≠ d.name) :
    methodNamed? (before ++ d :: after) d.name = some d := by
  have absent := methodNamed_absent first
  unfold methodNamed? at absent ⊢
  simp [List.find?_append, absent]

theorem methodNamed_other {e : MethodDecl} (other : d.name ≠ name) (same : e.name = d.name) :
    methodNamed? (before ++ d :: after) name = methodNamed? (before ++ e :: after) name := by
  unfold methodNamed?
  simp [List.find?_append, other, same]

theorem methodNamed_added (absent : ∀ e ∈ before, e.name ≠ m.name) :
    methodNamed? (before ++ [m]) m.name = some m :=
  methodNamed_first absent

theorem define_own (shown : m.visibility = .isPublic) :
    slot? (define c m) m.name = some (shownAs m (access c m.name)) ∧
      access (define c m) m.name = access c m.name := by
  have plain : shownAs m .isPublic = m := shown ▸ shownAs_self m
  have defined := define_defined c m
  generalize define c m = result at defined
  cases defined with
  | @replaced before after d split named first =>
    have here : methodNamed? c.methods m.name = some d := by
      rw [split, ← named]
      exact methodNamed_first (named ▸ first)
    have there : methodNamed? (before ++ shownAs m d.visibility :: after) m.name =
        some (shownAs m d.visibility) := methodNamed_first first
    simp [slot?, access, here, there]
  | constructor absent own =>
    have free := methodNamed_absent absent
    rw [own] at free
    simp [slot?, access, free, own, plain]
  | added absent other =>
    simp [slot?, access, methodNamed_absent absent, methodNamed_added absent, plain, shown]

theorem define_other (other : m.name ≠ name) :
    slot? (define c m) name = slot? c name ∧ access (define c m) name = access c name := by
  have defined := define_defined c m
  generalize define c m = result at defined
  cases defined with
  | @replaced before after d split named first =>
    have same : methodNamed? (before ++ shownAs m d.visibility :: after) name =
        methodNamed? c.methods name := split ▸ methodNamed_other other named
    simp only [slot?, access, same, and_self]
  | constructor absent own =>
    have apart : name ≠ c.name := fun same => other (own.trans same.symm)
    simp [slot?, access, apart]
  | added =>
    have same : methodNamed? (c.methods ++ [m]) name = methodNamed? c.methods name := by
      simp [methodNamed?, List.find?_append, other]
    simp only [slot?, access, same, and_self]

theorem slot_method (found : methodNamed? c.methods name = some d) : slot? c name = some d := by
  rw [slot?, found, Option.some_or]

theorem slot_constructor (absent : methodNamed? c.methods c.name = none) :
    slot? c c.name = c.constructor := by
  rw [slot?, absent, Option.none_or, if_pos rfl]

-- Nothing is gained but the definition, and nothing lost but what it replaces.
theorem define_callables (c : ClassDecl) (m : MethodDecl) :
    (((slot? c m.name).toList ++ (define c m).callables).map (·.function)).Perm
      ((m :: c.callables).map (·.function)) := by
  have defined := define_defined c m
  generalize define c m = result at defined
  refine List.perm_iff_count.mpr fun f => ?_
  cases defined with
  | @replaced before after d split named first =>
    have here : slot? c m.name = some d :=
      slot_method (split ▸ named ▸ methodNamed_first (named ▸ first))
    simp only [here, ClassDecl.callables, split, Option.toList_some, List.map_append, List.map_cons,
      List.map_nil, List.count_append, List.count_cons, List.count_nil, shownAs_function]
    omega
  | constructor absent own =>
    have here : slot? c m.name = c.constructor :=
      own ▸ slot_constructor (own ▸ methodNamed_absent absent)
    simp only [here, ClassDecl.callables, Option.toList_some, List.map_append, List.map_cons,
      List.map_nil, List.count_append, List.count_cons, List.count_nil]
    omega
  | added absent other =>
    have here : slot? c m.name = none := by
      rw [slot?, methodNamed_absent absent, if_neg other, Option.none_or]
    simp only [here, ClassDecl.callables, Option.toList_none, List.map_append, List.map_cons,
      List.map_nil, List.count_append, List.count_cons, List.count_nil]
    omega

theorem methods_split (methods : List MethodDecl) {names : List String} (apart : names.Nodup) :
    ∃ kept, methods.Perm (names.flatMap (fun n => (methodNamed? methods n).toList) ++ kept) := by
  induction methods generalizing names with
  | nil => exact ⟨[], by simp [methodNamed?]⟩
  | cons e rest ih =>
    have later (n : String) (other : e.name ≠ n) :
        methodNamed? (e :: rest) n = methodNamed? rest n := by simp [methodNamed?, other]
    by_cases wanted : e.name ∈ names
    · have here : methodNamed? (e :: rest) e.name = some e := by simp [methodNamed?]
      have order := List.perm_cons_erase wanted
      obtain ⟨kept, split⟩ := ih (apart.erase e.name)
      refine ⟨kept, .trans ?_ ((order.flatMap_right _).symm.append_right kept)⟩
      rw [List.flatMap_cons, here]
      refine .cons e (split.trans (.of_eq (congrArg (· ++ kept) ?_)))
      refine List.flatMap_congr fun n member => congrArg Option.toList (later n ?_).symm
      exact fun same => (apart.mem_erase_iff.mp member).1 same.symm
    · obtain ⟨kept, split⟩ := ih apart
      refine ⟨e :: kept, (split.cons e).trans (List.perm_middle.symm.trans (.of_eq ?_))⟩
      refine congrArg (· ++ e :: kept) (List.flatMap_congr fun n member => ?_)
      exact congrArg Option.toList (later n fun same => wanted (same ▸ member)).symm

theorem slots_methods {names : List String}
    (found : ∀ n ∈ names, n = c.name → (methodNamed? c.methods n).isSome) :
    names.flatMap (fun n => (slot? c n).toList) =
      names.flatMap (fun n => (methodNamed? c.methods n).toList) := by
  refine List.flatMap_congr fun n member => congrArg Option.toList ?_
  by_cases own : n = c.name
  · obtain ⟨m, here⟩ := Option.isSome_iff_exists.mp (found n member own)
    rw [slot_method here, here]
  · rw [slot?, if_neg own, Option.or_none]

theorem callables_split (c : ClassDecl) {names : List String} (apart : names.Nodup) :
    ∃ kept, c.callables.Perm (names.flatMap (fun n => (slot? c n).toList) ++ kept) := by
  by_cases free : c.name ∈ names ∧ methodNamed? c.methods c.name = none
  · obtain ⟨wanted, unclaimed⟩ := free
    have order := (List.perm_cons_erase wanted).flatMap_right fun n => (slot? c n).toList
    obtain ⟨kept, split⟩ := methods_split c.methods (apart.erase c.name)
    refine ⟨kept, .trans ?_ (order.symm.append_right kept)⟩
    rw [List.flatMap_cons, slot_constructor unclaimed, List.append_assoc, slots_methods]
    · exact split.append_left _
    · exact fun n member same => absurd same (apart.mem_erase_iff.mp member).1
  · obtain ⟨kept, split⟩ := methods_split c.methods apart
    refine ⟨c.constructor.toList ++ kept, ?_⟩
    rw [slots_methods]
    · exact (split.append_left _).trans (List.perm_append_comm_assoc _ _ _)
    · rintro n member rfl
      exact Option.isSome_iff_ne_none.mpr fun unclaimed => free ⟨member, unclaimed⟩

end Definition

section Run

variable {own : List MethodDecl} {before after : Option ClassDecl} {m k : MethodDecl}
  {name : String}

def latest : List MethodDecl → List MethodDecl
  | [] => []
  | m :: rest => if m.name ∈ rest.map (·.name) then latest rest else m :: latest rest

theorem latest_sublist (own : List MethodDecl) : (latest own).Sublist own := by
  induction own with
  | nil => exact List.Sublist.refl []
  | cons m rest ih =>
    unfold latest
    split
    · exact ih.cons m
    · exact ih.cons_cons m

theorem latest_names (own : List MethodDecl) : ((latest own).map (·.name)).Nodup := by
  induction own with
  | nil => exact List.nodup_nil
  | cons m rest ih =>
    unfold latest
    split
    · exact ih
    · next last =>
      rw [List.map_cons, List.nodup_cons]
      exact ⟨fun later => last (((latest_sublist rest).map _).subset later), ih⟩

theorem latest_eq_iff (own : List MethodDecl) :
    latest own = own ↔ (own.map (·.name)).Nodup := by
  refine ⟨fun same => same ▸ latest_names own, fun apart => ?_⟩
  induction own with
  | nil => rfl
  | cons m rest ih =>
    rw [List.map_cons, List.nodup_cons] at apart
    rw [latest, if_neg apart.1, ih apart.2]

theorem exists_latest (named : name ∈ own.map (·.name)) : ∃ k ∈ latest own, k.name = name := by
  induction own with
  | nil => cases named
  | cons m rest ih =>
    unfold latest
    split
    · next later =>
      rcases List.mem_cons.mp named with rfl | named
      · exact ih later
      · exact ih named
    · rcases List.mem_cons.mp named with rfl | named
      · exact ⟨m, List.mem_cons_self .., rfl⟩
      · obtain ⟨k, last, same⟩ := ih named
        exact ⟨k, List.mem_cons_of_mem m last, same⟩

theorem latest_concat (own : List MethodDecl) (m : MethodDecl) :
    latest (own ++ [m]) = (latest own).filter (·.name != m.name) ++ [m] := by
  induction own with
  | nil => rfl
  | cons k rest ih =>
    rw [List.cons_append, latest, latest, ih]
    by_cases later : k.name ∈ rest.map (·.name)
    · simp only [List.map_append, List.mem_append, later, true_or, if_true]
    · rw [if_neg later]
      by_cases same : k.name = m.name
      · simp [same]
      · simp [later, same]

theorem latest_split (last : k ∈ latest own) :
    (latest own).Perm (k :: (latest own).filter (·.name != k.name)) := by
  induction own with
  | nil => cases last
  | cons m rest ih =>
    unfold latest at last ⊢
    split at last
    · next later => simpa only [later, if_true] using ih last
    · next only =>
      simp only [only, if_false]
      have apart : ∀ e ∈ latest rest, e.name ≠ m.name := fun e member same =>
        only (same ▸ List.mem_map_of_mem ((latest_sublist rest).subset member))
      rcases List.mem_cons.mp last with rfl | last
      · have kept : (latest rest).filter (·.name != k.name) = latest rest :=
          List.filter_eq_self.mpr fun e member => by simpa using apart e member
        simp [kept]
      · have other : (m.name != k.name) = true := by simpa using (apart k last).symm
        have kept : (m :: latest rest).filter (·.name != k.name) =
            m :: (latest rest).filter (·.name != k.name) := List.filter_cons_of_pos other
        rw [kept]
        exact ((ih last).cons m).trans (.swap ..)

def standing? (found : Option ClassDecl) (name : String) : Option MethodDecl :=
  found.bind (slot? · name)

def accessOf (found : Option ClassDecl) (name : String) : Visibility :=
  (found.map (access · name)).getD .isPublic

def callablesOf (found : Option ClassDecl) : List MethodDecl := (found.map (·.callables)).getD []

def join (found : Option ClassDecl) (d : String × MethodDecl) : Option ClassDecl :=
  Rules.put (define · d.2) (extension d.1 d.2) found

def replaced (before : Option ClassDecl) (own : List MethodDecl) : List MethodDecl :=
  (latest own).flatMap fun m => (standing? before m.name).toList

-- What a class comes to by the definitions outside of it: of each name the last one, in the
-- place of what was declared under the name, whose access it has.
structure Joins (own : List MethodDecl) (before after : Option ClassDecl) : Prop where
  conserved : ((replaced before own ++ callablesOf after).map (·.function)).Perm
    ((latest own ++ callablesOf before).map (·.function))
  placed : ∀ m ∈ latest own, standing? after m.name = some (shownAs m (accessOf before m.name))
  untouched : ∀ name, name ∉ own.map (·.name) → standing? after name = standing? before name
  access : ∀ name, accessOf after name = accessOf before name

theorem joins_none (before : Option ClassDecl) : Joins [] before before where
  conserved := .refl _
  placed _ member := by cases member
  untouched _ _ := rfl
  access _ := rfl

theorem join_own (found : Option ClassDecl) {d : String × MethodDecl}
    (shown : d.2.visibility = .isPublic) :
    standing? (join found d) d.2.name = some (shownAs d.2 (accessOf found d.2.name)) := by
  cases found with
  | none =>
    have plain : shownAs d.2 .isPublic = d.2 := shown ▸ shownAs_self d.2
    simp [standing?, join, Rules.put, extension, slot?, methodNamed?, accessOf, plain]
  | some c => exact (define_own shown).1

theorem join_other (found : Option ClassDecl) {d : String × MethodDecl} (other : d.2.name ≠ name) :
    standing? (join found d) name = standing? found name := by
  cases found with
  | none => simp [standing?, join, Rules.put, extension, slot?, methodNamed?, other]
  | some c => exact (define_other other).1

theorem join_access (found : Option ClassDecl) {d : String × MethodDecl}
    (shown : d.2.visibility = .isPublic) (name : String) :
    accessOf (join found d) name = accessOf found name := by
  cases found with
  | none =>
    by_cases same : d.2.name = name <;>
      simp [join, Rules.put, extension, access, methodNamed?, accessOf, same, shown]
  | some c =>
    by_cases same : d.2.name = name
    · exact same ▸ (define_own shown).2
    · exact (define_other same).2

theorem join_callables (found : Option ClassDecl) (d : String × MethodDecl) :
    (((standing? found d.2.name).toList ++ callablesOf (join found d)).map (·.function)).Perm
      ((d.2 :: callablesOf found).map (·.function)) := by
  cases found with
  | none => exact .refl _
  | some c => exact define_callables c d.2

theorem Joins.step {d : String × MethodDecl} (joins : Joins own before after)
    (shown : d.2.visibility = .isPublic) : Joins (own ++ [d.2]) before (join after d) := by
  have read := latest_concat own d.2
  refine ⟨?_, ?_, ?_, fun name => (join_access after shown name).trans (joins.access name)⟩
  · refine List.perm_iff_count.mpr fun f => ?_
    have conserved := joins.conserved.count_eq f
    have gained := (join_callables after d).count_eq f
    simp only [replaced, read, List.flatMap_append, List.flatMap_singleton, List.map_append,
      List.map_cons, List.map_nil, List.count_append, List.count_cons,
      List.count_nil] at conserved gained ⊢
    by_cases named : d.2.name ∈ own.map (·.name)
    · obtain ⟨k, last, same⟩ := exists_latest named
      have old := same ▸ joins.placed k last
      have split := latest_split last
      have once := (split.map (·.function)).count_eq f
      have all := ((split.flatMap_right fun m => (standing? before m.name).toList).map
        (·.function)).count_eq f
      simp only [List.flatMap_cons, List.map_append, List.map_cons, List.count_append,
        List.count_cons, same] at once all
      simp only [old, Option.toList_some, List.map_cons, List.map_nil, List.count_cons,
        List.count_nil, shownAs_function] at gained
      omega
    · have only : (latest own).filter (·.name != d.2.name) = latest own := by
        refine List.filter_eq_self.mpr fun e member => bne_iff_ne.mpr fun same => named ?_
        exact same ▸ List.mem_map_of_mem ((latest_sublist own).subset member)
      rw [joins.untouched d.2.name named] at gained
      rw [only]
      omega
  · intro m last
    rw [read] at last
    rcases List.mem_append.mp last with earlier | here
    · obtain ⟨member, other⟩ := List.mem_filter.mp earlier
      rw [join_other after (bne_iff_ne.mp other).symm]
      exact joins.placed m member
    · obtain rfl := List.mem_singleton.mp here
      rw [join_own after shown, joins.access]
  · intro name absent
    rw [List.map_append, List.mem_append, not_or] at absent
    rw [join_other after fun same => absent.2 (List.mem_singleton.mpr same.symm)]
    exact joins.untouched name absent.1

theorem replaced_split (before : Option ClassDecl) (own : List MethodDecl) :
    ∃ kept, (callablesOf before).Perm (replaced before own ++ kept) := by
  have entries : replaced before own =
      ((latest own).map (·.name)).flatMap fun n => (standing? before n).toList := by
    rw [List.flatMap_map]
    rfl
  rw [entries]
  cases before with
  | none => exact ⟨[], by simp [callablesOf, standing?]⟩
  | some c => exact callables_split c (latest_names own)

theorem Joins.merges (joins : Joins own before after) : ∃ kept,
    (callablesOf before).Perm (replaced before own ++ kept) ∧
    ((callablesOf after).map (·.function)).Perm ((kept ++ latest own).map (·.function)) := by
  obtain ⟨kept, split⟩ := replaced_split before own
  refine ⟨kept, split, List.perm_iff_count.mpr fun f => ?_⟩
  have conserved := joins.conserved.count_eq f
  have whole := (split.map (·.function)).count_eq f
  simp only [List.map_append, List.count_append] at conserved whole ⊢
  omega

theorem joins_run (definitions : Rules.OwnedMethods) (before : Option ClassDecl)
    (shown : ∀ d ∈ definitions, d.2.visibility = .isPublic) :
    Joins (definitions.map (·.2)) before (definitions.foldl join before) := by
  induction definitions using List.reverseRecOn with
  | nil => exact joins_none before
  | append_singleton rest d ih =>
    rw [List.map_append, List.foldl_append]
    exact (ih fun e member => shown e (List.mem_append_left _ member)).step
      (shown d (List.mem_append_right _ (List.mem_singleton_self d)))

end Run

section Classes

variable (cx : Context) (table : NodeKinds) (root : Node)

def declared : List ClassDecl :=
  (root.moduleLevel table.classes table.wrappers).filterMap (class? cx)

def definitions : Rules.OwnedMethods :=
  (root.moduleLevel table.functions table.wrappers).filterMap fun n => do
    let (f, owner) ← topLevelFunction? cx n
    return (← owner, .ofFunction f .isPublic)

def definitionsOf (owner : String) : List MethodDecl :=
  ((definitions cx table root).filter (·.1 == owner)).map (·.2)

def attachOwned (found : List ClassDecl) (d : String × MethodDecl) : List ClassDecl :=
  attach found d.1 d.2

theorem classes_eq : classes cx table root =
    (definitions cx table root).foldl attachOwned (declared cx table root) := by
  unfold classes definitions
  rw [List.foldl_filterMap]
  refine congrArg (List.foldl · (declared cx table root) _) ?_
  funext found n
  cases topLevelFunction? cx n with
  | none => rfl
  | some entry =>
    obtain ⟨f, owner⟩ := entry
    cases owner with
    | none => rfl
    | some owner => rfl

theorem attach_gathers : Rules.Gathers (·.1) (fun (d : String × MethodDecl) c => define c d.2)
    (fun d => extension d.1 d.2) attachOwned where
  attaches found d := attach_attaches found d.1 d.2
  kept d c := define_name c d.2
  owned _ := rfl

theorem definitions_public : ∀ d ∈ definitions cx table root, d.2.visibility = .isPublic := by
  intro d member
  obtain ⟨n, _, read⟩ := List.mem_filterMap.mp member
  obtain ⟨⟨f, owner⟩, _, read⟩ := Option.bind_eq_some_iff.mp read
  obtain ⟨owner, _, same⟩ := Option.bind_eq_some_iff.mp read
  cases same
  rfl

-- A class keeps what no definition outside of it replaces, and has of these definitions the
-- last one of each name: all of them exactly when no two have one name.
theorem definitions_join_their_class :
    (∀ owner,
      let own := definitionsOf cx table root owner
      let before := firstNamed? owner (declared cx table root)
      let after := firstNamed? owner (classes cx table root)
      (own ≠ [] → after.isSome) ∧ Joins own before after ∧
      (∃ kept, (callablesOf before).Perm (replaced before own ++ kept) ∧
        ((callablesOf after).map (·.function)).Perm ((kept ++ latest own).map (·.function))) ∧
      (latest own = own ↔ (own.map (·.name)).Nodup)) ∧
    (classes cx table root).Pairwise fun a b => a.name = b.name → b ∈ declared cx table root := by
  refine ⟨fun owner => ?_, classes_eq cx table root ▸ attach_gathers.behind _ _⟩
  intro own before after
  have joins : Joins own before after := by
    unfold after
    rw [classes_eq, attach_gathers.firstNamed]
    refine joins_run _ _ fun d member => ?_
    exact definitions_public cx table root d (List.mem_filter.mp member).1
  refine ⟨fun nonempty => ?_, joins, joins.merges, latest_eq_iff own⟩
  obtain ⟨m, member⟩ := List.exists_mem_of_ne_nil own nonempty
  obtain ⟨d, owned, rfl⟩ := List.mem_map.mp member
  obtain ⟨defined, same⟩ := List.mem_filter.mp owned
  have reached : ∃ c, firstNamed? d.1 (classes cx table root) = some c :=
    classes_eq cx table root ▸ attach_gathers.reached defined
  rw [beq_iff_eq.mp same] at reached
  exact Option.isSome_iff_exists.mpr reached

end Classes

-- `void A::f()` or `void A::f(int x)` with an empty body.
def memberDefinition (start width : Nat) (parameters : List Tree) : Tree :=
  .whole "function_definition" start (start + 14 + width) none [
    .whole "primitive_type" start (start + 4) (some "type") [],
    .whole "function_declarator" (start + 5) (start + 11 + width) (some "declarator") [
      .whole "qualified_identifier" (start + 5) (start + 9) (some "declarator") [
        .whole "namespace_identifier" (start + 5) (start + 6) (some "scope") [],
        .token "::" (start + 6),
        .whole "identifier" (start + 8) (start + 9) (some "name") []],
      .whole "parameter_list" (start + 9) (start + 11 + width) (some "parameters")
        (.token "(" (start + 9) :: parameters ++ [.token ")" (start + 10 + width)])],
    .whole "compound_statement" (start + 12 + width) (start + 14 + width) (some "body") [
      .token "\x7b" (start + 12 + width),
      .token "\x7d" (start + 13 + width)]]

-- `class A { void f(); };`, where `f` is private, with `f` defined behind it.
def prototyped : Tree :=
  .whole "translation_unit" 0 38 none [
    .whole "class_specifier" 0 21 none [
      .token "class" 0,
      .whole "type_identifier" 6 7 (some "name") [],
      .whole "field_declaration_list" 8 21 (some "body") [
        .token "\x7b" 8,
        .whole "field_declaration" 10 19 none [
          .whole "primitive_type" 10 14 (some "type") [],
          .whole "function_declarator" 15 18 (some "declarator") [
            .whole "field_identifier" 15 16 (some "declarator") [],
            .whole "parameter_list" 16 18 (some "parameters") [.token "(" 16, .token ")" 17]],
          .token ";" 18],
        .token "\x7d" 20]],
    .token ";" 21,
    memberDefinition 23 0 []]

theorem private_prototype_is_defined :
    let cx : Context := ⟨"class A \x7b void f(); \x7d;\nvoid A::f() \x7b\x7d\n", "t.cpp", .cpp, {}⟩
    let own := definitionsOf cx .cpp (.root prototyped) "A"
    let after := firstNamed? "A" (classes cx .cpp (.root prototyped))
    own ≠ [] ∧ after.isSome ∧ ∀ m ∈ own, standing? after m.name = some (shownAs m .isPrivate) := by
  intro cx own after
  have defined : own ≠ [] := by decide +kernel
  obtain ⟨reached, joins, _, complete⟩ :=
    (definitions_join_their_class cx .cpp (.root prototyped)).1 "A"
  have all : latest own = own := complete.mpr (by decide +kernel)
  have hidden : ∀ m ∈ own, accessOf (firstNamed? "A" (declared cx .cpp (.root prototyped))) m.name =
      .isPrivate := by decide +kernel
  refine ⟨defined, reached defined, fun m member => ?_⟩
  rw [joins.placed m (all.symm ▸ member), hidden m member]

def overloads : Tree :=
  .whole "translation_unit" 0 35 none [
    memberDefinition 0 0 [],
    memberDefinition 15 5 [
      .whole "parameter_declaration" 25 30 none [
        .whole "primitive_type" 25 28 (some "type") [],
        .whole "identifier" 29 30 (some "declarator") []]]]

-- Of two overloads the first one is in no class.
theorem overload_is_lost :
    ¬ ∀ (cx : Context) (table : NodeKinds) (root : Node), ∀ d ∈ definitions cx table root,
      ∃ c, firstNamed? d.1 (classes cx table root) = some c ∧
        (c.callables.map (·.function)).count d.2.function = 1 := by
  intro kept
  let cx : Context :=
    ⟨"void A::f() \x7b\x7d\nvoid A::f(int x) \x7b\x7d\n", "t.cpp", .cpp, {}⟩
  have lost : ¬ ∀ d ∈ definitions cx .cpp (.root overloads), ((firstNamed? d.1
      (classes cx .cpp (.root overloads))).any fun c =>
        (c.callables.map (·.function)).count d.2.function == 1) = true := by decide +kernel
  refine lost fun d member => ?_
  obtain ⟨c, first, once⟩ := kept cx .cpp (.root overloads) d member
  rw [first]
  exact beq_iff_eq.mpr once

end CodeEntities.CFamily
