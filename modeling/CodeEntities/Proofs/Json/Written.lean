import CodeEntities.Outline.Encoding
import Mathlib.Data.List.Forall2

namespace CodeEntities.Json

-- Another way of writing a value: members stand in any order, each once, and those with the
-- value null may be there or be left out.
inductive Written : Json → Json → Prop where
  | same (j : Json) : Written j j
  | inItems {items others : List Json} (each : List.Forall₂ Written items others) :
      Written (list items) (list others)
  | inMembers {members others : List (String × Json)} (distinct : (others.map (·.1)).Nodup)
      (kept : ∀ name j k, members.lookup name = some j → others.lookup name = some k → Written j k)
      (dropped : ∀ name j, members.lookup name = some j → others.lookup name = none → j = null)
      (added : ∀ name k, members.lookup name = none → others.lookup name = some k → k = null) :
      Written (object members) (object others)

structure Fields (members : List (String × Json)) (get : String → Option Json) : Prop where
  kept : ∀ name j k, members.lookup name = some j → get name = some k → Written j k
  dropped : ∀ name j, members.lookup name = some j → get name = none → j = null
  added : ∀ name k, members.lookup name = none → get name = some k → k = null

-- A value is read back however it is written. It is never written as null, which stands for
-- a value that is absent.
structure ReadBack {α : Type} (read : Json → Option α) (j : Json) (a : α) : Prop where
  present : j ≠ null
  back : ∀ k, Written j k → read k = some a

variable {α β : Type} {read : Json → Option α} {a : α} {j k : Json} {name : String}
  {members : List (String × Json)} {get : String → Option Json}

theorem Written.fields (written : Written (object members) k) :
    ∃ others, k = object others ∧ Fields members (others.lookup ·) := by
  cases written with
  | same =>
    refine ⟨members, rfl, fun name j k found again => ?_, fun name j found absent => ?_,
      fun name k absent found => ?_⟩
    · rw [found] at again
      cases again
      exact .same j
    · rw [found] at absent
      cases absent
    · rw [absent] at found
      cases found
  | inMembers _ kept dropped added => exact ⟨_, rfl, kept, dropped, added⟩

theorem Written.items {items : List Json} (written : Written (list items) k) :
    ∃ others, k = list others ∧ List.Forall₂ Written items others := by
  cases written with
  | same => exact ⟨items, rfl, List.forall₂_same.mpr fun j _ => .same j⟩
  | inItems each => exact ⟨_, rfl, each⟩

theorem Written.absent (written : Written null k) : k = null := by
  cases written with
  | same => rfl

theorem Written.extended (distinct : ((members ++ [(name, null)]).map (·.1)).Nodup) :
    Written (object members) (object (members ++ [(name, null)])) := by
  refine .inMembers distinct (fun key j k found again => ?_) (fun key j found absent => ?_)
    fun key k absent found => ?_
  · rw [List.lookup_append, found] at again
    cases again
    exact .same j
  · rw [List.lookup_append, found] at absent
    cases absent
  · rw [List.lookup_append, absent, Option.none_or, List.lookup_cons] at found
    split at found
    · cases found
      rfl
    · cases found

theorem ReadBack.value (back : ReadBack read j a) (written : Written j k) : k ≠ null := by
  rintro rfl
  cases written with
  | same => exact back.present rfl

theorem string_back (s : String) : ReadBack asString? (string s) s where
  present := nofun
  back k written := by
    cases written with
    | same => rfl

theorem bool_back (b : Bool) : ReadBack asBool? (bool b) b where
  present := nofun
  back k written := by
    cases written with
    | same => rfl

theorem nat_back {limit n : Nat} (fits : n ≤ limit) : ReadBack (asNatUpTo? limit) (ofNat n) n where
  present := nofun
  back k written := by
    cases written with
    | same =>
      have bounds : (0 : Int) ≤ n ∧ (n : Int) ≤ limit := ⟨Int.natCast_nonneg n, Int.ofNat_le.mpr fits⟩
      rw [ofNat, asNatUpTo?, if_pos bounds, Int.toNat_natCast]

theorem constant_back {ofName? : String → Option α} (known : ofName? name = some a) :
    ReadBack (constant? ofName?) (string name) a where
  present := nofun
  back k written := by
    cases written with
    | same => exact known

theorem mapM_back {write : α → Json} {items : List α} {others : List Json}
    (each : ∀ a ∈ items, ReadBack read (write a) a)
    (written : List.Forall₂ Written (items.map write) others) :
    others.mapM read = some items := by
  induction items generalizing others with
  | nil =>
    cases written
    rfl
  | cons a rest ih =>
    obtain ⟨here, later⟩ := List.forall_mem_cons.mp each
    cases written with
    | cons first more =>
      rw [List.mapM_cons, here.back _ first, ih later more]
      rfl

theorem list_back {write : α → Json} {items : List α}
    (each : ∀ a ∈ items, ReadBack read (write a) a) :
    ReadBack (asList? read) (ofList write items) items where
  present := nofun
  back k written := by
    obtain ⟨others, rfl, same⟩ := written.items
    exact mapM_back each same

theorem record_back {names : List String} {build : (String → Option Json) → Option α}
    (each : ∀ get, Fields members get → build get = some a) :
    ReadBack (fun j => j.record? names >>= build) (object members) a where
  present := nofun
  back k written := by
    obtain ⟨others, rfl, fields⟩ := written.fields
    exact each _ fields

namespace Fields

variable {next : α → Option β} {b : β}

-- A field is there with a value; the fields behind it decide on the record.
theorem required (fields : Fields members get) (found : members.lookup name = some j)
    (back : ReadBack read j a) (rest : next a = some b) :
    (required? get name read >>= next) = some b := by
  unfold required?
  cases stands : get name with
  | none => exact absurd (fields.dropped name j found stands) back.present
  | some k =>
    rw [Option.bind_some, back.back k (fields.kept name j k found stands)]
    exact rest

theorem optional_eq {write : α → Json} {o : Option α} (fields : Fields members get)
    (found : members.lookup name = some (ofOption write o))
    (each : ∀ a ∈ o, ReadBack read (write a) a) : optional? get name read = some o := by
  unfold optional?
  cases stands : get name with
  | none =>
    have absent := fields.dropped name _ found stands
    cases o with
    | none => rfl
    | some a => exact absurd absent (each a rfl).present
  | some k =>
    have written := fields.kept name _ k found stands
    cases o with
    | none =>
      cases written.absent
      rfl
    | some a =>
      have back := each a rfl
      split
      · contradiction
      · rename_i same
        cases same
        exact absurd rfl (back.value written)
      · rename_i k _ same
        cases same
        rw [back.back k written, Option.map_some]

theorem optional {write : α → Json} {o : Option α} {next : Option α → Option β}
    (fields : Fields members get) (found : members.lookup name = some (ofOption write o))
    (each : ∀ a ∈ o, ReadBack read (write a) a) (rest : next o = some b) :
    (optional? get name read >>= next) = some b := by
  rw [fields.optional_eq found each]
  exact rest

theorem missing_eq (fields : Fields members get) (missing : members.lookup name = none) :
    optional? get name read = some none := by
  unfold optional?
  cases stands : get name with
  | none => rfl
  | some k =>
    cases fields.added name k missing stands
    rfl

end Fields

end CodeEntities.Json
