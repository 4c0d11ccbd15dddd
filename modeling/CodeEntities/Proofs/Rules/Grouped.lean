import Mathlib.Data.List.Basic
import Mathlib.Data.List.Induction

namespace CodeEntities.Grouped

variable {ε κ : Type} [BEq κ]

def keys (key : ε → κ) (entries : List ε) : List κ := (entries.map key).eraseDups

def group (key : ε → κ) (entries : List ε) (k : κ) : List ε := entries.filter (key · == k)

theorem keys_cons (key : ε → κ) (e : ε) (rest : List ε) :
    keys key (e :: rest) = key e :: keys key (rest.filter fun x => !key x == key e) := by
  rw [keys, List.map_cons, List.eraseDups_cons, List.filter_map]
  rfl

theorem read_keys {β : Type} {key : ε → κ} {entries : List ε} {read : κ → Option β} {name : β → κ}
    (own : ∀ k ∈ keys key entries, (read k).map name = some k) :
    ((keys key entries).filterMap read).map name = keys key entries := by
  rw [List.map_filterMap, List.filterMap_congr own, List.filterMap_some]

variable [LawfulBEq κ] {key : ε → κ} {entries rest : List ε} {e : ε} {k : κ}

theorem mem_keys : k ∈ keys key entries ↔ ∃ e ∈ entries, key e = k := by
  rw [keys, List.mem_eraseDups, List.mem_map]

theorem mem_group : e ∈ group key entries k ↔ e ∈ entries ∧ key e = k := by
  rw [group, List.mem_filter, beq_iff_eq]

theorem group_nonempty (member : k ∈ keys key entries) :
    ∃ first more, group key entries k = first :: more := by
  obtain ⟨e, there, own⟩ := mem_keys.mp member
  exact List.exists_cons_of_ne_nil (List.ne_nil_of_mem (mem_group.mpr ⟨there, own⟩))

theorem group_empty (missing : k ∉ keys key entries) : group key entries k = [] := by
  refine List.eq_nil_iff_forall_not_mem.mpr fun e member => ?_
  exact missing (mem_keys.mpr ⟨e, mem_group.mp member⟩)

theorem keys_concat (key : ε → κ) (entries : List ε) (e : ε) : keys key (entries ++ [e]) =
    if key e ∈ keys key entries then keys key entries else keys key entries ++ [key e] := by
  simp only [keys, List.map_append, List.eraseDups_append, List.map_cons, List.map_nil,
    List.mem_eraseDups, List.removeAll]
  by_cases known : key e ∈ entries.map key
  · simp [known]
  · simp [known, List.eraseDups_cons]

theorem mem_keys_concat :
    k ∈ keys key (entries ++ [e]) ↔ k ∈ keys key entries ∨ key e = k := by
  simp [mem_keys, or_and_right, exists_or]

theorem group_own (key : ε → κ) (entries : List ε) (e : ε) :
    group key (entries ++ [e]) (key e) = group key entries (key e) ++ [e] := by
  simp [group]

theorem group_other (other : key e ≠ k) : group key (entries ++ [e]) k = group key entries k := by
  simp [group, other]

theorem keys_nodup (key : ε → κ) (entries : List ε) : (keys key entries).Nodup := by
  induction entries using List.reverseRecOn with
  | nil => exact .nil
  | append_singleton entries e ih =>
    rw [keys_concat]
    split
    · exact ih
    · rename_i new
      refine List.nodup_append.mpr ⟨ih, List.pairwise_singleton _ _, ?_⟩
      rintro k old _ last rfl
      exact new (List.mem_singleton.mp last ▸ old)

theorem group_rest (other : k ≠ key e) :
    group key (e :: rest) k = group key (rest.filter fun x => !key x == key e) k := by
  rw [group, group, List.filter_cons_of_neg (by simpa using other.symm), List.filter_filter]
  refine List.filter_congr fun x _ => ?_
  by_cases own : key x = k
  · simp [own, other]
  · simp [own]

theorem keys_rest (member : k ∈ keys key (rest.filter fun x => !key x == key e)) : k ≠ key e := by
  obtain ⟨x, listed, rfl⟩ := mem_keys.mp member
  simpa using (List.mem_filter.mp listed).2

-- No entry is lost, and none counts twice.
theorem groups_perm (key : ε → κ) : ∀ entries : List ε,
    ((keys key entries).flatMap (group key entries)).Perm entries
  | [] => .nil
  | e :: rest => by
    have others := groups_perm key (rest.filter fun x => !key x == key e)
    have own : group key (e :: rest) (key e) = e :: rest.filter fun x => key x == key e := by
      simp [group]
    rw [keys_cons, List.flatMap_cons, own,
      List.flatMap_congr fun k member => group_rest (keys_rest member)]
    exact ((List.Perm.append_left _ others).trans (List.filter_append_perm _ rest)).cons e
termination_by entries => entries.length
decreasing_by
  exact Nat.lt_succ_of_le (List.length_filter_le _ _)

theorem shared_perm {β : Type} {made : List β} {name : β → κ}
    (each : made.map name = keys key entries) :
    (made.flatMap fun b => group key entries (name b)).Perm entries := by
  have byKey := List.flatMap_map name (group key entries) (l := made)
  rw [← byKey, each]
  exact groups_perm key entries

theorem firsts_sublist (key : ε → κ) : ∀ entries : List ε,
    ((keys key entries).filterMap fun k => (group key entries k).head?).Sublist entries
  | [] => List.nil_sublist _
  | e :: rest => by
    have others := firsts_sublist key (rest.filter fun x => !key x == key e)
    have own : (group key (e :: rest) (key e)).head? = some e := by simp [group]
    have past : ∀ k ∈ keys key (rest.filter fun x => !key x == key e),
        (group key (e :: rest) k).head? =
          (group key (rest.filter fun x => !key x == key e) k).head? :=
      fun k member => congrArg List.head? (group_rest (keys_rest member))
    rw [keys_cons, List.filterMap_cons_some (f := fun k => (group key (e :: rest) k).head?) own,
      List.filterMap_congr past]
    exact (others.trans List.filter_sublist).cons_cons e
termination_by entries => entries.length
decreasing_by
  exact Nat.lt_succ_of_le (List.length_filter_le _ _)

end CodeEntities.Grouped
