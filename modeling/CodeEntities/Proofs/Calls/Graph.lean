import CodeEntities.CommandLine.Output
import Mathlib.Data.List.Basic
import Mathlib.Data.List.Induction

namespace CodeEntities

namespace NameIndex

variable {i : NameIndex} {key name k n : String} {names : List String}
  {entries : List (String × List String)} {pairs : List (String × String)}

theorem mem_addName : n ∈ addName names name ↔ n ∈ names ∨ n = name := by
  unfold addName
  split
  · next there =>
    have there : name ∈ names := by simpa using there
    constructor
    · exact .inl
    · rintro (old | rfl)
      · exact old
      · exact there
  · simp

theorem lookup_here : ((k, names) :: entries).lookup k = some names := List.lookup_cons_self

theorem lookup_beyond (other : n ≠ k) : ((k, names) :: entries).lookup n = entries.lookup n := by
  rw [List.lookup_cons, beq_eq_false_iff_ne.mpr other]

theorem lookup_before (before : ∀ k ∈ entries.map (·.1), key < k) : entries.lookup key = none := by
  rw [List.lookup_eq_none_iff]
  intro entry member
  have less := before entry.1 (List.mem_map_of_mem member)
  rw [bne_iff_ne]
  intro same
  exact String.lt_irrefl _ (same ▸ less)

theorem lookup_addEntry (sorted : (entries.map (·.1)).Pairwise (· < ·)) :
    ((addEntry key name entries).lookup k).getD [] =
      if k = key then addName ((entries.lookup key).getD []) name
      else (entries.lookup k).getD [] := by
  induction entries with
  | nil =>
    by_cases same : k = key
    · subst same
      rw [if_pos rfl, addEntry, lookup_here]
      rfl
    · rw [if_neg same, addEntry, lookup_beyond same]
  | cons entry rest ih =>
    obtain ⟨own, old⟩ := entry
    obtain ⟨first, later⟩ := List.pairwise_cons.mp sorted
    unfold addEntry
    split
    · next found =>
      subst found
      by_cases same : k = key
      · subst same
        rw [if_pos rfl, lookup_here, lookup_here]
        rfl
      · rw [if_neg same, lookup_beyond same, lookup_beyond same]
    · next different =>
      split
      · next before =>
        by_cases same : k = key
        · subst same
          have absent : ((own, old) :: rest).lookup k = none := by
            apply lookup_before
            intro other member
            rcases List.mem_cons.mp member with rfl | member
            · exact before
            · exact String.lt_trans before (first other member)
          rw [if_pos rfl, lookup_here, absent]
          rfl
        · rw [if_neg same, lookup_beyond same]
      · rw [lookup_beyond different]
        by_cases here : k = own
        · subst here
          rw [if_neg (Ne.symm different), lookup_here, lookup_here]
        · rw [lookup_beyond here, lookup_beyond here]
          exact ih later

theorem names_add :
    (i.add key name).names k = if k = key then addName (i.names key) name else i.names k :=
  lookup_addEntry i.sorted

theorem mem_keys_add : k ∈ (i.add key name).keys ↔ k = key ∨ k ∈ i.keys := mem_keys_addEntry

theorem lookup_member (sorted : (entries.map (·.1)).Pairwise (· < ·))
    (member : (key, names) ∈ entries) : entries.lookup key = some names := by
  induction entries with
  | nil => cases member
  | cons entry rest ih =>
    obtain ⟨first, later⟩ := List.pairwise_cons.mp sorted
    rcases List.mem_cons.mp member with rfl | member
    · exact lookup_here
    · have less := first key (List.mem_map_of_mem (f := (·.1)) member)
      rw [lookup_beyond fun same => String.lt_irrefl _ (same ▸ less)]
      exact ih later member

theorem names_entry (member : (key, names) ∈ i.entries) : i.names key = names := by
  rw [NameIndex.names, lookup_member i.sorted member]
  rfl

-- What an index says of the pairs that went into it: which names stand under a key,
-- which keys there are, and that the names stand in the order of their first pairs.
structure Tracks (pairs : List (String × String)) (i : NameIndex) : Prop where
  named : ∀ k n, n ∈ i.names k ↔ (k, n) ∈ pairs
  keyed : ∀ k, k ∈ i.keys ↔ ∃ n, (k, n) ∈ pairs
  inOrder : ∀ k, (i.names k).Pairwise fun a b => pairs.idxOf (k, a) < pairs.idxOf (k, b)

theorem empty_tracks : Tracks [] {} where
  named _ _ := by simp [names]
  keyed _ := by simp [keys]
  inOrder _ := by simp [names]

theorem idxOf_front {p q : String × String} (member : p ∈ pairs) :
    (pairs ++ [q]).idxOf p = pairs.idxOf p := List.idxOf_append_of_mem member

theorem Tracks.inOrder_add (tracks : Tracks pairs i) :
    (addName (i.names key) name).Pairwise fun a b =>
      (pairs ++ [(key, name)]).idxOf (key, a) < (pairs ++ [(key, name)]).idxOf (key, b) := by
  have kept : (i.names key).Pairwise fun a b =>
      (pairs ++ [(key, name)]).idxOf (key, a) < (pairs ++ [(key, name)]).idxOf (key, b) := by
    refine (tracks.inOrder key).imp_of_mem ?_
    intro a b first second less
    rwa [idxOf_front ((tracks.named key a).mp first), idxOf_front ((tracks.named key b).mp second)]
  unfold addName
  split
  · exact kept
  · next absent =>
    have fresh : (key, name) ∉ pairs := by
      rw [← tracks.named]
      simpa using absent
    refine List.pairwise_append.mpr ⟨kept, List.pairwise_singleton _ _, ?_⟩
    intro a first b last
    obtain rfl := List.mem_singleton.mp last
    have there := (tracks.named key a).mp first
    rw [idxOf_front there, List.idxOf_append_of_notMem fresh]
    exact Nat.lt_of_lt_of_le (List.idxOf_lt_length_of_mem there) (Nat.le_add_right _ _)

theorem Tracks.add (tracks : Tracks pairs i) (key name : String) :
    Tracks (pairs ++ [(key, name)]) (i.add key name) where
  named k n := by
    rw [names_add]
    split
    · next same =>
      rw [mem_addName, tracks.named, same]
      simp
    · next other =>
      rw [tracks.named]
      simp [other]
  keyed k := by
    rw [mem_keys_add, tracks.keyed]
    simp only [List.mem_append, List.mem_singleton, Prod.mk.injEq]
    constructor
    · rintro (rfl | ⟨n, member⟩)
      · exact ⟨name, .inr ⟨rfl, rfl⟩⟩
      · exact ⟨n, .inl member⟩
    · rintro ⟨n, member | ⟨same, _⟩⟩
      · exact .inr ⟨n, member⟩
      · exact .inl same
  inOrder k := by
    rw [names_add]
    split
    · next same =>
      subst same
      exact tracks.inOrder_add
    · refine (tracks.inOrder k).imp_of_mem ?_
      intro a b first second less
      rwa [idxOf_front ((tracks.named k a).mp first), idxOf_front ((tracks.named k b).mp second)]

theorem Tracks.nodup (tracks : Tracks pairs i) (k : String) : (i.names k).Nodup := by
  refine (tracks.inOrder k).imp ?_
  intro a b less same
  exact Nat.lt_irrefl _ (same ▸ less)

theorem Tracks.entry (tracks : Tracks pairs i) (member : (key, names) ∈ i.entries) :
    names = i.names key ∧ names ≠ [] := by
  have same := names_entry member
  obtain ⟨n, pair⟩ := (tracks.keyed key).mp (List.mem_map_of_mem (f := (·.1)) member)
  have there := (tracks.named key n).mpr pair
  rw [same] at there
  exact ⟨same.symm, List.ne_nil_of_mem there⟩

end NameIndex

namespace FunctionCall

def edge (c : FunctionCall) : String × String := (c.callerName, c.calleeName)

def backEdge (c : FunctionCall) : String × String := (c.calleeName, c.callerName)

def links (caller callee : String) (c : FunctionCall) : Bool :=
  c.callerName == caller && c.calleeName == callee

theorem links_iff {caller callee : String} {c : FunctionCall} :
    c.links caller callee ↔ c.callerName = caller ∧ c.calleeName = callee := by
  simp [links]

end FunctionCall

namespace CallIndex

open FunctionCall NameIndex

variable {calls : List FunctionCall}

-- The pass keeps both indexes in step with the calls it has seen.
theorem ofCalls_tracks (calls : List FunctionCall) :
    Tracks (calls.map edge) (ofCalls calls).callees ∧
      Tracks (calls.map backEdge) (ofCalls calls).callers := by
  induction calls using List.reverseRecOn with
  | nil => exact ⟨empty_tracks, empty_tracks⟩
  | append_singleton calls c ih =>
    obtain ⟨callees, callers⟩ := ih
    rw [ofCalls, List.foldl_concat, List.map_append, List.map_append]
    exact ⟨callees.add c.callerName c.calleeName, callers.add c.calleeName c.callerName⟩

theorem idxOf_edge (x y : String) : (calls.map edge).idxOf (x, y) = calls.findIdx (links x y) := by
  rw [List.idxOf, List.findIdx_map]
  rfl

theorem idxOf_backEdge (x y : String) :
    (calls.map backEdge).idxOf (y, x) = calls.findIdx (links x y) := by
  rw [List.idxOf, List.findIdx_map]
  congr 1
  funext c
  exact Bool.and_comm _ _

end CallIndex

namespace CallGraph

open FunctionCall CommandLine

variable {g : CallGraph} {x y : String} {names : List String}

theorem mem_callees : y ∈ g.callees x ↔ ∃ c ∈ g.calls, c.callerName = x ∧ c.calleeName = y := by
  refine ((CallIndex.ofCalls_tracks g.calls).1.named x y).trans ?_
  simp [edge]

theorem mem_callers : x ∈ g.callers y ↔ ∃ c ∈ g.calls, c.callerName = x ∧ c.calleeName = y := by
  refine ((CallIndex.ofCalls_tracks g.calls).2.named y x).trans ?_
  simp [backEdge, and_comm]

theorem mem_callsFrom_keys : x ∈ g.callsFrom.map (·.1) ↔ ∃ c ∈ g.calls, c.callerName = x := by
  refine ((CallIndex.ofCalls_tracks g.calls).1.keyed x).trans ?_
  simp only [List.mem_map, edge, Prod.mk.injEq]
  constructor
  · rintro ⟨y, c, member, caller, _⟩
    exact ⟨c, member, caller⟩
  · rintro ⟨c, member, caller⟩
    exact ⟨c.calleeName, c, member, caller, rfl⟩

theorem mem_callsTo_keys : y ∈ g.callsTo.map (·.1) ↔ ∃ c ∈ g.calls, c.calleeName = y := by
  refine ((CallIndex.ofCalls_tracks g.calls).2.keyed y).trans ?_
  simp only [List.mem_map, backEdge, Prod.mk.injEq]
  constructor
  · rintro ⟨x, c, member, callee, _⟩
    exact ⟨c, member, callee⟩
  · rintro ⟨c, member, callee⟩
    exact ⟨c.callerName, c, member, callee, rfl⟩

theorem firstCalls_edges (listed : ∀ y ∈ names, y ∈ g.callees x) :
    (firstCalls g x names).map edge = names.map fun y => (x, y) := by
  induction names with
  | nil => rfl
  | cons y rest ih =>
    obtain ⟨c, member, caller, callee⟩ := mem_callees.mp (listed y List.mem_cons_self)
    have found : (g.calls.find? (links x y)).isSome :=
      List.find?_isSome.mpr ⟨c, member, links_iff.mpr ⟨caller, callee⟩⟩
    obtain ⟨first, found⟩ := Option.isSome_iff_exists.mp found
    obtain ⟨caller, callee⟩ := links_iff.mp (List.find?_some found)
    have head : firstCalls g x (y :: rest) = first :: firstCalls g x rest :=
      List.filterMap_cons_some found
    rw [head, List.map_cons, List.map_cons,
      ih fun y later => listed y (List.mem_cons_of_mem _ later)]
    simp [edge, caller, callee]

theorem mem_firstCalls {c : FunctionCall} (member : c ∈ firstCalls g x names) : c ∈ g.calls := by
  obtain ⟨y, _, found⟩ := List.mem_filterMap.mp member
  exact List.mem_of_find?_eq_some found

-- The two indexes of a list of calls answer each other: a name stands under a caller
-- exactly when the caller stands under the name, which is when some call has both. Each
-- list has its names once and in the order of the first calls that link them, the keys
-- are the names that occur, none over an empty list, and the listing finds a call for
-- every edge.
theorem indexes_answer_each_other (filePath : String) (calls : List FunctionCall) :
    let g : CallGraph := { filePath, calls }
    g.calls = calls ∧
    (∀ x y, (y ∈ g.callees x ↔ x ∈ g.callers y) ∧
      (y ∈ g.callees x ↔ ∃ c ∈ calls, c.callerName = x ∧ c.calleeName = y)) ∧
    (∀ x, (g.callees x).Nodup ∧
      (g.callees x).Pairwise fun y z => calls.findIdx (links x y) < calls.findIdx (links x z)) ∧
    (∀ y, (g.callers y).Nodup ∧
      (g.callers y).Pairwise fun x z => calls.findIdx (links x y) < calls.findIdx (links z y)) ∧
    ((g.callsFrom.map (·.1)).Pairwise (· < ·) ∧
      ∀ x, x ∈ g.callsFrom.map (·.1) ↔ ∃ c ∈ calls, c.callerName = x) ∧
    ((g.callsTo.map (·.1)).Pairwise (· < ·) ∧
      ∀ y, y ∈ g.callsTo.map (·.1) ↔ ∃ c ∈ calls, c.calleeName = y) ∧
    (∀ x names, (x, names) ∈ g.callsFrom → names = g.callees x ∧ names ≠ []) ∧
    (∀ y names, (y, names) ∈ g.callsTo → names = g.callers y ∧ names ≠ []) ∧
    ∀ x names, (x, names) ∈ g.callsFrom →
      (firstCalls g x names).map edge = names.map (fun y => (x, y)) ∧
      ∀ c ∈ firstCalls g x names, c ∈ calls := by
  intro g
  obtain ⟨from_, to_⟩ := CallIndex.ofCalls_tracks calls
  refine ⟨rfl, ?_, ?_, ?_, ⟨g.index.callees.sorted, fun _ => mem_callsFrom_keys⟩,
    ⟨g.index.callers.sorted, fun _ => mem_callsTo_keys⟩, ?_, ?_, ?_⟩
  · intro x y
    exact ⟨mem_callees.trans mem_callers.symm, mem_callees⟩
  · intro x
    refine ⟨from_.nodup x, (from_.inOrder x).imp ?_⟩
    intro y z less
    rwa [CallIndex.idxOf_edge, CallIndex.idxOf_edge] at less
  · intro y
    refine ⟨to_.nodup y, (to_.inOrder y).imp ?_⟩
    intro x z less
    rwa [CallIndex.idxOf_backEdge, CallIndex.idxOf_backEdge] at less
  · intro x names member
    exact from_.entry member
  · intro y names member
    exact to_.entry member
  · intro x names member
    obtain ⟨rfl, _⟩ := from_.entry member
    exact ⟨firstCalls_edges fun _ listed => listed, fun _ => mem_firstCalls⟩

def callAt (caller callee : String) (line : Nat) : FunctionCall where
  callerId := callerIdOf "a.ts" caller
  callerName := caller
  calleeName := callee
  line := line
  column := 0
  isDirect := true
  isAwaited := false
  isConstructor := false

example :
    let calls := [callAt "f" "g" 1, callAt "f" "g" 2, callAt "h" "g" 3]
    let g : CallGraph := { filePath := "a.ts", calls }
    g.callees "f" = ["g"] ∧ g.callers "g" = ["f", "h"] ∧ g.callees "missing" = [] := by
  decide +kernel

end CallGraph

end CodeEntities
