import CodeEntities.Calls.Call

namespace CodeEntities

namespace NameIndex

def addName (names : List String) (name : String) : List String :=
  if names.contains name then names else names ++ [name]

def addEntry (key name : String) : List (String × List String) → List (String × List String)
  | [] => [(key, addName [] name)]
  | entry :: rest =>
    if key = entry.1 then (entry.1, addName entry.2 name) :: rest
    else if key < entry.1 then (key, addName [] name) :: entry :: rest
    else entry :: addEntry key name rest

theorem mem_keys_addEntry {key name k : String} {entries : List (String × List String)} :
    k ∈ (addEntry key name entries).map (·.1) ↔ k = key ∨ k ∈ entries.map (·.1) := by
  induction entries with
  | nil => simp [addEntry]
  | cons entry rest ih =>
    unfold addEntry
    split
    · next same => simp [same]
    · split
      · simp
      · simp only [List.map_cons, List.mem_cons, ih]
        exact or_left_comm

theorem addEntry_sorted (key name : String) {entries : List (String × List String)}
    (sorted : (entries.map (·.1)).Pairwise (· < ·)) :
    ((addEntry key name entries).map (·.1)).Pairwise (· < ·) := by
  induction entries with
  | nil => exact List.pairwise_singleton _ _
  | cons entry rest ih =>
    obtain ⟨first, later⟩ := List.pairwise_cons.mp sorted
    unfold addEntry
    split
    · exact sorted
    · next different =>
      split
      · next before =>
        refine List.pairwise_cons.mpr ⟨?_, sorted⟩
        intro k member
        rcases List.mem_cons.mp member with rfl | member
        · exact before
        · exact String.lt_trans before (first k member)
      · next behind =>
        refine List.pairwise_cons.mpr ⟨?_, ih later⟩
        intro k member
        rcases mem_keys_addEntry.mp member with rfl | member
        · refine Decidable.byContradiction fun notAfter => different ?_
          exact String.le_antisymm (String.not_lt.mp notAfter) (String.not_lt.mp behind)
        · exact first k member

end NameIndex

-- Names under names. The keys stand in order and each once, so the first entry of
-- a key is the only one.
structure NameIndex where
  entries : List (String × List String) := []
  sorted : (entries.map (·.1)).Pairwise (· < ·) := by exact .nil
  deriving Repr, DecidableEq

namespace NameIndex

def add (i : NameIndex) (key name : String) : NameIndex where
  entries := addEntry key name i.entries
  sorted := addEntry_sorted key name i.sorted

def keys (i : NameIndex) : List String := i.entries.map (·.1)

def names (i : NameIndex) (key : String) : List String := (i.entries.lookup key).getD []

def toJson (i : NameIndex) : Json :=
  .object (i.entries.map fun (key, names) => (key, .ofList .string names))

end NameIndex

structure CallIndex where
  callees : NameIndex := {}
  callers : NameIndex := {}
  deriving Repr, DecidableEq

namespace CallIndex

def add (i : CallIndex) (c : FunctionCall) : CallIndex where
  callees := i.callees.add c.callerName c.calleeName
  callers := i.callers.add c.calleeName c.callerName

def ofCalls (calls : List FunctionCall) : CallIndex := calls.foldl add {}

end CallIndex

structure CallGraph where
  filePath : String
  calls : List FunctionCall
  deriving Repr, DecidableEq, Inhabited

namespace CallGraph

def index (g : CallGraph) : CallIndex := .ofCalls g.calls

def callsFrom (g : CallGraph) : List (String × List String) := g.index.callees.entries

def callsTo (g : CallGraph) : List (String × List String) := g.index.callers.entries

def callees (g : CallGraph) (caller : String) : List String := g.index.callees.names caller

def callers (g : CallGraph) (callee : String) : List String := g.index.callers.names callee

def toJson (g : CallGraph) : Json := .object [
  ("filePath", .string g.filePath),
  ("calls", .ofList FunctionCall.toJson g.calls),
  ("callsFrom", g.index.callees.toJson),
  ("callsTo", g.index.callers.toJson)]

end CallGraph

end CodeEntities
