import CodeEntities.Json.Basic

namespace CodeEntities.Toml

-- How a table came about: by a header of its own, as a parent of such a header,
-- or by keys with dots.
inductive TableKind where
  | explicit | implicit | dotted
  deriving Repr, DecidableEq, Inhabited

inductive Value where
  | string (value : String)
  | integer (value : Int)
  | float (text : String)
  | boolean (value : Bool)
  | moment (text : String)
  | array (items : List Value)
  | inlineTable (entries : List (String × Value))
  | table (kind : TableKind) (entries : List (String × Value))
  | tables (elements : List (List (String × Value)))
  deriving Repr, Inhabited

abbrev Entries := List (String × Value)

mutual

-- The same data without the distinction of tables. A moment is a record with a
-- member of its own, so it fits no plain field.
def Value.toJson : Value → Json
  | .string value => .string value
  | .integer value => .int value
  | .float text => .decimal text
  | .boolean value => .bool value
  | .moment text => .object [("$__toml_private_datetime", .string text)]
  | .array items => .list (itemsToJson items)
  | .inlineTable entries => .object (entriesToJson entries)
  | .table _ entries => .object (entriesToJson entries)
  | .tables elements => .list (elementsToJson elements)

def itemsToJson : List Value → List Json
  | [] => []
  | v :: rest => v.toJson :: itemsToJson rest

def entriesToJson : List (String × Value) → List (String × Json)
  | [] => []
  | (key, v) :: rest => (key, v.toJson) :: entriesToJson rest

def elementsToJson : List (List (String × Value)) → List Json
  | [] => []
  | entries :: rest => .object (entriesToJson entries) :: elementsToJson rest

end

namespace Entries

def set (key : String) (new : Value) : Entries → Entries
  | [] => [(key, new)]
  | (other, v) :: rest => if other == key then (key, new) :: rest else (other, v) :: set key new rest

def add? (key : String) (v : Value) (entries : Entries) : Option Entries :=
  if (entries.lookup key).isSome then none else some (entries ++ [(key, v)])

-- Changes the table at a path of keys; `kind` is that of the table at hand. Tables
-- that are missing are made. Keys with dots do not enter a table that has a header
-- of its own.
def within (isDotted : Bool) (change : TableKind → Entries → Option Entries) :
    List String → TableKind → Entries → Option Entries
  | [], kind, entries => change kind entries
  | key :: rest, _, entries =>
    match entries.lookup key with
    | none =>
      let kind := if isDotted then .dotted else .implicit
      (within isDotted change rest kind []).map fun inner => entries ++ [(key, .table kind inner)]
    | some (.table kind inner) =>
      if isDotted && kind == .explicit then none
      else (within isDotted change rest kind inner).map fun inner =>
        set key (.table kind inner) entries
    | some (.tables elements) =>
      (within isDotted change rest .explicit (elements.getLastD [])).map fun inner =>
        set key (.tables (elements.dropLast ++ [inner])) entries
    | some _ => none

def assign? (key : List String) (v : Value) (entries : Entries) : Option Entries :=
  match key.getLast? with
  | none => none
  | some last =>
    let parents := key.dropLast
    within true (fun kind inner =>
      if (kind == .dotted) == parents.isEmpty then none else add? last v inner)
      parents .explicit entries

def openTable? (key : List String) (entries : Entries) : Option Entries :=
  match key.getLast? with
  | none => none
  | some last =>
    within false (fun _ inner =>
      match inner.lookup last with
      | none => some (inner ++ [(last, .table .explicit [])])
      | some (.table .implicit below) => some (set last (.table .explicit below) inner)
      | some _ => none)
      key.dropLast .explicit entries

def openElement? (key : List String) (entries : Entries) : Option Entries :=
  match key.getLast? with
  | none => none
  | some last =>
    within false (fun _ inner =>
      match inner.lookup last with
      | none => some (inner ++ [(last, .tables [[]])])
      | some (.tables elements) => some (set last (.tables (elements ++ [[]])) inner)
      | some _ => none)
      key.dropLast .explicit entries

def assignIn? (header key : List String) (v : Value) (entries : Entries) : Option Entries :=
  within false (fun _ inner => assign? key v inner) header .explicit entries

end Entries

end CodeEntities.Toml
