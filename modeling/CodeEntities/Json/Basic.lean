namespace CodeEntities

-- JSON values. Members keep their order; a number that is not an integer is
-- kept as its text.
inductive Json where
  | null
  | bool (value : Bool)
  | int (value : Int)
  | decimal (text : String)
  | string (value : String)
  | list (items : List Json)
  | object (members : List (String × Json))
  deriving Repr, Inhabited

namespace Json

def maxSize : Nat := UInt64.size - 1

def maxWord : Nat := UInt32.size - 1

def asString? : Json → Option String
  | string value => some value
  | _ => none

def asBool? : Json → Option Bool
  | bool value => some value
  | _ => none

def asNatUpTo? (limit : Nat) : Json → Option Nat
  | int value => if 0 ≤ value ∧ value ≤ limit then some value.toNat else none
  | _ => none

def asSize? : Json → Option Nat := asNatUpTo? maxSize

def asWord? : Json → Option Nat := asNatUpTo? maxWord

def asList? {α : Type} (item : Json → Option α) : Json → Option (List α)
  | list items => items.mapM item
  | _ => none

def asName? : Json → Option String
  | string value => some value
  | object [(name, null)] => some name
  | _ => none

def member? (j : Json) (name : String) : Option Json :=
  match j with
  | object members => members.lookup name
  | _ => none

-- Access to the fields of a record: an object with the fields as members, or a
-- list with all field values in order.
def record? (names : List String) : Json → Option (String → Option Json)
  | object members => some fun name => members.lookup name
  | list items =>
    if items.length = names.length then some fun name => (names.zip items).lookup name else none
  | _ => none

def looseRecord? (names : List String) : Json → Option (String → Option Json)
  | object members => some fun name => members.lookup name
  | list items =>
    if items.length ≤ names.length then some fun name => (names.zip items).lookup name else none
  | _ => none

def required? {α : Type} (get : String → Option Json) (name : String) (value : Json → Option α) :
    Option α :=
  (get name).bind value

def defaulted? {α : Type} (get : String → Option Json) (name : String) (default : α)
    (value : Json → Option α) : Option α :=
  match get name with
  | none => some default
  | some j => value j

def optional? {α : Type} (get : String → Option Json) (name : String) (value : Json → Option α) :
    Option (Option α) :=
  match get name with
  | none | some null => some none
  | some j => (value j).map some

def ofOption {α : Type} (value : α → Json) : Option α → Json
  | none => null
  | some a => value a

def ofList {α : Type} (value : α → Json) (items : List α) : Json := list (items.map value)

def ofNat (n : Nat) : Json := int n

end Json

end CodeEntities
