import CodeEntities.Json.Printer

namespace CodeEntities

inductive OutputMode where
  | human | json
  deriving Repr, DecidableEq, Inhabited

namespace OutputMode

def ofFlag (asJson : Bool) : OutputMode := if asJson then json else human

def isHuman (m : OutputMode) : Bool := m == human

end OutputMode

inductive Envelope where
  | success (command : String) (data : Json)
  | failure (command message : String)
  deriving Repr

namespace Envelope

def toJson : Envelope → Json
  | success command data =>
    .object [("ok", .bool true), ("command", .string command), ("data", data)]
  | failure command message =>
    .object [("ok", .bool false), ("command", .string command), ("error", .string message)]

def render (e : Envelope) : String := e.toJson.pretty

end Envelope

end CodeEntities
