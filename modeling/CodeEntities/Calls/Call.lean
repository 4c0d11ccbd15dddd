import CodeEntities.Json.Basic

namespace CodeEntities

-- One call. `receiver` is the object of a member call; direct calls and
-- constructor calls have none. Lines count from 1, columns are bytes from 0.
structure FunctionCall where
  callerId : String
  callerName : String
  calleeName : String
  line : Nat
  column : Nat
  isDirect : Bool
  isAwaited : Bool
  isConstructor : Bool
  receiver : Option String := none
  arguments : List String := []
  deriving Repr, DecidableEq, Inhabited

namespace FunctionCall

def callerIdOf (filePath caller : String) : String := filePath ++ ":" ++ caller

def withCaller (filePath caller : String) (c : FunctionCall) : FunctionCall :=
  { c with callerName := caller, callerId := callerIdOf filePath caller }

def toJson (c : FunctionCall) : Json :=
  let receiver :=
    match c.receiver with
    | some text => [("receiver", .string text)]
    | none => []
  .object <| [
    ("callerId", .string c.callerId),
    ("callerName", .string c.callerName),
    ("calleeName", .string c.calleeName),
    ("lineNumber", .ofNat c.line),
    ("column", .ofNat c.column),
    ("isDirectCall", .bool c.isDirect),
    ("isAwait", .bool c.isAwaited),
    ("isConstructorCall", .bool c.isConstructor)] ++ receiver ++
    [("arguments", .ofList .string c.arguments)]

def ofJson? (j : Json) : Option FunctionCall := do
  let get ← j.record? [
    "callerId", "callerName", "calleeName", "lineNumber", "column", "isDirectCall", "isAwait",
    "isConstructorCall", "receiver", "arguments"]
  pure {
    callerId := ← Json.required? get "callerId" Json.asString?
    callerName := ← Json.required? get "callerName" Json.asString?
    calleeName := ← Json.required? get "calleeName" Json.asString?
    line := ← Json.required? get "lineNumber" Json.asSize?
    column := ← Json.required? get "column" Json.asSize?
    isDirect := ← Json.required? get "isDirectCall" Json.asBool?
    isAwaited := ← Json.required? get "isAwait" Json.asBool?
    isConstructor := ← Json.required? get "isConstructorCall" Json.asBool?
    receiver := ← Json.optional? get "receiver" Json.asString?
    arguments := ← Json.required? get "arguments" (Json.asList? Json.asString?) }

end FunctionCall

end CodeEntities
