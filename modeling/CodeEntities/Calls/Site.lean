import CodeEntities.Calls.Forms
import CodeEntities.Extract.Context
import CodeEntities.Text.Letter

namespace CodeEntities

structure CallSite where
  callee : String
  receiver : Option String := none
  isConstructor : Bool := false
  deriving Repr, DecidableEq, Inhabited

namespace CallSite

def memberKinds : List String := [
  "member_expression", "attribute", "selector_expression", "field_expression",
  "member_access_expression", "navigation_expression", "dot_index_expression",
  "method_index_expression", "scoped_identifier", "qualified_identifier", "dot"]

def receiverFields : List String := [
  "object", "value", "operand", "argument", "expression", "table", "path", "scope", "target",
  "left"]

def memberFields : List String := [
  "property", "attribute", "field", "name", "method", "suffix", "right"]

def selfReceivers : List String := ["this", "self", "cls", "$this", "Self"]

def argumentLists : List String := [
  "arguments", "argument_list", "value_arguments", "actual_arguments", "call_suffix"]

def maxReceiverBytes : Nat := 64

-- A name that is worth showing: `obj`, `pkg.sub`.
def isSimple (text : String) : Bool :=
  !text.isEmpty && Text.byteLength text.toList ≤ maxReceiverBytes &&
    text.toList.all fun c => Text.isAlphanumeric c || ['_', '.', ':', '$', '@'].contains c

-- A type name without generic arguments, call parentheses and literal bodies.
def baseName (text : String) : String :=
  Text.trim (String.ofList (text.toList.takeWhile fun c => !(['<', '(', '{', '['].contains c)))

def dotted (name : String) : String := Text.replace name "::" "."

-- Call of a member. `X.new` on a capitalized name builds an object, and calls on
-- the own instance are named by the member alone.
def ofMember? (receiver member separator : String) : Option CallSite :=
  let receiver := Text.trim receiver
  let member := Text.trim (Text.dropStartWhile ['?', '.', ':'].contains (Text.trim member))
  if member.isEmpty then none
  else if selfReceivers.contains receiver then
    some { callee := member, receiver := some receiver }
  else if member == "new" && Text.isCapitalized receiver && isSimple receiver then
    some { callee := dotted receiver, isConstructor := true }
  else
    let callee := if isSimple receiver then receiver ++ separator ++ member else member
    some { callee, receiver := some receiver }

def ofConstructor? (source : String) (n : Node) : Option CallSite :=
  ((n.firstField? ["constructor", "type", "name"]).or n.namedChildren.head?).bind fun type =>
    let name := baseName (type.text source)
    if name.isEmpty then none else some { callee := name, isConstructor := true }

def ofMemberAccess? (source : String) (callee : Node) : Option CallSite := do
  let receiver ← (callee.firstField? receiverFields).or callee.namedChildren.head?
  let member ← (callee.firstField? memberFields).or callee.namedChildren.getLast?
  if member.isSame receiver then none
  else
    let separator :=
      if ["scoped_identifier", "qualified_identifier"].contains callee.kind then "::"
      else if callee.kind == "method_index_expression" then ":"
      else "."
    ofMember? (receiver.text source) (member.text source) separator

def ofName? (forms : CallForms) (source : String) (n callee : Node) : Option CallSite :=
  let name := Text.trim (callee.text source)
  if !isSimple name then none
  else
    let shown := if n.kind == "macro_invocation" then name ++ "!" else name
    some {
      callee := shown
      isConstructor := forms.capitalizedConstructors && Text.isCapitalized shown }

-- What a call node calls. A call whose callee is itself a call is not a site of
-- its own: a curried application counts once, at the innermost call.
def of? (forms : CallForms) (source : String) (n : Node) : Option CallSite :=
  if forms.constructors.contains n.kind then ofConstructor? source n
  else
    match n.firstField? ["object", "receiver", "scope"] with
    | some receiver =>
      (n.firstField? ["name", "method"]).bind fun name =>
        let separator := if n.kind == "scoped_call_expression" then "::" else "."
        ofMember? (receiver.text source) (name.text source) separator
    | none =>
      ((n.firstField? ["function", "method", "target", "name", "macro"]).or
        n.namedChildren.head?).bind fun callee =>
          if forms.calls.contains callee.kind then none
          else if memberKinds.contains callee.kind then ofMemberAccess? source callee
          else ofName? forms source n callee

def argumentNodes (n : Node) : List Node :=
  match (n.field? "arguments").or (n.childOfKind? argumentLists) with
  | some list =>
    let inner :=
      if list.kind == "call_suffix" then (list.childOfKind? ["value_arguments"]).getD list
      else list
    if argumentLists.contains inner.kind then inner.namedChildren else [inner]
  | none => n.childrenByField "argument"

def arguments (source : String) (n : Node) : List String :=
  ((argumentNodes n).map fun a => Text.trim (a.text source)).filter (! ·.isEmpty)

end CallSite

end CodeEntities
