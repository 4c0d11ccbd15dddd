import CodeEntities.Rules.Basic

namespace CodeEntities.Data

-- Longer scalars are not kept as initial values; the bound counts bytes.
def maxInitializer : Nat := 120

def valueType? (kind : String) : Option String :=
  if ["object", "block_mapping", "flow_mapping", "table", "inline_table"].contains kind then
    some "object"
  else if ["array", "block_sequence", "flow_sequence", "table_array_element"].contains kind then
    some "array"
  else if ["string", "string_scalar", "double_quote_scalar", "single_quote_scalar",
      "block_scalar"].contains kind then
    some "string"
  else if ["number", "integer", "float", "integer_scalar", "float_scalar"].contains kind then
    some "number"
  else if ["true", "false", "boolean", "boolean_scalar"].contains kind then some "boolean"
  else if ["null", "null_scalar"].contains kind then some "null"
  else if ["offset_date_time", "local_date_time", "local_date", "local_time"].contains kind then
    some "datetime"
  else none

def isWrapper (n : Node) : Bool := ["flow_node", "block_node", "plain_scalar"].contains n.kind

def wrapped? (n : Node) : Option Node :=
  n.namedChildren.find? fun c => !(["tag", "anchor"].contains c.kind)

theorem size_wrapped {n m : Node} (h : wrapped? n = some m) : m.size < n.size :=
  Node.size_child (List.mem_filter.mp (List.mem_of_find?_eq_some h)).1

def unwrap (n : Node) : Node :=
  if isWrapper n then
    match _found : wrapped? n with
    | some inner => unwrap inner
    | none => n
  else n
termination_by n.size
decreasing_by exact size_wrapped (by assumption)

structure Entry where
  whole : Node
  key : Node
  value : Option Node

def entries (language : Language) (root : Node) : List Entry :=
  let keyed := fun (value : Node → Node) (p : Node) =>
    (p.field? "key").map fun key => Entry.mk p key ((p.field? "value").map value)
  match language with
  | .json =>
    let members := ((root.childOfKind? ["object"]).map Node.namedChildren).getD []
    (members.filter (·.kind == "pair")).filterMap (keyed id)
  | .yaml =>
    let documents := root.namedChildren.filter (·.kind == "document")
    let values := (documents.flatMap Node.namedChildren).map unwrap
    let mappings := values.filter fun m => ["block_mapping", "flow_mapping"].contains m.kind
    let pairs := (mappings.flatMap Node.namedChildren).filter fun p =>
      NodeKinds.yaml.bindings.contains p.kind
    pairs.filterMap (keyed unwrap)
  | _ =>
    let pairs := root.namedChildren.filter fun p =>
      (NodeKinds.of language).bindings.contains p.kind
    pairs.filterMap fun p =>
      (p.childOfKind? ["bare_key", "quoted_key", "dotted_key"]).map fun key =>
        Entry.mk p key (if p.kind == "pair" then p.namedChildren[1]? else some p)

def entryVariable (cx : Context) (e : Entry) : VariableDecl :=
  let type := e.value.bind fun v => valueType? v.kind
  let isScalar := type != some "object" && type != some "array"
  let initializer := (e.value.filter fun _ => isScalar).map fun v => Text.unquote (cx.text v)
  { name := Text.unquote (cx.text (unwrap e.key))
    kind := .constant
    type
    initializer := initializer.filter fun text => text.utf8ByteSize ≤ maxInitializer
    location := cx.location e.whole
    docComment := cx.doc e.whole }

-- Configuration files have no code entities, only their top-level keys.
def rules (language : Language) : Rules where
  kinds := NodeKinds.of language
  bindings cx root := (entries language root).map (entryVariable cx)

end CodeEntities.Data
