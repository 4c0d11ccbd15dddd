import CodeEntities.Text.Offset
import CodeEntities.Tree.Search

namespace CodeEntities

-- Named nodes of these kinds add a path through the code. The list is the union
-- over the grammars; a grammar never has the kinds of another by accident.
def branchKinds : List String := [
  "if_statement", "if_expression", "if_let_expression", "elif_clause", "elseif_statement", "elsif",
  "if", "unless", "if_modifier", "unless_modifier", "guard_statement",
  "while_statement", "while_expression", "while", "while_modifier", "until", "until_modifier",
  "for_statement", "for_in_statement", "for_expression", "for_in_clause", "for",
  "enhanced_for_statement", "foreach_statement", "c_style_for_statement", "do_statement",
  "do_while_statement", "repeat_statement", "repeat_while_statement", "loop_expression",
  "ternary_expression", "conditional_expression", "conditional",
  "switch_case", "case_clause", "case_statement", "case_item", "expression_case", "type_case",
  "communication_case", "switch_label", "switch_section", "switch_entry", "match_arm",
  "when_entry", "when", "alternative",
  "catch_clause", "catch_block", "except_clause", "except_group_clause", "rescue"]

def booleanContainers : List String := [
  "binary_expression", "boolean_operator", "binary", "binary_operator", "infix_expression",
  "conjunction_expression", "disjunction_expression", "list"]

def booleanOperators : List String := ["&&", "||", "and", "or"]

def branchingMacros : List String := [
  "if", "unless", "case", "cond", "with", "for", "receive", "try"]

namespace Node

def text (n : Node) (source : String) : String := Text.slice source n.label.start n.label.stop

def isBranchingCall (source : String) (n : Node) : Bool :=
  n.kind == "call" &&
    match n.field? "target" with
    | some target => branchingMacros.contains (target.text source)
    | none => false

-- Anonymous keyword tokens share the names of the constructs they start and do not count.
def isBranch (source : String) (n : Node) : Bool :=
  n.isNamed && (branchKinds.contains n.kind || n.isBranchingCall source)

def booleanOperatorCount (n : Node) : Nat :=
  if booleanContainers.contains n.kind then
    n.children.countP fun c => !c.isNamed && booleanOperators.contains c.kind
  else 0

-- A score with the decisions that are made at the node itself. Scores are machine words.
def addDecisions (source : String) (score : UInt32) (n : Node) : UInt32 :=
  (if n.isBranch source then score + 1 else score) + n.booleanOperatorCount.toUInt32

-- Scores the nodes at and below the nodes of a stack, the top of the stack first. The children of
-- a node are put on top of the others, the last child uppermost.
def scoreStack (source : String) (score : UInt32) : List Node → UInt32
  | [] => score
  | n :: stack => scoreStack source (n.addDecisions source score) (n.children.reverse ++ stack)
termination_by stack => stackSize stack
decreasing_by exact stackSize_reversed n stack

def cyclomatic (source : String) (n : Node) : Nat := (scoreStack source 1 [n]).toNat

end Node

end CodeEntities
