import CodeEntities.Extract.Complexity
import CodeEntities.Text.Comment
import CodeEntities.Text.Position

namespace CodeEntities.Node

def startPosition (n : Node) (source : String) : Text.Position :=
  .atOffset source n.label.start

def endPosition (n : Node) (source : String) : Text.Position :=
  .atOffset source n.label.stop

def anchorWrappers : List String := [
  "export_statement", "decorated_definition", "template_declaration", "ambient_declaration"]

def attributeKinds : List String := [
  "attribute_item", "inner_attribute_item", "decorator", "annotation", "marker_annotation",
  "attribute_list", "attribute"]

-- Row of the last character: a comment may end just after its line feed.
def lastRow (source : String) (n : Node) : Nat :=
  let stop := n.endPosition source
  if stop.column == 0 && stop.row > (n.startPosition source).row then stop.row - 1 else stop.row

def isTrailingComment (source : String) (n : Node) : Bool :=
  match n.previousSibling? with
  | some p => !p.isComment && (p.endPosition source).row == (n.startPosition source).row
  | none => false

def anchor (n : Node) : Node :=
  ((n.ancestors.takeWhile fun p => anchorWrappers.contains p.kind).getLast?).getD n

def commentText (source : String) (n : Node) : String := Text.trimEnd (n.text source)

-- Line comments that go on upwards without a blank row from a comment, nearest first.
def commentRun (source : String) (current : Node) : List Node → List Node
  | [] => []
  | p :: earlier =>
    if !p.isComment || p.isTrailingComment source ||
        p.lastRow source + 1 < (current.startPosition source).row ||
        Text.isBlockComment (p.commentText source) then []
    else p :: commentRun source p earlier

-- The comment that documents a node: the nearest one before it that ends on the
-- row before it or later, where attributes in between are passed over. Adjacent
-- line comments belong together; a block comment stands alone.
def precedingComment (source : String) (n : Node) : Option String := do
  let start := n.anchor
  let isAttribute := fun p : Node => attributeKinds.contains p.kind
  let attributes := start.earlierSiblings.takeWhile isAttribute
  let nextRow := ((attributes.getLast?).getD start |>.startPosition source).row
  let first ← (start.earlierSiblings.dropWhile isAttribute).head?
  if !first.isComment || first.lastRow source + 1 < nextRow || first.isTrailingComment source then
    none
  else
    let run :=
      if Text.isBlockComment (first.commentText source) then [first]
      else first :: commentRun source first first.earlierSiblings
    let text := Text.join "\n" (run.reverse.map (commentText source))
    let cleaned := Text.cleanComment text
    if cleaned.isEmpty then none else some cleaned

def docstring (source : String) (body : Node) : Option String := do
  let first ← body.namedChildren.head?
  if first.kind != "expression_statement" then none
  else
    let literal ← first.namedChildren.head?
    if literal.kind != "string" && literal.kind != "concatenated_string" then none
    else
      let doc := Text.cleanDocstring (literal.text source)
      if doc.isEmpty then none else some doc

end CodeEntities.Node
