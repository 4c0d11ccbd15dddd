import CodeEntities.Rules.All

namespace CodeEntities

def isFault (n : Node) : Bool := n.label.error || n.label.missing

-- The outermost faults, in document order. Only nodes that are marked as holding
-- an error are entered.
def faults (root : Node) : List Node :=
  if root.label.hasError then
    root.collect fun m =>
      if isFault m then .report else if m.label.hasError then .enter else .pass
  else []

def excerptLength : Nat := 40

def faultMessage (cx : Context) (n : Node) : String :=
  if n.label.error then
    let excerpt := Text.trim (String.ofList ((cx.text n).toList.take excerptLength))
    if excerpt.isEmpty then "Syntax error" else "Syntax error near \x60" ++ excerpt ++ "\x60"
  else "Missing \x60" ++ n.kind ++ "\x60"

def parseErrors (cx : Context) (root : Node) : List ParseError :=
  (faults root).map fun n => { message := faultMessage cx n, location := cx.location n }

namespace Outline

def extract (cx : Context) (root : Node) : Outline :=
  let rules := Rules.of cx.language
  { filePath := cx.filePath
    language := cx.language
    functions := rules.functions cx root
    classes := rules.classes cx root
    interfaces := rules.interfaces cx root
    typeAliases := rules.typeAliases cx root
    bindings := rules.bindings cx root
    imports := rules.imports cx root
    exports := rules.exports cx root
    errors := parseErrors cx root }

end Outline

end CodeEntities
