import CodeEntities.Extract.Callable
import CodeEntities.Outline.Basic
import CodeEntities.Rules.Kinds

namespace CodeEntities

namespace Node

def classBody? (n : Node) : Option Node :=
  (n.field? "body").or (n.namedChildren.find? fun c => [
    "class_body", "declaration_list", "field_declaration_list", "enum_body", "enum_class_body",
    "interface_body", "protocol_body", "template_body", "body_statement", "block"].contains c.kind)

theorem size_classBody {n m : Node} (h : n.classBody? = some m) : m.size < n.size := by
  unfold classBody? at h
  rcases Option.or_eq_some_iff.mp h with found | ⟨_, found⟩
  · exact size_field found
  · exact size_child (List.mem_filter.mp (List.mem_of_find?_eq_some found)).1

end Node

namespace Context

def afterEquals? (cx : Context) (n : Node) : Option String :=
  match n.children.dropWhile (·.kind != "=") with
  | _ :: value :: _ => some (cx.trimmed value)
  | _ => none

end Context

-- How the entities of one language are read off its trees. The fields that end
-- in `Of` read a single candidate node; the others read a whole module. What a
-- language does not set follows from its node kinds.
structure Rules where
  kinds : NodeKinds
  -- Visibility of a member without a keyword.
  defaultVisibility : Visibility := .isPublic
  functionOf : Context → Node → Option FunctionDecl := fun cx n =>
    (cx.name? n).map fun name => cx.function n name (cx.callable n)
  methodOf : Context → Node → Option MethodDecl := fun cx n =>
    (functionOf cx n).map fun f => .ofFunction f (.ofModifiers f.modifiers defaultVisibility)
  classOf : Context → Node → Option ClassDecl := fun cx n =>
    (cx.name? n).map fun name =>
      let members := (n.classBody?.map Node.namedChildren).getD []
      { name
        typeParams := cx.typeParameters n
        superclass := cx.fieldText? n "superclass"
        methods := (members.filter fun m => kinds.methods.contains m.kind).filterMap (methodOf cx)
        location := cx.location n
        modifiers := cx.modifiers n
        docComment := cx.doc n
        isAbstract := (cx.modifiers n).contains .abstract }
  interfaceOf : Context → Node → Option InterfaceDecl := fun _ _ => none
  typeAliasOf : Context → Node → Option TypeAliasDecl := fun cx n =>
    (cx.name? n).map fun name => {
      name
      typeParams := cx.typeParameters n
      aliasedType := (["value", "type"].findSome? (cx.fieldText? n)).getD ""
      location := cx.location n
      modifiers := cx.modifiers n
      docComment := cx.doc n }
  variablesOf : Context → Node → List VariableDecl := fun _ _ => []
  importsOf : Context → Node → List ImportDecl := fun _ _ => []
  functions : Context → Node → List FunctionDecl := fun cx root =>
    (root.moduleLevel kinds.functions kinds.wrappers).filterMap (functionOf cx)
  classes : Context → Node → List ClassDecl := fun cx root =>
    (root.moduleLevel kinds.classes kinds.wrappers).filterMap (classOf cx)
  interfaces : Context → Node → List InterfaceDecl := fun cx root =>
    (root.moduleLevel kinds.interfaces kinds.wrappers).filterMap (interfaceOf cx)
  typeAliases : Context → Node → List TypeAliasDecl := fun cx root =>
    (root.moduleLevel kinds.typeAliases kinds.wrappers).filterMap (typeAliasOf cx)
  bindings : Context → Node → List VariableDecl := fun cx root =>
    (root.moduleLevel kinds.bindings kinds.wrappers).flatMap (variablesOf cx)
  imports : Context → Node → List ImportDecl := fun cx root =>
    (root.moduleLevel kinds.imports kinds.wrappers).flatMap (importsOf cx)
  exports : Context → Node → List ExportDecl := fun _ _ => []

end CodeEntities
