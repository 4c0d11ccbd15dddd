import CodeEntities.Outline.Extract
import CodeEntities.Proofs.Rules.All

namespace CodeEntities

namespace Rules.BareNames

def all (bare : BareNames) (cx : Context) (root : Node) : List String :=
  bare.functions cx root ++ bare.classes cx root ++ bare.interfaces cx root ++
    bare.typeAliases cx root ++ bare.bindings cx root

end Rules.BareNames

namespace Outline

def names (u : Outline) : List String :=
  u.functions.map (·.name) ++ u.classes.map (·.name) ++ u.interfaces.map (·.name) ++
    u.typeAliases.map (·.name) ++ u.bindings.map (·.name)

theorem nameless_iff (cx : Context) (root : Node) :
    "" ∈ (extract cx root).names ↔ "" ∈ (Rules.BareNames.of cx.language).all cx root := by
  have rules := Rules.of_names cx.language
  simp only [names, Rules.BareNames.all, List.mem_append]
  exact or_congr (or_congr (or_congr (or_congr (rules.functions cx root) (rules.classes cx root))
    (rules.interfaces cx root)) (rules.typeAliases cx root)) (rules.bindings cx root)

-- Every entity has a name exactly when every name that is taken as it is spelled has some text.
theorem names_filled_iff (cx : Context) (root : Node) :
    (∀ name ∈ (extract cx root).names, name ≠ "") ↔
      ∀ name ∈ (Rules.BareNames.of cx.language).all cx root, name ≠ "" :=
  List.forall_mem_ne'.trans ((not_congr (nameless_iff cx root)).trans List.forall_mem_ne'.symm)

-- `local = 3`, where the parser puts an identifier without any text.
def namelessLocal : Node :=
  let broken := fun (t : Tree) => Tree.mk { t.label with hasError := true } t.children
  let missing := fun (kind : String) (named : Bool) (start : Nat) (field : Option String) =>
    Tree.mk { (Tree.whole kind start start field []).label with
      named, missing := true, hasError := true } []
  .root <| broken <| .whole "chunk" 0 30 none [
    broken <| .whole "function_declaration" 0 19 none [
      .token "function" 0,
      .whole "identifier" 9 10 (some "name") [],
      broken <| .whole "parameters" 10 15 (some "parameters") [
        .token "(" 10, .whole "identifier" 12 15 (some "name") [], missing ")" false 15 none],
      .token "end" 16],
    broken <| .whole "variable_declaration" 20 29 (some "local_declaration") [
      .token "local" 20,
      broken <| .whole "assignment_statement" 25 29 none [
        broken <| .whole "variable_list" 25 25 none [missing "identifier" true 25 (some "name")],
        .token "=" 26,
        .whole "expression_list" 28 29 none [.whole "number" 28 29 (some "value") []]]]]

theorem nameless_binding_stays :
    ¬ ∀ (cx : Context) (root : Node), ∀ name ∈ (extract cx root).names, name ≠ "" := by
  intro filled
  have bare : "" ∈ (extract ⟨"function f(\nend end\nlocal = 3\n", "f.lua", .lua, {}⟩
      namelessLocal).names := by
    decide +kernel
  exact filled _ _ _ bare rfl

end Outline

end CodeEntities
