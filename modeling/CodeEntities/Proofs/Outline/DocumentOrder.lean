import CodeEntities.Proofs.Outline.Locations

namespace CodeEntities.Outline

structure DeclaredAt (cx : Context) (root : Node) (s : Rules.Sites) (u : Outline) : Prop where
  functions : ∀ f ∈ u.functions, cx.DeclaredBy (s.functions cx root) f
  classes : ∀ c ∈ u.classes, ∀ m ∈ c.callables, cx.Homed (s.homes cx root) m.function
  interfaces : ∀ i ∈ u.interfaces, ∀ m ∈ i.methods, cx.Homed (s.homes cx root) m.function

theorem extract_declared (cx : Context) (root : Node) :
    (extract cx root).DeclaredAt cx root (.of cx.language) where
  functions := (Rules.of_locates cx.language).functions
  classes c declared := ((Rules.of_locates cx.language).classes c declared).callables
  interfaces i declared := ((Rules.of_locates cx.language).interfaces i declared).members.methods

-- A node that declares a function declares no method, and no other function stands around it.
theorem methods_are_no_functions (cx : Context) (root : Node) :
    (extract cx root).DeclaredAt cx root (.of cx.language) ∧
      ∀ n ∈ (Rules.Sites.of cx.language).functions cx root,
        root.Reaches (Rules.of cx.language).kinds.wrappers n ∧
          (∀ h ∈ (Rules.Sites.of cx.language).homes cx root, n ∉ h.preorder) ∧
          ∀ o ∈ (Rules.Sites.of cx.language).functions cx root, n ∉ o.descendants := by
  have sites := Rules.of_separates cx.language
  refine ⟨extract_declared cx root, fun n site => ⟨(sites.reached n site).1, ?_, ?_⟩⟩
  · exact fun h home => sites.unhomed site home
  · exact fun o other => sites.unnested site other

-- No node declares types of two kinds, and none binds entries of two kinds.
theorem no_declaration_is_listed_twice (cx : Context) (root : Node) :
    (∀ sites ∈ Rules.TypeSites.of cx.language, (sites cx root).Declares cx
        (extract cx root).classes (extract cx root).interfaces (extract cx root).typeAliases) ∧
      ∀ sites ∈ Rules.BindingSites.of cx.language, (sites cx root).Declares cx
        (extract cx root).functions (extract cx root).bindings (extract cx root).imports :=
  ⟨Rules.of_types cx.language cx root, Rules.of_bindings cx.language cx root⟩

-- No entry starts before an earlier one of its list. The classes are not among the lists:
-- those that only methods apart from their type tell of stand after the others.
structure InDocumentOrder (u : Outline) : Prop where
  functions : InOrder (·.location) u.functions
  interfaces : InOrder (·.location) u.interfaces
  typeAliases : InOrder (·.location) u.typeAliases
  bindings : InOrder (·.location) u.bindings
  imports : InOrder (·.location) u.imports
  exports : InOrder (·.location) u.exports
  errors : InOrder (·.location) u.errors

theorem errors_inOrder {cx : Context} {root : Node} (placed : root.WellPlaced) :
    InOrder (·.location) (parseErrors cx root) :=
  cx.inOrder_map id (placed.preorder_starts.sublist (faults_sublist root)) fun _ _ => rfl

theorem lists_in_document_order (cx : Context) (root : Node) (placed : root.WellPlaced)
    (single : root.HoldsOne (Rules.of cx.language).kinds) : (extract cx root).InDocumentOrder := by
  have rules := Rules.of_orders cx.language
  exact {
    functions := rules.functions placed single
    interfaces := rules.interfaces placed
    typeAliases := rules.typeAliases placed
    bindings := rules.bindings placed
    imports := rules.imports placed
    exports := rules.exports placed
    errors := errors_inOrder placed }

-- A function under a decorator, and one after it.
def decoratedFunctions : Node :=
  let definition := fun (start : Nat) (field : Option String) =>
    Tree.whole "function_definition" start (start + 13) field [
      .token "def" start,
      .whole "identifier" (start + 4) (start + 5) (some "name") [],
      .whole "parameters" (start + 5) (start + 7) (some "parameters")
        [.token "(" (start + 5), .token ")" (start + 6)],
      .token ":" (start + 7),
      .whole "block" (start + 9) (start + 13) (some "body")
        [.whole "pass_statement" (start + 9) (start + 13) none [.token "pass" (start + 9)]]]
  .root <| .whole "module" 0 31 none [
    .whole "decorated_definition" 0 16 none [
      .whole "decorator" 0 2 none [.token "@" 0, .whole "identifier" 1 2 none []],
      definition 3 (some "definition")],
    definition 17 none]

theorem decorated_function_opens_at_decorator :
    let cx : Context :=
      ⟨"@a\ndef f(): pass\ndef g(): pass\n", "f.py", .python, { complexity := false }⟩
    decoratedFunctions.WellPlaced ∧
      decoratedFunctions.HoldsOne (Rules.of cx.language).kinds ∧
      (extract cx decoratedFunctions).functions.map (·.location.opening) = [⟨1, 0⟩, ⟨3, 0⟩] ∧
      (extract cx decoratedFunctions).InDocumentOrder := by
  intro cx
  have placed : decoratedFunctions.WellPlaced := by decide +kernel
  have single : decoratedFunctions.HoldsOne (Rules.of cx.language).kinds := by decide +kernel
  exact ⟨placed, single, by decide +kernel,
    lists_in_document_order cx decoratedFunctions placed single⟩

end CodeEntities.Outline
