import CodeEntities.Proofs.Rules.Gathered
import CodeEntities.Proofs.Rules.Go
import CodeEntities.Proofs.Rules.Lua
import CodeEntities.Proofs.Rules.Rust
import Mathlib.Data.List.Basic

namespace CodeEntities

open ClassDecl (firstNamed?)

namespace Rust

variable {cx : Context} {root n : Node} {name : String} {c : ClassDecl}

theorem attach_gathers (cx : Context) :
    Rules.Gathers ImplBlock.owner extend (extension cx) (attach cx) where
  attaches := attach_attaches
  kept _ _ := rfl
  owned _ := rfl

def types (cx : Context) (root : Node) : List ClassDecl :=
  ((root.moduleLevel NodeKinds.rust.classes NodeKinds.rust.wrappers).filter
    (·.kind != "impl_item")).filterMap (typeClass? cx)

def blocks (cx : Context) (root : Node) : List ImplBlock :=
  ((root.moduleLevel NodeKinds.rust.classes NodeKinds.rust.wrappers).filter
    (·.kind == "impl_item")).filterMap (implBlock? cx)

theorem classes_eq (cx : Context) (root : Node) :
    classes cx root = (blocks cx root).foldl (attach cx) (types cx root) := rfl

end Rust

namespace Go

def namedMethod (cx : Context) (decl : Node) (name : String) : MethodDecl :=
  .ofFunction (cx.function decl name (callable cx decl name)) (visibility name)

def ownedMethods (cx : Context) (root : Node) : Rules.OwnedMethods :=
  (root.moduleLevel NodeKinds.go.methods []).filterMap fun decl => do
    let name ← cx.name? decl
    let owner ← receiverType? cx decl
    return (owner, namedMethod cx decl name)

def attachOwned (found : List ClassDecl) (entry : String × MethodDecl) : List ClassDecl :=
  attach found entry.1 entry.2

def structs (cx : Context) (root : Node) : List ClassDecl :=
  ((typeSpecs root ["type_spec"]).filter isStruct).filterMap fun spec =>
    (cx.name? spec).map (structClass cx spec)

theorem methodOf_eq (cx : Context) (decl : Node) :
    methodOf cx decl = (cx.name? decl).map (namedMethod cx decl) := by
  unfold methodOf functionOf
  rw [Option.map_map]
  rfl

theorem classes_eq (cx : Context) (root : Node) :
    classes cx root = (ownedMethods cx root).foldl attachOwned (structs cx root) := by
  unfold classes ownedMethods
  rw [List.foldl_filterMap]
  refine congrArg (List.foldl · (structs cx root) _) ?_
  funext found decl
  rw [methodOf_eq]
  cases cx.name? decl with
  | none => rfl
  | some name =>
    cases receiverType? cx decl with
    | none => rfl
    | some owner => rfl

theorem attach_gathers : Rules.Gathers (·.1)
    (fun (entry : String × MethodDecl) c => { c with methods := c.methods ++ [entry.2] })
    (fun entry => extension entry.1 entry.2) attachOwned where
  attaches found entry := attach_attaches found entry.1 entry.2
  kept _ _ := rfl
  owned _ := rfl

theorem structs_bare (cx : Context) (root : Node) :
    ∀ c ∈ structs cx root, c.methods = [] ∧ c.kind ≠ .extension := by
  intro c declared
  obtain ⟨spec, _, found⟩ := List.mem_filterMap.mp declared
  obtain ⟨name, _, rfl⟩ := Option.map_eq_some_iff.mp found
  exact ⟨rfl, (by decide : ClassKind.struct ≠ .extension)⟩

theorem classes_group (cx : Context) (root : Node) :
    Rules.GroupsMethods (ownedMethods cx root) (classes cx root) := by
  rw [classes_eq]
  have grouped := attach_gathers.groups (fun _ _ => rfl) (fun _ => rfl)
    (fun c declared => (structs_bare cx root c declared).1) (ownedMethods cx root)
  rwa [List.map_id'] at grouped

end Go

-- A class that starts where its first method does and ends where its last one does.
def ClassDecl.SpansMethods (c : ClassDecl) : Prop :=
  ∃ first last, c.methods.head? = some first ∧ c.methods.getLast? = some last ∧
    c.location = { first.function.location with
      endLine := last.function.location.endLine
      endColumn := last.function.location.endColumn }

namespace Lua

variable {cx : Context} {n root : Node} {c : ClassDecl}

def indexed? (n : Node) : Option (Node × Node × Bool) := do
  let name ← n.field? "name"
  let table ← name.field? "table"
  if name.kind == "dot_index_expression" then
    let member ← name.field? "field"
    return (table, member, false)
  else if name.kind == "method_index_expression" then
    let member ← name.field? "method"
    return (table, member, true)
  else none

def memberMethod (cx : Context) (n member : Node) (isInstance : Bool) : MethodDecl :=
  .ofFunction (cx.function n (cx.text member) {
    params := parameters cx n
    modifiers := Modifiers.empty.insertIf (!isInstance) .static }) .isPublic

theorem tableFunction_eq (cx : Context) (n : Node) :
    tableFunction? cx n = (indexed? n).map fun (table, member, isInstance) =>
      ⟨cx.text table, memberMethod cx n member isInstance⟩ := by
  unfold tableFunction? indexed?
  cases n.field? "name" with
  | none => rfl
  | some name =>
    simp only [Option.bind_eq_bind, Option.bind_some]
    by_cases colon : name.kind = "method_index_expression"
    · cases name.field? "table" with
      | none => simp [colon]
      | some table => cases member : name.field? "method" <;> simp [colon, member, memberMethod]
    · by_cases dot : name.kind = "dot_index_expression"
      · cases name.field? "table" with
        | none => simp [dot]
        | some table => cases member : name.field? "field" <;> simp [dot, member, memberMethod]
      · cases name.field? "table" <;> simp [colon, dot]

def ownedMethods (cx : Context) (root : Node) : Rules.OwnedMethods :=
  (root.moduleLevel NodeKinds.lua.classes NodeKinds.lua.wrappers).filterMap fun n => do
    let (table, member, isInstance) ← indexed? n
    return (cx.text table, memberMethod cx n member isInstance)

theorem attach_gathers : Rules.Gathers TableFunction.table grow tableClass attach where
  attaches := attach_attaches
  kept _ _ := rfl
  owned _ := rfl

theorem classes_group (cx : Context) (root : Node) :
    Rules.GroupsMethods (ownedMethods cx root) (classes cx root) := by
  let functions := (root.moduleLevel NodeKinds.lua.classes NodeKinds.lua.wrappers).filterMap
    (tableFunction? cx)
  have read : ownedMethods cx root = functions.map fun f => (f.table, f.method) := by
    unfold functions ownedMethods
    rw [List.map_filterMap]
    refine List.filterMap_congr fun n _ => ?_
    rw [tableFunction_eq, Option.map_map]
    cases indexed? n with
    | none => rfl
    | some _ => rfl
  rw [read]
  exact attach_gathers.groups (fun _ _ => rfl) (fun _ => rfl) (List.forall_mem_nil _) functions

theorem classes_apart (cx : Context) (root : Node) :
    (classes cx root).Pairwise fun a b => a.name ≠ b.name :=
  (attach_gathers.behind _ []).imp fun {_ _} declared same =>
    absurd (declared same) List.not_mem_nil

theorem grow_spans (spans : c.SpansMethods) (f : TableFunction) : (grow f c).SpansMethods := by
  obtain ⟨first, last, opens, _, place⟩ := spans
  refine ⟨first, f.method, ?_, List.getLast?_concat, ?_⟩
  · rw [grow, List.head?_append, opens]
    rfl
  · rw [grow, place]

theorem classes_span (cx : Context) (root : Node) : ∀ c ∈ classes cx root, c.SpansMethods := by
  unfold classes
  refine List.foldlRecOn (motive := fun found : List ClassDecl => ∀ c ∈ found, c.SpansMethods)
    _ _ (List.forall_mem_nil _) fun found spans f _ => ?_
  exact (attach_attaches found f).forall spans (fun _ => id) (fun _ here => grow_spans here f)
    ⟨f.method, f.method, rfl, rfl, rfl⟩

end Lua

-- A method that stands apart from its owner is one of the first class of the owner's name, in
-- document order, and of no other; a class is made only for a name that no class has.
theorem methods_group_under_their_owners (cx : Context) (root : Node) :
    ((root.moduleLevel NodeKinds.go.methods []).Sublist root.preorder ∧
      Rules.GroupsMethods (Go.ownedMethods cx root) (Go.classes cx root) ∧
      ((Go.classes cx root).Pairwise fun a b => a.name = b.name → b ∈ Go.structs cx root) ∧
      (Go.classes cx root).Pairwise fun a b =>
        a.kind = .extension ∨ b.kind = .extension → a.name ≠ b.name) ∧
    ((root.moduleLevel NodeKinds.lua.classes NodeKinds.lua.wrappers).Sublist root.preorder ∧
      Rules.GroupsMethods (Lua.ownedMethods cx root) (Lua.classes cx root) ∧
      ((Lua.classes cx root).Pairwise fun a b => a.name ≠ b.name) ∧
      ∀ c ∈ Lua.classes cx root, c.SpansMethods) := by
  refine ⟨⟨Node.moduleLevel_sublist .., Go.classes_group cx root, ?_, ?_⟩,
    Node.moduleLevel_sublist .., Lua.classes_group cx root, Lua.classes_apart cx root,
    Lua.classes_span cx root⟩
  · rw [Go.classes_eq]
    exact Go.attach_gathers.behind _ _
  · rw [Go.classes_eq]
    exact Go.attach_gathers.apart (fun _ _ => rfl) _
      fun c declared => (Go.structs_bare cx root c declared).2

end CodeEntities
