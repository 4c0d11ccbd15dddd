import CodeEntities.Proofs.Rules.Attached
import Mathlib.Data.List.Forall2

namespace CodeEntities

namespace ClassDecl

def bare (c : ClassDecl) : ClassDecl := { c with methods := [], constructor := none }

-- A class that no node declares stands where one of its methods does.
def IsExtension (c : ClassDecl) : Prop :=
  c.kind = .extension ∧ ∃ m ∈ c.methods, c.location = m.function.location

end ClassDecl

namespace Rules

-- The same classes with more methods, and after them those that only methods tell of.
def Extends (classes declared : List ClassDecl) : Prop :=
  ∃ extensions : List ClassDecl, (∀ c ∈ extensions, c.IsExtension) ∧
    classes.map (·.bare) = declared.map (·.bare) ++ extensions.map (·.bare)

section Extended

variable {classes declared more : List ClassDecl} {c d : ClassDecl}

theorem extends_refl (classes : List ClassDecl) : Extends classes classes :=
  ⟨[], List.forall_mem_nil _, by simp⟩

theorem extends_added (extension : c.IsExtension) : Extends [c] [] :=
  ⟨[c], List.forall_mem_singleton.mpr extension, by simp⟩

theorem Extends.cons (extended : Extends classes declared) (same : c.bare = d.bare) :
    Extends (c :: classes) (d :: declared) := by
  obtain ⟨extensions, own, split⟩ := extended
  exact ⟨extensions, own, by rw [List.map_cons, List.map_cons, same, split, List.cons_append]⟩

theorem Extends.trans (first : Extends more classes) (second : Extends classes declared) :
    Extends more declared := by
  obtain ⟨added, addedOwn, addedSplit⟩ := first
  obtain ⟨extensions, own, split⟩ := second
  refine ⟨extensions ++ added, List.forall_mem_append.mpr ⟨own, addedOwn⟩, ?_⟩
  rw [addedSplit, split, List.map_append, List.append_assoc]

theorem Attaches.extends {owner : String} {update : ClassDecl → ClassDecl} {new : ClassDecl}
    (attaches : Attaches owner update new declared classes)
    (kept : ∀ c, (update c).bare = c.bare) (extension : new.IsExtension) :
    Extends classes declared := by
  induction attaches with
  | new => exact extends_added extension
  | owner here => exact (extends_refl _).cons (kept _)
  | past other _ ih => exact ih.cons rfl

theorem foldl_extends {α : Type} {add : List ClassDecl → α → List ClassDecl}
    (each : ∀ found a, Extends (add found a) found) (entries : List α) (declared) :
    Extends (entries.foldl add declared) declared := by
  induction entries generalizing declared with
  | nil => exact extends_refl declared
  | cons a rest ih => exact (ih (add declared a)).trans (each declared a)

end Extended

def Spells (cx : Context) (s : Node) (name : String) : Prop :=
  ∃ k ∈ s.preorder, name = cx.text k ∨ name = cx.trimmed k

-- An entry stands where the statement around its node does, under names that the node spells.
structure Bound (cx : Context) (s : Node) (place : Location) (names : List String) : Prop where
  stands : ∃ n, s ∈ n.preorder ∧ place = cx.location n
  spelled : ∀ name ∈ names, Spells cx s name

section Spells

variable {cx : Context} {n m : Node} {name field : String}

theorem spells_text (below : m ∈ n.preorder) : Spells cx n (cx.text m) := ⟨m, below, .inl rfl⟩

theorem Spells.below (spells : Spells cx m name) (below : m ∈ n.preorder) : Spells cx n name := by
  obtain ⟨k, deeper, text⟩ := spells
  exact ⟨k, Node.preorder_trans below deeper, text⟩

theorem spells_nonBlank (below : m ∈ n.preorder)
    (found : Text.nonBlank? (cx.text m) = some name) : Spells cx n name := by
  unfold Text.nonBlank? at found
  simp only at found
  split at found
  · cases found
  · cases found
    exact ⟨m, below, .inr rfl⟩

theorem spells_field (found : cx.fieldText? n field = some name) : Spells cx n name := by
  obtain ⟨m, present, found⟩ := Option.bind_eq_some_iff.mp found
  exact spells_nonBlank (Node.field_below present) found

theorem nameNode_below (found : Context.nameNode? n = some m) : m ∈ n.preorder := by
  rcases Option.or_eq_some_iff.mp found with named | ⟨_, first⟩
  · exact Node.field_below named
  · exact Node.namedChild_below (List.mem_of_find?_eq_some first)

theorem spells_name (found : cx.name? n = some name) : Spells cx n name := by
  obtain ⟨candidate, named, found⟩ := Option.bind_eq_some_iff.mp found
  have below := nameNode_below named
  refine spells_nonBlank (Node.preorder_trans below ?_) found
  split
  · exact Node.self_mem_preorder candidate
  · exact Node.descendant_getD_below candidate _

end Spells

section Itself

variable {α β : Type} {R : Node → α → Prop} {read : Node → List α} {nodes : List Node} {s : Node}

theorem matched_flatMap {sites : β → List Node} {entries : β → List α} {parts : List β}
    (each : ∀ p ∈ parts, List.Forall₂ R (sites p) (entries p)) :
    List.Forall₂ R (parts.flatMap sites) (parts.flatMap entries) := by
  induction parts with
  | nil => exact .nil
  | cons p rest ih =>
    rw [List.flatMap_cons, List.flatMap_cons]
    refine List.rel_append (each p (List.mem_cons_self ..)) (ih fun q later => ?_)
    exact each q (List.mem_cons_of_mem p later)

def itself (read : Node → List α) (nodes : List Node) : List Node :=
  nodes.flatMap fun n => (read n).map fun _ => n

theorem matched_self {entries : List α} (each : ∀ a ∈ entries, R s a) :
    List.Forall₂ R (entries.map fun _ => s) entries :=
  List.forall₂_map_left_iff.mpr (List.forall₂_same.mpr each)

theorem itself_matched (each : ∀ n ∈ nodes, ∀ a ∈ read n, R n a) :
    List.Forall₂ R (itself read nodes) (nodes.flatMap read) :=
  matched_flatMap fun n node => matched_self (each n node)

theorem itself_mapped {read : Node → List β} {f : Node → β → α}
    (each : ∀ n ∈ nodes, ∀ b ∈ read n, R n (f n b)) :
    List.Forall₂ R (itself read nodes) (nodes.flatMap fun n => (read n).map (f n)) :=
  matched_flatMap fun n node => List.forall₂_map_right_iff.mpr (matched_self (each n node))

theorem itself_options {read : Node → Option α} (each : ∀ n ∈ nodes, ∀ a, read n = some a → R n a) :
    List.Forall₂ R (itself (fun n => (read n).toList) nodes) (nodes.filterMap read) := by
  rw [List.filterMap_eq_flatMap_toList]
  exact itself_matched fun n node a found => each n node a (Option.mem_toList.mp found)

theorem mem_itself (member : s ∈ itself read nodes) : s ∈ nodes ∧ ∃ a, a ∈ read s := by
  obtain ⟨n, node, site⟩ := List.mem_flatMap.mp member
  obtain ⟨a, entry, rfl⟩ := List.mem_map.mp site
  exact ⟨node, a, entry⟩

theorem itself_disjoint {other : Node → List β} {others : List Node}
    (clash : ∀ {n a b}, n ∈ nodes → n ∈ others → a ∈ read n → b ∈ other n → False) :
    (itself read nodes).Disjoint (itself other others) := by
  intro n first second
  obtain ⟨node, a, entry⟩ := mem_itself first
  obtain ⟨another, b, different⟩ := mem_itself second
  exact clash node another entry different

end Itself

structure TypeSites where
  classes : List Node
  interfaces : List Node
  typeAliases : List Node

-- Each type stands where its node does, and no node declares types of two kinds.
structure TypeSites.Declares (t : TypeSites) (cx : Context) (classes : List ClassDecl)
    (interfaces : List InterfaceDecl) (typeAliases : List TypeAliasDecl) : Prop where
  classes : ∃ declared, Extends classes declared ∧
    List.Forall₂ (fun n c => c.location = cx.location n) t.classes declared
  interfaces : List.Forall₂ (fun n i => i.location = cx.location n) t.interfaces interfaces
  typeAliases : List.Forall₂ (fun n a => a.location = cx.location n) t.typeAliases typeAliases
  noClassInterface : t.classes.Disjoint t.interfaces
  noClassAlias : t.classes.Disjoint t.typeAliases
  noInterfaceAlias : t.interfaces.Disjoint t.typeAliases

structure BindingSites where
  functions : List Node
  bindings : List Node
  imports : List Node

-- Each entry is bound by its node, and no node binds entries of two kinds.
structure BindingSites.Declares (b : BindingSites) (cx : Context) (functions : List FunctionDecl)
    (bindings : List VariableDecl) (imports : List ImportDecl) : Prop where
  functions : List.Forall₂ (fun s f => Bound cx s f.location [f.name]) b.functions functions
  bindings : List.Forall₂ (fun s v => Bound cx s v.location [v.name]) b.bindings bindings
  imports : List.Forall₂
    (fun s i => Bound cx s i.location (i.specifiers.map (·.localName))) b.imports imports
  noFunctionBinding : b.functions.Disjoint b.bindings
  noFunctionImport : b.functions.Disjoint b.imports
  noBindingImport : b.bindings.Disjoint b.imports

end Rules

end CodeEntities
