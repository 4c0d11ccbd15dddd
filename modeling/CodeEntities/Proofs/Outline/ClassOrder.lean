import CodeEntities.Outline.Extract
import CodeEntities.Proofs.Rules.All

namespace CodeEntities.Outline

-- The classes of a well placed tree are in document order, but in the languages that put
-- those without a declaration behind the others. There the classes with a declaration are in
-- order and so are those without, and all are exactly when none without one starts before
-- one with.
theorem classes_in_document_order_iff (cx : Context) (root : Node) (placed : root.WellPlaced)
    (single : root.HoldsOne (Rules.of cx.language).kinds)
    (singleClass : root.HoldsOneClass (Rules.of cx.language).kinds) :
    (cx.language ∉ Rules.appending → InOrder (·.location) (extract cx root).classes) ∧
    (cx.language ∈ Rules.appending → ∃ declared extensions,
      Rules.Runs (extract cx root).classes declared extensions ∧
      (InOrder (·.location) (extract cx root).classes ↔
        ∀ c ∈ declared, ∀ e ∈ extensions, c.location.opening ≤ e.location.opening)) := by
  constructor
  · intro alone
    exact Rules.of_ordersClasses alone placed singleClass
  · intro appends
    have run : ∃ declared extensions,
        Rules.Runs (extract cx root).classes declared extensions :=
      Rules.of_appendsExtensions appends placed single
    obtain ⟨declared, extensions, runs⟩ := run
    exact ⟨declared, extensions, runs, runs.inOrder_iff⟩

-- A struct `A` and a block of methods for a type `B`, each on its line.

def structAt (start : Nat) : Tree :=
  .whole "struct_item" start (start + 9) none [
    .token "struct" start,
    .whole "type_identifier" (start + 7) (start + 8) (some "name") [],
    .token ";" (start + 8)]

def blockAt (start : Nat) : Tree :=
  .whole "impl_item" start (start + 9) none [
    .token "impl" start,
    .whole "type_identifier" (start + 5) (start + 6) (some "type") [],
    .whole "declaration_list" (start + 7) (start + 9) (some "body")
      [.token "\x7b" (start + 7), .token "\x7d" (start + 8)]]

def blockLast : Node := .root (.whole "source_file" 0 20 none [structAt 0, blockAt 10])

def blockFirst : Node := .root (.whole "source_file" 0 20 none [blockAt 0, structAt 10])

theorem block_behind_struct_keeps_order :
    let cx : Context := ⟨"struct A;\nimpl B \x7b\x7d\n", "t.rs", .rust, {}⟩
    blockLast.WellPlaced ∧ blockLast.HoldsOne (Rules.of cx.language).kinds ∧
      blockLast.HoldsOneClass (Rules.of cx.language).kinds ∧ cx.language ∈ Rules.appending ∧
      (extract cx blockLast).classes.map (fun c => (c.name, c.location.opening)) =
        [("A", ⟨1, 0⟩), ("B", ⟨2, 0⟩)] ∧
      InOrder (·.location) (extract cx blockLast).classes := by
  intro cx
  have placed : blockLast.WellPlaced := by decide +kernel
  have single : blockLast.HoldsOne (Rules.of cx.language).kinds := by decide +kernel
  have singleClass : blockLast.HoldsOneClass (Rules.of cx.language).kinds := by decide +kernel
  have appends : cx.language ∈ Rules.appending := by decide
  have behind : ∀ c ∈ (extract cx blockLast).classes, ∀ e ∈ (extract cx blockLast).classes,
      c.kind ≠ .extension → e.kind = .extension → c.location.opening ≤ e.location.opening := by
    decide +kernel
  obtain ⟨declared, extensions, runs, inOrder⟩ :=
    (classes_in_document_order_iff cx blockLast placed single singleClass).2 appends
  refine ⟨placed, single, singleClass, appends, by decide +kernel, inOrder.mpr ?_⟩
  intro c first e second
  have earlier : c ∈ (extract cx blockLast).classes := runs.split ▸ List.mem_append_left _ first
  have later : e ∈ (extract cx blockLast).classes := runs.split ▸ List.mem_append_right _ second
  exact behind c earlier e later (runs.declaredKinds c first) (runs.extensionKinds e second)

theorem block_before_struct_breaks_order :
    ¬ ∀ (cx : Context) (root : Node), root.WellPlaced →
      root.HoldsOne (Rules.of cx.language).kinds →
      root.HoldsOneClass (Rules.of cx.language).kinds →
      InOrder (·.location) (extract cx root).classes := by
  intro ordered
  have inOrder := ordered ⟨"impl B \x7b\x7d\nstruct A;\n", "t.rs", .rust, {}⟩ blockFirst
    (by decide +kernel) (by decide +kernel) (by decide +kernel)
  exact absurd inOrder (by decide +kernel)

end CodeEntities.Outline
