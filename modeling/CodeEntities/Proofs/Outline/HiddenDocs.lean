import CodeEntities.Proofs.Outline.Clauses

namespace CodeEntities.Elixir

open Grouped (group)

variable {cx : Context} {n : Node} {stmts : List Node} {k : Clause}

-- What `@doc` announces of a clause. A hidden one is announced nothing.
def Clause.announced? (cx : Context) (k : Clause) : Option String :=
  let pending := Pending.of cx k.said
  if pending.isHidden then none else pending.doc

theorem definition_doc {pending : Pending} {m : MethodDecl}
    (read : definition? cx pending n = some m) :
    m.function.docComment =
      if cx.options.docComments then
        (if pending.isHidden then none else pending.doc).or (cx.doc n)
      else none := by
  obtain ⟨macroName, _, read⟩ := Option.bind_eq_some_iff.mp read
  obtain ⟨⟨name, args⟩, _, same⟩ := Option.bind_eq_some_iff.mp read
  cases same
  rfl

theorem clause_undocumented_iff (member : k ∈ clausesOf cx stmts) :
    k.method.function.docComment = none ↔ (cx.options.docComments = true →
      k.announced? cx = none ∧ k.node.precedingComment cx.source = none) := by
  obtain ⟨_, _, _, _, read⟩ := mem_clausesFrom member
  rw [definition_doc read, Context.doc]
  cases cx.options.docComments with
  | false => simp
  | true => simp [Clause.announced?]

theorem joined_undocumented_iff (cx : Context) (first : Clause) (more : List Clause) :
    (Clause.joined cx first more).function.docComment = none ↔
      ∀ k ∈ first :: more, k.method.function.docComment = none :=
  List.findSome?_eq_none_iff

theorem module_function {c : ClassDecl} (found : module? cx n = some c)
    (declares : clausesOf cx (statements n) ≠ []) :
    ∃ m ∈ c.methods, ∃ first more,
      group Clause.key (clausesOf cx (statements n)) (clauseKey m) = first :: more ∧
        first ∈ clausesOf cx (statements n) := by
  obtain ⟨k, there⟩ := List.exists_mem_of_ne_nil _ declares
  have keyed : k.key ∈ c.methods.map clauseKey :=
    module_keys found ▸ Grouped.mem_keys.mpr ⟨k, there, rfl⟩
  obtain ⟨m, member, _⟩ := List.mem_map.mp keyed
  obtain ⟨first, more, grouped, _⟩ := mem_module found member
  have own : first ∈ group Clause.key (clausesOf cx (statements n)) (clauseKey m) :=
    grouped ▸ List.mem_cons_self ..
  exact ⟨m, member, first, more, grouped, (Grouped.mem_group.mp own).1⟩

-- A function whose first clause is hidden has no doc comment exactly if no comment stands in
-- front of this clause and none of the others is announced anything or has such a comment.
theorem hidden_function_undocumented_iff (cx : Context) (n : Node) (c : ClassDecl)
    (found : module? cx n = some c) (m : MethodDecl) (member : m ∈ c.methods) (first : Clause)
    (more : List Clause)
    (grouped : group Clause.key (clausesOf cx (statements n)) (clauseKey m) = first :: more)
    (hidden : (Pending.of cx first.said).isHidden = true) :
    m.function.docComment = none ↔ (cx.options.docComments = true →
      first.node.precedingComment cx.source = none ∧
        ∀ k ∈ more, k.announced? cx = none ∧ k.node.precedingComment cx.source = none) := by
  obtain ⟨first', more', same, joined⟩ := mem_module found member
  obtain ⟨rfl, rfl⟩ := List.cons_eq_cons.mp (same.symm.trans grouped)
  have clauses : ∀ k ∈ first' :: more', k ∈ clausesOf cx (statements n) :=
    fun k there => (Grouped.mem_group.mp (grouped ▸ there)).1
  have unannounced : first'.announced? cx = none := if_pos hidden
  rw [joined, joined_undocumented_iff, List.forall_mem_cons,
    clause_undocumented_iff (clauses _ (List.mem_cons_self ..)), unannounced]
  constructor
  · rintro ⟨here, others⟩ kept
    refine ⟨(here kept).2, fun k there => ?_⟩
    exact (clause_undocumented_iff (clauses k (List.mem_cons_of_mem _ there))).mp (others k there) kept
  · intro uncommented
    refine ⟨fun kept => ⟨rfl, (uncommented kept).1⟩, fun k there => ?_⟩
    refine (clause_undocumented_iff (clauses k (List.mem_cons_of_mem _ there))).mpr ?_
    exact fun kept => (uncommented kept).2 k there

def docFalse (start : Nat) : Tree :=
  docAttribute start (start + 10) (.whole "boolean" (start + 5) (start + 10) none [
    .token "false" (start + 5)])

theorem hidden_function_without_comments :
    let cx : Context := ⟨"defmodule M do\n  @doc false\n  def f\nend", "m.ex", .elixir, {}⟩
    let n : Node := .root (sampleModule 39 [docFalse 17, bareDefinition 30])
    ∃ c, module? cx n = some c ∧ ∃ m ∈ c.methods, ∃ first more,
      group Clause.key (clausesOf cx (statements n)) (clauseKey m) = first :: more ∧
      (Pending.of cx first.said).isHidden = true ∧ m.function.docComment = none := by
  intro cx n
  have isModule : (module? cx n).isSome := by decide +kernel
  have count : (clausesOf cx (statements n)).length = 1 := by decide +kernel
  have bare : ∀ k ∈ clausesOf cx (statements n), (Pending.of cx k.said).isHidden = true ∧
      k.announced? cx = none ∧ k.node.precedingComment cx.source = none := by decide +kernel
  obtain ⟨c, found⟩ := Option.isSome_iff_exists.mp isModule
  obtain ⟨m, member, first, more, grouped, there⟩ :=
    module_function found (List.ne_nil_of_length_pos (count ▸ Nat.one_pos))
  have hidden := (bare first there).1
  refine ⟨c, found, m, member, first, more, grouped, hidden, ?_⟩
  refine (hidden_function_undocumented_iff cx n c found m member first more grouped hidden).mpr ?_
  refine fun _ => ⟨(bare first there).2.2, fun k later => (bare k ?_).2⟩
  have own : k ∈ group Clause.key (clausesOf cx (statements n)) (clauseKey m) :=
    grouped ▸ List.mem_cons_of_mem first later
  exact (Grouped.mem_group.mp own).1

-- A comment that stands between `@doc false` and the definition is shown.
theorem hidden_function_shows_comment :
    ¬ ∀ (cx : Context) (n : Node) (c : ClassDecl), module? cx n = some c →
      ∀ m ∈ c.methods, ∀ first more,
        group Clause.key (clausesOf cx (statements n)) (clauseKey m) = first :: more →
        (Pending.of cx first.said).isHidden = true → m.function.docComment = none := by
  intro undocumented
  let cx : Context :=
    ⟨"defmodule M do\n  @doc false\n  # note\n  def f\nend", "m.ex", .elixir, {}⟩
  let n : Node := .root (sampleModule 48 [
    docFalse 17, .whole "comment" 30 36 none [], bareDefinition 39])
  have shown : (module? cx n).any (·.methods.all (·.function.docComment == some "note")) := by
    decide +kernel
  have count : (clausesOf cx (statements n)).length = 1 := by decide +kernel
  have hidden : ∀ k ∈ clausesOf cx (statements n), (Pending.of cx k.said).isHidden = true := by
    decide +kernel
  obtain ⟨c, found, all⟩ := (Option.any_eq_true ..).mp shown
  obtain ⟨m, member, first, more, grouped, there⟩ :=
    module_function found (List.ne_nil_of_length_pos (count ▸ Nat.one_pos))
  have documented := eq_of_beq (List.all_eq_true.mp all m member)
  rw [undocumented cx n c found m member first more grouped (hidden first there)] at documented
  cases documented

end CodeEntities.Elixir
