import CodeEntities.Proofs.Outline.AccessSections

namespace CodeEntities.CFamily

variable {cx : Context} {n d : Node}

def formsType (n : Node) : Bool :=
  ["function_declarator", "pointer_declarator", "reference_declarator",
    "array_declarator"].contains n.kind

-- The declarator next to the name tells what the name stands for: `int *f(void)` declares a
-- function and `int (*f)(void)` a pointer.
def nearest? (d : Node) : Option Node := ((declaratorChain d).filter formsType).getLast?

def declaresFunction (d : Node) : Bool := (nearest? d).any (·.kind == "function_declarator")

theorem declaresFunction_function (declares : declaresFunction d) : isFunction d := by
  unfold declaresFunction at declares
  cases found : nearest? d with
  | none =>
    rw [found] at declares
    cases declares
  | some m =>
    rw [found] at declares
    have member : m ∈ (declaratorChain d).filter formsType := List.mem_of_getLast? found
    exact List.any_eq_true.mpr ⟨m, (List.mem_filter.mp member).1, declares⟩

theorem filter_plain (entries : List (Declarator × Node)) :
    entries.filter (!isFunction ·.2) =
      (entries.filter (!declaresFunction ·.2)).filter (!isFunction ·.2) := by
  rw [List.filter_filter]
  refine List.filter_congr fun entry _ => ?_
  cases declares : declaresFunction entry.2 with
  | true => simp [declaresFunction_function declares]
  | false => simp

structure ReadsVariable (cx : Context) (n : Node) (entry : Declarator × Node) (v : VariableDecl) :
    Prop where
  name : v.name = entry.1.name
  type : v.type = (cx.fieldText? n "type").map fun t => pointerType t entry.1
  initializer : v.initializer = cx.fieldText? entry.2 "value"
  location : v.location = cx.location n

-- Any function declarator on the way to its name takes a declarator out of the variables.
theorem variablesOf_reads (cx : Context) (n : Node) :
    List.Forall₂ (ReadsVariable cx n) ((declarators cx n).filter (!isFunction ·.2))
      (variablesOf cx n) := by
  have same : (declarators cx n).filter (·.1.function.isNone) =
      (declarators cx n).filter (!isFunction ·.2) := by
    refine List.filter_congr fun entry listed => ?_
    rw [← declarators_function listed, Option.not_isSome]
  rw [← same]
  exact List.forall₂_map_right_iff.mpr (List.forall₂_same.mpr fun _ _ => ⟨rfl, rfl, rfl, rfl⟩)

-- The variables of a declaration are its declarators without a function declarator on the way to
-- the name, one each. No function is among them, and all that declare no function are if and only
-- if none is a pointer or a reference to a function or an array of such.
theorem function_pointers_kept_iff (cx : Context) (n : Node) :
    let all := declarators cx n
    List.Forall₂ (ReadsVariable cx n) (all.filter (!isFunction ·.2)) (variablesOf cx n) ∧
    (∀ entry ∈ all, declaresFunction entry.2 → isFunction entry.2) ∧
    (List.Forall₂ (ReadsVariable cx n) (all.filter (!declaresFunction ·.2)) (variablesOf cx n) ↔
      ∀ entry ∈ all, isFunction entry.2 → declaresFunction entry.2) := by
  intro all
  have reads : List.Forall₂ (ReadsVariable cx n) (all.filter (!isFunction ·.2))
      (variablesOf cx n) := variablesOf_reads cx n
  refine ⟨reads, fun _ _ => declaresFunction_function, ?_⟩
  constructor
  · intro kept entry listed function
    -- Both lists have one entry for each variable, and the one is a part of the other.
    have whole := kept.length_eq.trans reads.length_eq.symm
    rw [filter_plain, eq_comm, List.length_filter_eq_length_iff] at whole
    by_contra other
    have plain := whole entry (List.mem_filter.mpr ⟨listed, by simpa using other⟩)
    simp [function] at plain
  · intro declares
    have same : all.filter (!declaresFunction ·.2) = all.filter (!isFunction ·.2) := by
      refine List.filter_congr fun entry listed => congrArg _ ?_
      exact Bool.eq_iff_iff.mpr ⟨declaresFunction_function, declares entry listed⟩
    rw [same]
    exact reads

-- `int (*handler)(int) = 0;`
def handlerDeclaration : Tree :=
  .whole "declaration" 0 24 none [
    .whole "primitive_type" 0 3 (some "type") [],
    .whole "init_declarator" 4 23 (some "declarator") [
      .whole "function_declarator" 4 19 (some "declarator") [
        .whole "parenthesized_declarator" 4 14 (some "declarator") [
          .token "(" 4,
          .whole "pointer_declarator" 5 13 none [
            .token "*" 5,
            .whole "identifier" 6 13 (some "declarator") []],
          .token ")" 13],
        .whole "parameter_list" 14 19 (some "parameters") [
          .token "(" 14,
          .whole "parameter_declaration" 15 18 none [
            .whole "primitive_type" 15 18 (some "type") []],
          .token ")" 18]],
      .token "=" 20,
      .whole "number_literal" 22 23 (some "value") []],
    .token ";" 23]

theorem function_pointer_is_dropped :
    let cx : Context := ⟨"int (*handler)(int) = 0;", "m.c", .c, {}⟩
    let n : Node := .root handlerDeclaration
    (declarators cx n).map (fun entry => (entry.1.name, declaresFunction entry.2)) =
        [("handler", false)] ∧
      (variablesOf cx n).map (·.name) = [] ∧
      ¬ List.Forall₂ (ReadsVariable cx n)
        ((declarators cx n).filter (!declaresFunction ·.2)) (variablesOf cx n) := by
  intro cx n
  refine ⟨by decide +kernel, by decide +kernel, fun kept => ?_⟩
  have lengths := kept.length_eq
  revert lengths
  decide +kernel

end CodeEntities.CFamily
