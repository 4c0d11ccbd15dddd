import CodeEntities.Proofs.Rules.Haskell

namespace CodeEntities.Haskell

open Grouped (keys)

variable {cx : Context} {root : Node}

def patterns (n : Node) : List Node := ((n.field? "patterns").map Node.namedChildren).getD []

-- A function as its equations make it. The types of its parameters are the signature's.
structure Merges (cx : Context) (f : FunctionDecl) (first : Node) (more : List Node) : Prop where
  complexity : f.complexity =
    if cx.options.complexity then
      (first :: more).foldl (fun total n => total + n.cyclomatic cx.source) 0
    else 1
  location : f.location = cx.span first ((first :: more).getLast (List.cons_ne_nil first more))
  parameters : f.params.map (fun p => { p with type := none }) =
    (patterns first).map fun p => { name := cx.trimmed p }

theorem patternParameters_plain (cx : Context) (types : List String) (patterns : List Node) :
    (patternParameters cx types patterns).map (fun p => { p with type := none }) =
      patterns.map fun p => { name := cx.trimmed p } := by
  unfold patternParameters
  conv_rhs => rw [← List.zipIdx_map_fst 0 patterns]
  rw [List.map_map, List.map_map]
  rfl

theorem function_merges (cx : Context) (root : Node) (name : String) (first : Node)
    (more : List Node) : Merges cx (function cx root name first more) first more := by
  refine ⟨?_, ?_, ?_⟩
  · simp only [function, Context.function, Context.complexity]
    cases counted : cx.options.complexity with
    | false => simp
    | true => simp
  · have last : (more.getLast?).getD first =
        (first :: more).getLast (List.cons_ne_nil first more) :=
      Option.some.inj (List.getLast?_cons.symm.trans (List.getLast?_eq_some_getLast _))
    simp only [function, last]
    rfl
  · exact patternParameters_plain cx _ (patterns first)

-- Each name makes one function.
theorem functions_names (cx : Context) (root : Node) :
    (functions cx root).map (·.name) = keys (·.1) (namedEquations cx root) := by
  have each : ∀ name ∈ keys (·.1) (namedEquations cx root),
      (functionOf? cx root name (equationsOf (namedEquations cx root) name)).map (·.name) =
        some name := by
    intro name member
    obtain ⟨e, rest, grouped⟩ := Grouped.group_nonempty member
    simp only [equationsOf, grouped]
    rfl
  rw [functions_eq]
  exact Grouped.read_keys each

theorem mem_functions {f : FunctionDecl} (member : f ∈ functions cx root) :
    ∃ first more, equationsOf (namedEquations cx root) f.name = first :: more ∧
      f = function cx root f.name first more := by
  rw [functions_eq] at member
  obtain ⟨name, _, merged⟩ := List.mem_filterMap.mp member
  obtain ⟨first, more, listed, rfl⟩ := functionOf_some merged
  exact ⟨first, more, listed, rfl⟩

theorem equations_shared (cx : Context) (root : Node) :
    ((functions cx root).flatMap fun f => equationsOf (namedEquations cx root) f.name).Perm
      ((namedEquations cx root).map (·.2)) := by
  have shared := (Grouped.shared_perm (functions_names cx root)).map (·.2)
  rw [List.map_flatMap] at shared
  exact shared

-- The named equations of a module, in document order, make one function for each name, in the
-- order in which the names first appear, and no equation is lost or counts twice.
theorem equations_merge_into_functions (cx : Context) (root : Node) :
    let equations := namedEquations cx root
    (equations.map (·.2)).Sublist root.preorder ∧
    (functions cx root).map (·.name) = (equations.map (·.1)).eraseDups ∧
    ((functions cx root).map (·.name)).Nodup ∧
    ((functions cx root).flatMap fun f => equationsOf equations f.name).Perm
      (equations.map (·.2)) ∧
    ∀ f ∈ functions cx root, ∃ first more,
      equationsOf equations f.name = first :: more ∧ Merges cx f first more := by
  intro equations
  have names := functions_names cx root
  refine ⟨?_, names, names ▸ Grouped.keys_nodup .., ?_, fun f member => ?_⟩
  · exact (namedEquations_sublist cx root).trans (Node.moduleLevel_sublist ..)
  · exact equations_shared cx root
  · obtain ⟨first, more, listed, merged⟩ := mem_functions member
    exact ⟨first, more, listed, merged ▸ function_merges cx root f.name first more⟩

def equation (start : Nat) : Tree :=
  .whole "function" start (start + 7) none [
    .whole "variable" start (start + 1) (some "name") [],
    .whole "patterns" (start + 2) (start + 3) (some "patterns") [
      .whole "variable" (start + 2) (start + 3) none []],
    .whole "match" (start + 4) (start + 7) none [
      .token "=" (start + 4),
      .whole "variable" (start + 6) (start + 7) none []]]

theorem interleaved_equations_merge :
    let cx : Context := ⟨"f x = x\ng x = x\nf y = y\n", "t.hs", .haskell, {}⟩
    let root : Node := .root (.whole "haskell" 0 24 none [
      .whole "declarations" 0 24 none [equation 0, equation 8, equation 16]])
    (functions cx root).map (·.name) = ["f", "g"] ∧
      ∃ f ∈ functions cx root, f.name = "f" ∧ ∃ first more,
        equationsOf (namedEquations cx root) f.name = first :: more ∧ more.length = 1 ∧
          Merges cx f first more := by
  intro cx root
  obtain ⟨_, names, _, _, each⟩ := equations_merge_into_functions cx root
  have found : (namedEquations cx root).map (·.1) = ["f", "g", "f"] := by decide +kernel
  have two : (equationsOf (namedEquations cx root) "f").length = 2 := by decide +kernel
  have names : (functions cx root).map (·.name) = ["f", "g"] := names.trans (found ▸ rfl)
  have reached : "f" ∈ (functions cx root).map (·.name) := names ▸ List.mem_cons_self ..
  obtain ⟨f, member, named⟩ := List.mem_map.mp reached
  obtain ⟨first, more, listed, merges⟩ := each f member
  refine ⟨names, f, member, named, first, more, listed, ?_, merges⟩
  rw [named] at listed
  rw [listed] at two
  exact Nat.succ.inj two

end CodeEntities.Haskell
