import CodeEntities.Proofs.Rules.Elixir
import CodeEntities.Proofs.Rules.Grouped
import Mathlib.Data.List.DropRight

namespace CodeEntities.Elixir

open Grouped (keys group keys_concat group_own group_other group_nonempty group_empty)

variable {cx : Context} {n : Node} {before seen stmts : List Node}

def statements (n : Node) : List Node := ((doBlock? n).map Node.namedChildren).getD []

-- A call of a macro that defines a function, also one whose head names none.
def isDefinition (cx : Context) (n : Node) : Bool :=
  (target? cx n).any definitionMacros.contains

def sinceDefinition (cx : Context) (stmts : List Node) : List Node :=
  stmts.rtakeWhile fun n => !isDefinition cx n

def lastValue? (cx : Context) (name : String) (stmts : List Node) : Option Node :=
  ((stmts.filterMap (attribute? cx)).reverse.lookup name).join

def Pending.of (cx : Context) (said : List Node) : Pending where
  doc := (lastValue? cx "doc" said).bind (docText? cx)
  isHidden := (lastValue? cx "doc" said).any fun v => cx.text v == "false"
  spec := (lastValue? cx "spec" said).map cx.text

-- A definition that names a function, with what the statements since the definition before
-- it say, and the method that it would make alone.
structure Clause where
  said : List Node
  node : Node
  method : MethodDecl

def clause? (cx : Context) (before : List Node) (n : Node) : Option Clause :=
  if isDefinition cx n then
    let said := sinceDefinition cx before
    (definition? cx (.of cx said) n).map fun method => { said, node := n, method }
  else none

def clausesFrom (cx : Context) (before : List Node) : List Node → List Clause
  | [] => []
  | n :: rest => (clause? cx before n).toList ++ clausesFrom cx (before ++ [n]) rest

def clausesOf (cx : Context) (stmts : List Node) : List Clause := clausesFrom cx [] stmts

theorem clausesFrom_concat (cx : Context) (before stmts : List Node) (n : Node) :
    clausesFrom cx before (stmts ++ [n]) =
      clausesFrom cx before stmts ++ (clause? cx (before ++ stmts) n).toList := by
  induction stmts generalizing before with
  | nil => simp [clausesFrom]
  | cons k rest ih => simp [clausesFrom, ih]

theorem definition_isSome {pending : Pending} :
    (definition? cx pending n).isSome ↔ (target? cx n).isSome ∧ (head? cx n).isSome := by
  unfold definition?
  cases target? cx n with
  | none => simp
  | some macroName => cases head? cx n <;> simp

theorem clause_node (cx : Context) (before : List Node) (n : Node) :
    (clause? cx before n).map (·.node) =
      if isDefinition cx n && (head? cx n).isSome then some n else none := by
  unfold clause?
  cases isDef : isDefinition cx n with
  | false => rfl
  | true =>
    have called : (target? cx n).isSome := Option.isSome_of_any isDef
    simp only [if_true, Option.map_map, Bool.true_and]
    cases read : definition? cx (.of cx (sinceDefinition cx before)) n with
    | none =>
      have headless : ¬ (head? cx n).isSome := by
        intro head
        have found : (definition? cx (.of cx (sinceDefinition cx before)) n).isSome :=
          definition_isSome.mpr ⟨called, head⟩
        rw [read] at found
        cases found
      simp [headless]
    | some method =>
      have head := (definition_isSome.mp (Option.isSome_of_eq_some read)).2
      simp [head]

theorem clausesFrom_nodes (cx : Context) (before stmts : List Node) :
    (clausesFrom cx before stmts).map (·.node) =
      stmts.filter fun n => isDefinition cx n && (head? cx n).isSome := by
  induction stmts generalizing before with
  | nil => rfl
  | cons n rest ih =>
    have here : (clause? cx before n).toList.map (·.node) =
        if isDefinition cx n && (head? cx n).isSome then [n] else [] := by
      rw [← Option.toList_map, clause_node]
      split <;> rfl
    rw [clausesFrom, List.map_append, ih, here, List.filter_cons]
    split <;> rfl

theorem mem_clausesFrom {c : Clause} (member : c ∈ clausesFrom cx before stmts) :
    ∃ front after, stmts = front ++ c.node :: after ∧
      c.said = sinceDefinition cx (before ++ front) ∧
      definition? cx (.of cx c.said) c.node = some c.method := by
  induction stmts generalizing before with
  | nil => cases member
  | cons n rest ih =>
    rcases List.mem_append.mp member with here | later
    · obtain ⟨_, here⟩ := Option.ite_none_right_eq_some.mp (Option.mem_toList.mp here)
      obtain ⟨method, read, rfl⟩ := Option.map_eq_some_iff.mp here
      exact ⟨[], rest, rfl, by simp, read⟩
    · obtain ⟨front, after, rfl, said, read⟩ := ih later
      exact ⟨n :: front, after, rfl, by simpa using said, read⟩

-- What a further statement says.

theorem definition_no_attribute (isDef : isDefinition cx n) : attribute? cx n = none := by
  obtain ⟨name, called, _⟩ := (Option.any_eq_true ..).mp isDef
  unfold target? at called
  split at called
  · rename_i call
    simp [attribute?, eq_of_beq call]
  · cases called

theorem sinceDefinition_concat (cx : Context) (stmts : List Node) (n : Node) :
    sinceDefinition cx (stmts ++ [n]) =
      if isDefinition cx n then [] else sinceDefinition cx stmts ++ [n] := by
  unfold sinceDefinition
  split
  · rename_i isDef
    exact List.rtakeWhile_concat_neg _ _ _ (by simp [isDef])
  · rename_i other
    exact List.rtakeWhile_concat_pos _ _ _ (by simp [other])

theorem lastValue_concat (cx : Context) (name : String) (stmts : List Node) (n : Node) :
    lastValue? cx name (stmts ++ [n]) =
      match attribute? cx n with
      | some (other, value) => if name == other then value else lastValue? cx name stmts
      | none => lastValue? cx name stmts := by
  unfold lastValue?
  rw [List.filterMap_append, List.reverse_append]
  cases said : attribute? cx n with
  | none => simp [said]
  | some entry =>
    obtain ⟨other, value⟩ := entry
    simp only [said, List.filterMap_cons, List.filterMap_nil, List.reverse_cons, List.reverse_nil,
      List.nil_append, List.cons_append, List.lookup_cons]
    cases name == other <;> rfl

theorem addAttribute_methods (body : Body) (name : String) (value : Option Node) :
    (addAttribute cx body n name value).declared.methods = body.declared.methods := by
  unfold addAttribute
  simp only
  split_ifs <;> rfl

theorem addAttribute_pending (body : Body) (name : String) (value : Option Node) :
    (addAttribute cx body n name value).pending =
      if name = "doc" then
        { body.pending with
          isHidden := value.any fun v => cx.text v == "false"
          doc := value.bind (docText? cx) }
      else if name = "spec" then { body.pending with spec := value.map cx.text }
      else body.pending := by
  unfold addAttribute
  simp only [beq_iff_eq]
  split_ifs <;> simp_all

theorem attribute_no_definition {entry : String × Option Node}
    (said : attribute? cx n = some entry) : isDefinition cx n = false := by
  refine Bool.eq_false_iff.mpr fun isDef => ?_
  rw [definition_no_attribute isDef] at said
  cases said

theorem pending_silent (silent : attribute? cx n = none) (said : List Node) :
    Pending.of cx (said ++ [n]) = .of cx said := by
  simp only [Pending.of, lastValue_concat, silent]

theorem pending_attribute {name : String} {value : Option Node}
    (found : attribute? cx n = some (name, value)) (body : Body) {said : List Node}
    (pending : body.pending = .of cx said) :
    (addAttribute cx body n name value).pending = .of cx (said ++ [n]) := by
  rw [addAttribute_pending, pending]
  simp only [Pending.of, lastValue_concat, found]
  by_cases doc : name = "doc"
  · simp [doc]
  · by_cases spec : name = "spec"
    · simp [spec]
    · simp [doc, spec, Ne.symm doc, Ne.symm spec]

-- What a statement does to a module as far as it is read: attributes apart, only definitions
-- do anything to the methods and to what is pending.

theorem addStatement_attribute {name : String} {value : Option Node}
    (found : attribute? cx n = some (name, value)) (body : Body) :
    addStatement cx body n = addAttribute cx body n name value := by
  unfold addStatement
  rw [found]

theorem addStatement_silent (silent : attribute? cx n = none) (body : Body) :
    (addStatement cx body n).pending = (if isDefinition cx n then {} else body.pending) ∧
      (addStatement cx body n).declared.methods =
        if isDefinition cx n then
          match definition? cx body.pending n with
          | some m => addClause cx m body.declared.methods
          | none => body.declared.methods
        else body.declared.methods := by
  unfold addStatement isDefinition
  rw [silent]
  cases target? cx n with
  | none => exact ⟨rfl, rfl⟩
  | some name =>
    simp only [Option.any_some]
    split_ifs
    · exact ⟨rfl, rfl⟩
    · exact ⟨rfl, rfl⟩
    · exact ⟨rfl, rfl⟩

theorem addStatement_methods (body : Body) :
    (addStatement cx body n).declared.methods =
      if isDefinition cx n then
        match definition? cx body.pending n with
        | some m => addClause cx m body.declared.methods
        | none => body.declared.methods
      else body.declared.methods := by
  cases said : attribute? cx n with
  | none => exact (addStatement_silent said body).2
  | some entry =>
    rw [addStatement_attribute said, addAttribute_methods, attribute_no_definition said]
    rfl

-- What is pending is what the statements since the last definition say.
theorem addStatement_pending {body : Body}
    (pending : body.pending = .of cx (sinceDefinition cx seen)) :
    (addStatement cx body n).pending = .of cx (sinceDefinition cx (seen ++ [n])) := by
  rw [sinceDefinition_concat]
  cases said : attribute? cx n with
  | none =>
    rw [(addStatement_silent said body).1, apply_ite (Pending.of cx), pending_silent said,
      ← pending]
    rfl
  | some entry =>
    rw [if_neg (by simp [attribute_no_definition said]), addStatement_attribute said]
    exact pending_attribute said body pending

-- Clauses as they are joined.

def clauseKey (m : MethodDecl) : String × Nat := (m.name, m.function.params.length)

def joinAll? (cx : Context) : List MethodDecl → Option MethodDecl
  | [] => none
  | first :: more => some (more.foldl (joinClauses cx) first)

def mergeClauses (cx : Context) (ms : List MethodDecl) : List MethodDecl :=
  ms.foldl (fun methods m => addClause cx m methods) []

theorem sameKey_iff (e m : MethodDecl) :
    (e.name == m.name && e.function.params.length == m.function.params.length) = true ↔
      clauseKey e = clauseKey m := by
  simp [clauseKey]

theorem foldl_joinClauses_key (first : MethodDecl) (more : List MethodDecl) :
    clauseKey (more.foldl (joinClauses cx) first) = clauseKey first := by
  induction more generalizing first with
  | nil => rfl
  | cons m rest ih => exact ih (joinClauses cx first m)

theorem joinAll_concat (first : MethodDecl) (more : List MethodDecl) (m : MethodDecl) :
    joinAll? cx (first :: more ++ [m]) =
      (joinAll? cx (first :: more)).map (joinClauses cx · m) := by
  simp [joinAll?]

def joinedOf (cx : Context) (ms : List MethodDecl) (k : String × Nat) : Option MethodDecl :=
  joinAll? cx (group clauseKey ms k)

theorem joinedOf_key (cx : Context) {ms : List MethodDecl} {k : String × Nat}
    (member : k ∈ keys clauseKey ms) : (joinedOf cx ms k).map clauseKey = some k := by
  obtain ⟨first, more, grouped⟩ := group_nonempty member
  have own := (Grouped.mem_group.mp (grouped ▸ List.mem_cons_self .. :
    first ∈ group clauseKey ms k)).2
  rw [joinedOf, grouped, joinAll?, Option.map_some, foldl_joinClauses_key, own]

theorem joinedOf_own (ms : List MethodDecl) (m : MethodDecl)
    (known : clauseKey m ∈ keys clauseKey ms) :
    joinedOf cx (ms ++ [m]) (clauseKey m) =
      (joinedOf cx ms (clauseKey m)).map (joinClauses cx · m) := by
  obtain ⟨first, more, grouped⟩ := group_nonempty known
  rw [joinedOf, joinedOf, group_own, grouped, joinAll_concat]

theorem joinedOf_new (ms : List MethodDecl) (m : MethodDecl)
    (new : clauseKey m ∉ keys clauseKey ms) : joinedOf cx (ms ++ [m]) (clauseKey m) = some m := by
  rw [joinedOf, group_own, group_empty new]
  rfl

theorem joinedOf_other {ms : List MethodDecl} {m : MethodDecl} {k : String × Nat}
    (other : clauseKey m ≠ k) : joinedOf cx (ms ++ [m]) k = joinedOf cx ms k := by
  rw [joinedOf, joinedOf, group_other other]

-- Among methods of different keys a clause finds the one of its own.
theorem addClause_keyed {ks : List (String × Nat)} {f g : String × Nat → Option MethodDecl}
    {m : MethodDecl} (once : ks.Nodup) (keyed : ∀ k ∈ ks, (f k).map clauseKey = some k)
    (own : clauseKey m ∈ ks → g (clauseKey m) = (f (clauseKey m)).map (joinClauses cx · m))
    (others : ∀ k ∈ ks, clauseKey m ≠ k → g k = f k) :
    addClause cx m (ks.filterMap f) =
      if clauseKey m ∈ ks then ks.filterMap g else ks.filterMap g ++ [m] := by
  induction ks with
  | nil => rfl
  | cons k ks ih =>
    obtain ⟨apart, once⟩ := List.nodup_cons.mp once
    obtain ⟨e, found, same⟩ := Option.map_eq_some_iff.mp (keyed k (List.mem_cons_self ..))
    have later := ih once (fun k member => keyed k (List.mem_cons_of_mem _ member))
      (fun member => own (List.mem_cons_of_mem _ member))
      fun k member => others k (List.mem_cons_of_mem _ member)
    rw [List.filterMap_cons_some found, addClause]
    by_cases here : clauseKey m = k
    · have joined : g k = some (joinClauses cx e m) := by
        rw [← here, own (here ▸ List.mem_cons_self ..), here, found, Option.map_some]
      have rest : ks.filterMap f = ks.filterMap g := List.filterMap_congr fun other member => by
        refine (others other (List.mem_cons_of_mem _ member) fun again => ?_).symm
        exact apart (here.symm.trans again ▸ member)
      rw [if_pos ((sameKey_iff e m).mpr (same.trans here.symm)), rest,
        if_pos (here ▸ List.mem_cons_self ..), List.filterMap_cons_some joined]
    · have kept : g k = some e := (others k (List.mem_cons_self ..) here).trans found
      have apart : ¬ clauseKey e = clauseKey m := fun again => here (again.symm.trans same)
      rw [if_neg (apart ∘ (sameKey_iff e m).mp), later, List.filterMap_cons_some kept]
      simp only [List.mem_cons, here, false_or]
      split
      · rfl
      · rfl

theorem mergeClauses_concat (cx : Context) (ms : List MethodDecl) (m : MethodDecl) :
    mergeClauses cx (ms ++ [m]) = addClause cx m (mergeClauses cx ms) :=
  List.foldl_concat ..

theorem mergeClauses_eq (cx : Context) (ms : List MethodDecl) :
    mergeClauses cx ms = (keys clauseKey ms).filterMap (joinedOf cx ms) := by
  induction ms using List.reverseRecOn with
  | nil => rfl
  | append_singleton ms m ih =>
    have step := addClause_keyed (Grouped.keys_nodup clauseKey ms)
      (fun k member => joinedOf_key cx member) (joinedOf_own ms m)
      fun k _ other => joinedOf_other other
    rw [mergeClauses_concat, ih, keys_concat, step]
    split
    · rfl
    · rename_i new
      rw [List.filterMap_append, List.filterMap_cons_some (joinedOf_new ms m new)]
      rfl

-- The body of a module as it is read.

theorem clause_method (cx : Context) (seen : List Node) (n : Node) :
    (clause? cx seen n).map (·.method) =
      if isDefinition cx n then definition? cx (.of cx (sinceDefinition cx seen)) n else none := by
  unfold clause?
  split
  · rw [Option.map_map]
    exact Option.map_id'
  · rfl

structure Reads (cx : Context) (seen : List Node) (body : Body) : Prop where
  pending : body.pending = .of cx (sinceDefinition cx seen)
  methods : body.declared.methods = mergeClauses cx ((clausesOf cx seen).map (·.method))

theorem Reads.step {body : Body} (reads : Reads cx seen body) (n : Node) :
    Reads cx (seen ++ [n]) (addStatement cx body n) where
  pending := addStatement_pending reads.pending
  methods := by
    have further : (clausesOf cx (seen ++ [n])).map (·.method) =
        (clausesOf cx seen).map (·.method) ++ ((clause? cx seen n).map (·.method)).toList := by
      rw [clausesOf, clausesFrom_concat, List.map_append, Option.toList_map]
      rfl
    rw [addStatement_methods, further, clause_method, reads.pending, reads.methods]
    cases isDefinition cx n with
    | false => simp
    | true =>
      cases definition? cx (.of cx (sinceDefinition cx seen)) n with
      | none => simp
      | some m => exact (mergeClauses_concat cx _ m).symm

theorem module_methods {c : ClassDecl} (found : module? cx n = some c) :
    c.methods = mergeClauses cx ((clausesOf cx (statements n)).map (·.method)) := by
  obtain ⟨name, _, rfl⟩ := Option.map_eq_some_iff.mp found
  refine (Context.foldl_seen (motive := Reads cx) ⟨rfl, rfl⟩ ?_).methods
  exact fun seen k body _ reads => reads.step k

-- The method of some clauses: the first of them but for its end, its branches and, if it
-- has none, its doc comment.
def Clause.joined (cx : Context) (first : Clause) (more : List Clause) : MethodDecl :=
  let clauses := first :: more
  { first.method with
    function := { first.method.function with
      location := cx.span first.node (clauses.getLast (List.cons_ne_nil first more)).node
      complexity :=
        if cx.options.complexity then
          clauses.foldl (fun total c => total + c.node.cyclomatic cx.source) 0
        else 1
      docComment := clauses.findSome? (·.method.function.docComment) } }

theorem Clause.joined_self {c : Clause} (defined : DefinedBy cx c.node c.method) :
    joined cx c [] = c.method := by
  have place : cx.span c.node c.node = c.method.function.location := defined.place.symm
  have branches : (if cx.options.complexity then
      [c].foldl (fun total c => total + c.node.cyclomatic cx.source) 0 else 1) =
        c.method.function.complexity := by
    rw [defined.branches, Context.complexity, List.foldl_cons, List.foldl_nil, Nat.zero_add]
  have doc : [c].findSome? (·.method.function.docComment) = c.method.function.docComment := by
    rw [List.findSome?_singleton]
  simp only [joined, List.getLast_singleton]
  rw [place, branches, doc]

theorem Clause.joined_concat {first c : Clause} {more : List Clause}
    (defined : DefinedBy cx c.node c.method) :
    joinClauses cx (joined cx first more) c.method = joined cx first (more ++ [c]) := by
  have last : (first :: (more ++ [c])).getLast (List.cons_ne_nil _ _) = c :=
    List.getLast_concat (l := first :: more) ..
  have doc : (first :: (more ++ [c])).findSome? (·.method.function.docComment) =
      ((first :: more).findSome? (·.method.function.docComment)).or
        c.method.function.docComment := by
    rw [← List.cons_append, List.findSome?_append, List.findSome?_singleton]
  simp only [joined, last, doc, joinClauses, defined.place, defined.branches, Context.complexity]
  cases cx.options.complexity with
  | false => rfl
  | true => simp [Context.span]

theorem foldl_joined {first : Clause} {more : List Clause}
    (defined : ∀ c ∈ first :: more, DefinedBy cx c.node c.method) :
    (more.map (·.method)).foldl (joinClauses cx) first.method = Clause.joined cx first more := by
  induction more using List.reverseRecOn with
  | nil => exact (Clause.joined_self (defined first (List.mem_cons_self ..))).symm
  | append_singleton more c ih =>
    have earlier := ih fun d member => defined d (List.mem_append_left [c] member)
    rw [List.map_append, List.foldl_append, earlier]
    exact Clause.joined_concat (defined c (List.mem_append_right (first :: more) (by simp)))

def Clause.key (c : Clause) : String × Nat := clauseKey c.method

theorem keys_methods (clauses : List Clause) :
    keys clauseKey (clauses.map (·.method)) = keys Clause.key clauses := by
  rw [keys, List.map_map]
  rfl

theorem group_methods (clauses : List Clause) (key : String × Nat) :
    group clauseKey (clauses.map (·.method)) key =
      (group Clause.key clauses key).map (·.method) := by
  rw [group, List.filter_map]
  rfl

theorem module_joined {c : ClassDecl} (found : module? cx n = some c) :
    c.methods = (keys Clause.key (clausesOf cx (statements n))).filterMap
      (joinedOf cx ((clausesOf cx (statements n)).map (·.method))) := by
  rw [module_methods found, mergeClauses_eq, keys_methods]

theorem module_keys {c : ClassDecl} (found : module? cx n = some c) :
    c.methods.map clauseKey = keys Clause.key (clausesOf cx (statements n)) := by
  rw [module_joined found, ← keys_methods]
  exact Grouped.read_keys fun key member => joinedOf_key cx member

theorem mem_module {c : ClassDecl} (found : module? cx n = some c) {m : MethodDecl}
    (member : m ∈ c.methods) :
    ∃ first more, group Clause.key (clausesOf cx (statements n)) (clauseKey m) = first :: more ∧
      m = Clause.joined cx first more := by
  rw [module_joined found] at member
  obtain ⟨key, listed, joined⟩ := List.mem_filterMap.mp member
  have own : clauseKey m = key := by
    have keyed := joinedOf_key cx (keys_methods _ ▸ listed)
    rw [joined] at keyed
    exact Option.some.inj keyed
  obtain ⟨first, more, grouped⟩ := group_nonempty listed
  refine ⟨first, more, own ▸ grouped, ?_⟩
  rw [joinedOf, group_methods, grouped] at joined
  refine (Option.some.inj joined).symm.trans (foldl_joined fun d there => ?_)
  have listed := (Grouped.mem_group.mp (grouped ▸ there)).1
  obtain ⟨_, _, _, _, read⟩ := mem_clausesFrom listed
  exact definition_defined read

-- The definitions of a module that name a function are read each in its place: of what stands
-- in front of it only the statements since the definition before count, whether this one names
-- a function or not. Those of one name with one number of parameters make one method, in the
-- order in which they first appear, and none is lost or counts twice.
theorem clauses_merge_into_methods (cx : Context) (n : Node) (c : ClassDecl)
    (found : module? cx n = some c) :
    let clauses := clausesOf cx (statements n)
    clauses.map (·.node) =
      (statements n).filter (fun k => isDefinition cx k && (head? cx k).isSome) ∧
    (∀ k ∈ clauses, ∃ front after, statements n = front ++ k.node :: after ∧
      k.said = sinceDefinition cx front ∧
      definition? cx (.of cx k.said) k.node = some k.method) ∧
    c.methods.map clauseKey = (clauses.map Clause.key).eraseDups ∧
    (c.methods.map clauseKey).Nodup ∧
    (c.methods.flatMap fun m => group Clause.key clauses (clauseKey m)).Perm clauses ∧
    ∀ m ∈ c.methods, ∃ first more,
      group Clause.key clauses (clauseKey m) = first :: more ∧ m = Clause.joined cx first more := by
  intro clauses
  have keyed := module_keys found
  refine ⟨clausesFrom_nodes cx [] _, fun k member => ?_, keyed, keyed ▸ Grouped.keys_nodup ..,
    Grouped.shared_perm keyed, fun m => mem_module found⟩
  obtain ⟨front, after, split, said, read⟩ := mem_clausesFrom member
  exact ⟨front, after, split, said, read⟩

def bareDefinition (start : Nat) : Tree :=
  .whole "call" start (start + 5) none [
    .whole "identifier" start (start + 3) (some "target") [],
    .whole "arguments" (start + 4) (start + 5) none [
      .whole "identifier" (start + 4) (start + 5) none []]]

def docAttribute (start stop : Nat) (value : Tree) : Tree :=
  .whole "unary_operator" start stop none [
    .token "@" start,
    .whole "call" (start + 1) stop (some "operand") [
      .whole "identifier" (start + 1) (start + 4) (some "target") [],
      .whole "arguments" (start + 5) stop none [value]]]

def sampleModule (stop : Nat) (body : List Tree) : Tree :=
  .whole "call" 0 stop none [
    .whole "identifier" 0 9 (some "target") [],
    .whole "arguments" 10 11 none [.whole "alias" 10 11 none []],
    .whole "do_block" 12 stop none (.token "do" 12 :: body ++ [.token "end" (stop - 3)])]

-- The clauses of `f` have one of `g` between them.
theorem interleaved_clauses_merge :
    let cx : Context :=
      ⟨"defmodule M do\n  @doc \"D\"\n  def f\n  def g\n  def f\nend", "m.ex", .elixir, {}⟩
    let n : Node := .root (sampleModule 53 [
      docAttribute 17 25 (.whole "string" 22 25 none []),
      bareDefinition 28, bareDefinition 36, bareDefinition 44])
    (clausesOf cx (statements n)).map Clause.key = [("f", 0), ("g", 0), ("f", 0)] ∧
      ∃ c, module? cx n = some c ∧ c.methods.map clauseKey = [("f", 0), ("g", 0)] ∧
        ∀ m ∈ c.methods, ∃ first more,
          group Clause.key (clausesOf cx (statements n)) (clauseKey m) = first :: more ∧
            m = Clause.joined cx first more := by
  intro cx n
  have clauses : (clausesOf cx (statements n)).map Clause.key = [("f", 0), ("g", 0), ("f", 0)] := by
    decide +kernel
  have isModule : (module? cx n).isSome := by decide +kernel
  obtain ⟨c, found⟩ := Option.isSome_iff_exists.mp isModule
  obtain ⟨_, _, keyed, _, _, joined⟩ := clauses_merge_into_methods cx n c found
  exact ⟨clauses, c, found, keyed.trans (clauses ▸ rfl), joined⟩

end CodeEntities.Elixir
