import CodeEntities.Proofs.Outline.Sections
import CodeEntities.Rules.Ruby
import Mathlib.Data.List.Forall2
import Mathlib.Tactic.SplitIfs

namespace CodeEntities.Ruby

variable {cx : Context} {n : Node}

-- What a body says of its methods: a bare keyword opens a section, a method is defined, alone or
-- under a command, and a command names a method.
inductive Mark where
  | opens (visibility : Visibility)
  | defines (node : Node) (under : Option Visibility)
  | names (name : String) (visibility : Visibility)

namespace Mark

def opened? : Mark → Option Visibility
  | opens visibility => some visibility
  | defines .. | names .. => none

def given? (name : String) : Mark → Option Visibility
  | names other visibility => if other = name then some visibility else none
  | opens _ | defines .. => none

end Mark

def isConstructor (cx : Context) (n : Node) : Bool :=
  n.kind == "method" && cx.name? n == some "initialize"

def argumentMark (cx : Context) (visibility : Visibility) (argument : Node) : Mark :=
  if isMethod argument then .defines argument (some visibility)
  else .names (symbolName cx argument) visibility

-- A visibility command says something with each of its arguments, from left to right.
def commandMarks (cx : Context) (n : Node) : List Mark :=
  match command? cx n with
  | none => []
  | some (name, arguments) =>
    match visibilityWord? name with
    | some visibility => arguments.map (argumentMark cx visibility)
    | none => []

def marksOf (cx : Context) (n : Node) : List Mark :=
  if n.kind == "identifier" then (visibilityWord? (cx.trimmed n)).toList.map .opens
  else if isConstructor cx n then []
  else if isMethod n then [.defines n none]
  else if n.kind == "call" then commandMarks cx n
  else []

def marks (cx : Context) (n : Node) : List Mark :=
  ((n.classBody?.map Node.namedChildren).getD []).flatMap (marksOf cx)

structure Definition where
  name : String
  node : Node
  under : Option Visibility
  before : List Mark
  after : List Mark

def definition? (cx : Context) (s : Spot Mark) : Option Definition :=
  match s.entry with
  | .defines node under => (cx.name? node).map fun name => ⟨name, node, under, s.before, s.after⟩
  | .opens _ | .names .. => none

def definitions (cx : Context) (marks : List Mark) : List Definition :=
  (spots marks).filterMap (definition? cx)

namespace Definition

-- The last command behind the definition that names the method decides, else the command that
-- the method is defined under, else the last section that is opened in front of it.
def visibility (d : Definition) : Visibility :=
  ((lastSaid? (Mark.given? d.name) d.after).or d.under).getD
    ((lastSaid? Mark.opened? d.before).getD .isPublic)

def followed (m : Mark) (d : Definition) : Definition := { d with after := d.after ++ [m] }

def method? (cx : Context) (d : Definition) : Option MethodDecl :=
  Ruby.method? cx d.visibility d.node

end Definition

structure Reading where
  current : Visibility := .isPublic
  methods : List MethodDecl := []

def Reading.of (body : Body) : Reading := ⟨body.visibility, body.members.methods⟩

def Reading.add (cx : Context) (r : Reading) : Mark → Reading
  | .opens visibility => { r with current := visibility }
  | .defines node under =>
    { r with methods := r.methods ++ (method? cx (under.getD r.current) node).toList }
  | .names name visibility => { r with methods := setVisibility name visibility r.methods }

-- A statement does to the methods and the section what its marks do, one after the other.

theorem addVisibilityArgument_reads (visibility current : Visibility) (members : Members)
    (argument : Node) :
    ⟨current, (addVisibilityArgument cx visibility members argument).methods⟩ =
      Reading.add cx ⟨current, members.methods⟩ (argumentMark cx visibility argument) := by
  unfold addVisibilityArgument argumentMark
  split
  · unfold Reading.add
    cases read : method? cx visibility argument with
    | none => simp [read]
    | some m => simp [read, Members.addMethod]
  · rfl

theorem addVisibilityArguments_reads (visibility current : Visibility) (members : Members)
    (arguments : List Node) :
    ⟨current, (arguments.foldl (addVisibilityArgument cx visibility) members).methods⟩ =
      (arguments.map (argumentMark cx visibility)).foldl (Reading.add cx)
        ⟨current, members.methods⟩ := by
  induction arguments generalizing members with
  | nil => rfl
  | cons a rest ih =>
    rw [List.foldl_cons, List.map_cons, List.foldl_cons, ih, addVisibilityArgument_reads]

theorem visibilityWord_of_other {name : String}
    (other : name ∈
      ["attr_reader", "attr_writer", "attr_accessor", "include", "extend", "prepend"]) :
    visibilityWord? name = none := by
  revert name
  decide

theorem addCommand_reads (body : Body) (n : Node) :
    Reading.of (addCommand cx body n) =
      (commandMarks cx n).foldl (Reading.add cx) (.of body) := by
  unfold addCommand commandMarks
  cases command? cx n with
  | none => rfl
  | some command =>
    obtain ⟨name, arguments⟩ := command
    simp only
    split_ifs with accessor mixin
    · rw [visibilityWord_of_other (by simp at accessor ⊢; tauto)]
      rfl
    · rw [visibilityWord_of_other (by simp at mixin ⊢; tauto)]
      rfl
    · cases visibilityWord? name with
      | none => rfl
      | some visibility => exact addVisibilityArguments_reads visibility _ _ arguments

theorem addStatement_reads (body : Body) (n : Node) :
    Reading.of (addStatement cx body n) = (marksOf cx n).foldl (Reading.add cx) (.of body) := by
  unfold addStatement marksOf isConstructor
  split_ifs with _ _ _ assigns calls
  · cases visibilityWord? (cx.trimmed n) <;> rfl
  · rfl
  · simp only [List.foldl_cons, List.foldl_nil, Reading.add, Reading.of, Option.getD_none]
    cases method? cx body.visibility n with
    | none => simp
    | some m => rfl
  · exact absurd ((eq_of_beq assigns).symm.trans (eq_of_beq calls)) (by decide)
  · cases (n.field? "left").filter (·.kind == "constant") <;> rfl
  · exact addCommand_reads body n
  · rfl

theorem body_reads (statements : List Node) (body : Body) :
    Reading.of (statements.foldl (addStatement cx) body) =
      (statements.flatMap (marksOf cx)).foldl (Reading.add cx) (.of body) := by
  rw [List.foldl_flatMap]
  exact (List.foldl_hom Reading.of fun body n => (addStatement_reads body n).symm).symm

-- What the marks make of the methods.

theorem method_visibility {v w : Visibility} :
    method? cx w n = (method? cx v n).map ({ · with visibility := w }) := by
  unfold method?
  rw [Option.map_map]
  rfl

theorem method_named {v : Visibility} {name : String} (named : cx.name? n = some name) :
    ∃ m, method? cx v n = some m ∧ m.name = name ∧ m.visibility = v := by
  rw [method?, named]
  exact ⟨_, rfl, rfl, rfl⟩

theorem definition_followed (m : Mark) (s : Spot Mark) :
    definition? cx (s.followed m) = (definition? cx s).map (.followed m) := by
  unfold definition? Spot.followed
  cases s.entry with
  | defines node under =>
    simp only [Option.map_map]
    rfl
  | opens | names => rfl

theorem definitions_concat (marks : List Mark) (m : Mark) :
    definitions cx (marks ++ [m]) =
      (definitions cx marks).map (.followed m) ++ (definition? cx ⟨marks, m, []⟩).toList := by
  rw [definitions, spots_concat, List.filterMap_append, List.filterMap_map, definitions,
    List.map_filterMap]
  congr 1
  exact List.filterMap_congr fun s _ => definition_followed m s

theorem definitions_named {marks : List Mark} {d : Definition} (member : d ∈ definitions cx marks) :
    cx.name? d.node = some d.name := by
  obtain ⟨s, -, read⟩ := List.mem_filterMap.mp member
  unfold definition? at read
  cases entry : s.entry with
  | defines node under =>
    rw [entry] at read
    obtain ⟨name, named, rfl⟩ := Option.map_eq_some_iff.mp read
    exact named
  | opens | names => simp [entry] at read

theorem visibility_followed (d : Definition) (m : Mark) :
    (d.followed m).visibility = (m.given? d.name).getD d.visibility := by
  unfold Definition.visibility Definition.followed
  rw [lastSaid_concat]
  cases m.given? d.name <;> rfl

theorem followed_method {d : Definition} {m : Mark} (silent : m.given? d.name = none) :
    (d.followed m).method? cx = d.method? cx := by
  rw [Definition.method?, visibility_followed, silent]
  rfl

theorem followed_methods {ds : List Definition} {m : Mark}
    (silent : ∀ d ∈ ds, m.given? d.name = none) :
    (ds.map (.followed m)).filterMap (Definition.method? cx) =
      ds.filterMap (Definition.method? cx) := by
  rw [List.filterMap_map]
  exact List.filterMap_congr fun d member => followed_method (silent d member)

theorem setVisibility_methods {ds : List Definition} (distinct : (ds.map (·.name)).Nodup)
    (named : ∀ d ∈ ds, cx.name? d.node = some d.name) (name : String) (visibility : Visibility) :
    setVisibility name visibility (ds.filterMap (Definition.method? cx)) =
      (ds.map (.followed (.names name visibility))).filterMap (Definition.method? cx) := by
  induction ds with
  | nil => rfl
  | cons d rest ih =>
    obtain ⟨apart, distinct⟩ := List.nodup_cons.mp distinct
    obtain ⟨own, named⟩ := List.forall_mem_cons.mp named
    obtain ⟨m, read, same, -⟩ := method_named (v := d.visibility) own
    have first : d.method? cx = some m := read
    rw [List.filterMap_cons, first, List.map_cons, List.filterMap_cons]
    by_cases hit : name = d.name
    · subst hit
      have given : (d.followed (.names d.name visibility)).method? cx =
          some { m with visibility } := by
        rw [Definition.method?, visibility_followed, Mark.given?, if_pos rfl]
        exact method_visibility.trans (congrArg _ read)
      have silent : ∀ e ∈ rest, Mark.given? e.name (.names d.name visibility) = none :=
        fun e member => if_neg fun again => apart (List.mem_map.mpr ⟨e, member, again.symm⟩)
      simp only [given, followed_methods silent, setVisibility, same, beq_self_eq_true, if_true]
    · have other : (m.name == name) = false := by
        rw [same]
        exact beq_false_of_ne (Ne.symm hit)
      have silent : Mark.given? d.name (.names name visibility) = none := if_neg hit
      have kept := (followed_method silent).trans first
      simp only [kept, setVisibility, other, ih distinct named]
      rfl

theorem followed_names (m : Mark) (ds : List Definition) :
    (ds.map (Definition.followed m)).map (·.name) = ds.map (·.name) := by
  rw [List.map_map]
  rfl

theorem last_method (marks : List Mark) (node : Node) (under : Option Visibility) :
    (definition? cx ⟨marks, .defines node under, []⟩).toList.filterMap (Definition.method? cx) =
      (method? cx (under.getD ((lastSaid? Mark.opened? marks).getD .isPublic)) node).toList := by
  unfold definition?
  cases named : cx.name? node with
  | none => simp [method?, named]
  | some name =>
    obtain ⟨m, read, -⟩ :=
      method_named (v := under.getD ((lastSaid? Mark.opened? marks).getD .isPublic)) named
    simp only [named, read, Option.map_some, Option.toList_some]
    exact List.filterMap_cons_some read

-- The methods of a body that is read up to some mark are those of the definitions so far, each with
-- the visibility that the marks so far give it.
theorem reading_eq {marks : List Mark}
    (distinct : ((definitions cx marks).map (·.name)).Nodup) :
    marks.foldl (Reading.add cx) {} =
      ⟨(lastSaid? Mark.opened? marks).getD .isPublic,
        (definitions cx marks).filterMap (Definition.method? cx)⟩ := by
  -- By the last mark: it changes the visibility of definitions in front of it, none behind.
  induction marks using List.reverseRecOn with
  | nil => rfl
  | append_singleton marks m ih =>
    rw [definitions_concat, List.map_append, followed_names] at distinct
    have earlier := (List.nodup_append.mp distinct).1
    rw [List.foldl_append, ih earlier, definitions_concat, List.filterMap_append, lastSaid_concat,
      List.foldl_cons, List.foldl_nil]
    cases m with
    | opens v =>
      rw [followed_methods fun d _ => rfl]
      simp [Reading.add, Mark.opened?, definition?]
    | defines node under =>
      rw [followed_methods fun d _ => rfl, last_method]
      rfl
    | names name v =>
      rw [← setVisibility_methods earlier (fun d => definitions_named) name v]
      simp [Reading.add, Mark.opened?, definition?]

structure Gives (cx : Context) (d : Definition) (m : MethodDecl) : Prop where
  read : d.method? cx = some m
  name : m.name = d.name
  visibility : m.visibility = d.visibility

theorem gives_methods {ds : List Definition} (named : ∀ d ∈ ds, cx.name? d.node = some d.name) :
    List.Forall₂ (Gives cx) ds (ds.filterMap (Definition.method? cx)) := by
  induction ds with
  | nil => exact .nil
  | cons d rest ih =>
    obtain ⟨own, named⟩ := List.forall_mem_cons.mp named
    obtain ⟨m, read, name, visibility⟩ := method_named (v := d.visibility) own
    rw [List.filterMap_cons_some (show d.method? cx = some m from read)]
    exact .cons ⟨read, name, visibility⟩ (ih named)

theorem command_section (body : Body) {n : Node} (isCommand : n.kind = "call") :
    (addStatement cx body n).visibility = body.visibility := by
  have added : addStatement cx body n = addCommand cx body n := by
    simp [addStatement, isMethod, isCommand]
  rw [added, addCommand]
  cases command? cx n with
  | none => rfl
  | some command =>
    simp only
    split_ifs
    · rfl
    · rfl
    · cases visibilityWord? command.1 <;> rfl

theorem section_members (body : Body) {n : Node} (isWord : n.kind = "identifier") :
    (addStatement cx body n).members = body.members := by
  rw [addStatement, if_pos (beq_iff_eq.mpr isWord)]

-- In a body that defines no name twice, the methods are those of the definitions, in their order:
-- a method has the visibility of the last command behind it that names it, else of the command it
-- stands under, else of the last section in front of it, else it is public.
theorem method_visibility_is_positional (cx : Context) (n : Node) {name : String}
    (named : cx.name? n = some name)
    (distinct : ((definitions cx (marks cx n)).map (·.name)).Nodup) :
    (∃ c, class? cx n = some c ∧
      List.Forall₂ (Gives cx) (definitions cx (marks cx n)) c.methods) ∧
    (∀ body command, command.kind = "call" →
      (addStatement cx body command).visibility = body.visibility) ∧
    ∀ body word, word.kind = "identifier" → (addStatement cx body word).members = body.members := by
  refine ⟨?_, fun body _ => command_section body, fun body _ => section_members body⟩
  let statements := (n.classBody?.map Node.namedChildren).getD []
  have methods : (statements.foldl (addStatement cx) {}).members.methods =
      (definitions cx (marks cx n)).filterMap (Definition.method? cx) :=
    congrArg Reading.methods ((body_reads statements {}).trans (reading_eq distinct))
  have gives : List.Forall₂ (Gives cx) (definitions cx (marks cx n))
      (statements.foldl (addStatement cx) {}).members.methods := by
    rw [methods]
    exact gives_methods fun d => definitions_named
  rw [class?, named, Option.map_some]
  exact ⟨_, rfl, gives⟩

def emptyMethod (start : Nat) : Tree :=
  .whole "method" start (start + 9) none [
    .token "def" start,
    .whole "identifier" (start + 4) (start + 5) (some "name") [],
    .token ";" (start + 5),
    .token "end" (start + 6)]

def commandOn (start width stop : Nat) (argument : Tree) : Tree :=
  .whole "call" start stop none [
    .whole "identifier" start (start + width) (some "method") [],
    .whole "argument_list" (start + width + 1) stop (some "arguments") [argument]]

-- `a` is public until the last line, `b` is under `private` and `c` has its own command.
def sampleClass : Tree :=
  .whole "class" 0 67 none [
    .token "class" 0,
    .whole "constant" 6 7 (some "name") [],
    .whole "body_statement" 8 63 (some "body") [
      emptyMethod 8,
      .whole "identifier" 18 25 none [],
      emptyMethod 26,
      commandOn 36 6 52 (emptyMethod 43),
      commandOn 53 7 63 (.whole "simple_symbol" 61 63 none [])],
    .token "end" 64]

theorem sample_class_positional :
    let source := "class A\ndef a;end\nprivate\ndef b;end\npublic def c;end\nprivate :a\nend"
    let cx : Context := ⟨source, "m.rb", .ruby, {}⟩
    let n : Node := .root sampleClass
    cx.name? n = some "A" ∧
      (definitions cx (marks cx n)).map (fun d => (d.name, d.visibility)) =
        [("a", .isPrivate), ("b", .isPrivate), ("c", .isPublic)] ∧
      ∃ c, class? cx n = some c ∧
        List.Forall₂ (Gives cx) (definitions cx (marks cx n)) c.methods := by
  intro source cx n
  have named : cx.name? n = some "A" := by decide +kernel
  have distinct : ((definitions cx (marks cx n)).map (·.name)).Nodup := by decide +kernel
  exact ⟨named, by decide +kernel, (method_visibility_is_positional cx n named distinct).1⟩

end CodeEntities.Ruby
