import CodeEntities.Proofs.Loops.Stacks
import CodeEntities.Rules.CFamily
import CodeEntities.Rules.Elixir
import CodeEntities.Rules.Java
import CodeEntities.Rules.Kotlin
import CodeEntities.Rules.Ruby
import CodeEntities.Rules.Rust
import Mathlib.Data.List.Basic

namespace CodeEntities

variable {k : Nat}

-- A stack on which only the named children of a node are put lists what a search below the node
-- reports, if the search passes over the other children.
theorem Node.named_reported (visit : Node → Visit) {listed : Node → List Node} (n : Node)
    (others : ∀ c, (c.isNamed && !c.isComment) = false → visit c = .pass)
    (named : ∀ c, (c.isNamed && !c.isComment) = true → listed c = c.collect visit) :
    n.namedChildren.flatMap listed = n.collectBelow visit := by
  rw [collectBelow_eq, namedChildren]
  induction n.children with
  | nil => rfl
  | cons c cs ih =>
    cases shown : c.isNamed && !c.isComment with
    | true => simp only [List.filter_cons, shown, if_true, List.flatMap_cons, ih, named c shown]
    | false =>
      have passed : c.collect visit = [] := by rw [collect_eq, others c shown]
      simp only [List.filter_cons, shown, Bool.false_eq_true, if_false, List.flatMap_cons, ih,
        passed, List.nil_append]

theorem Node.stackSize_part {n : Node} {part : Option Node} {pushed : Node → List Node}
    (less : ∀ m, stackSize (pushed m) < m.size) (smaller : ∀ m ∈ part, m.size < n.size) :
    stackSize ((part.map pushed).getD []) < n.size := by
  cases part with
  | none => exact n.focus.size_pos
  | some m => exact Nat.lt_trans (less m) (smaller m rfl)

namespace CFamily

variable (cx : Context) (className : String)

def memberLoop : Loop (Section × List Node) Section :=
  Loop.overStack fun s n =>
    if n.kind == "template_declaration" then (s, n.namedChildren.getLast?.toList)
    else (addMember cx className s n, [])

theorem member_result (s : Section) {queue : List Node} (enough : Node.stackSize queue < k) :
    (memberLoop cx className).within k (s, queue) = some (readQueue cx className s queue) := by
  refine Loop.overStack_result _ Node.stackSize (readQueue cx className) ?_ ?_ ?_ s enough
  · intro s n queue
    split
    · cases last : n.namedChildren.getLast? with
      | none => exact Node.stackSize_pop n queue
      | some m => exact Nat.add_lt_add_right (size_last last) _
    · exact Node.stackSize_pop n queue
  · exact fun s => readQueue.eq_1 cx className s
  · intro s n queue
    rw [readQueue.eq_def cx className s (n :: queue)]
    dsimp only
    split
    · split
      · next m last => rw [last]; rfl
      · next absent => rw [absent]; rfl
    · rfl

end CFamily

namespace Rust

variable (cx : Context)

def useLoop : Loop (List UsePath × List UsePlace) (List UsePath) :=
  Loop.listing fun p =>
    match useStep cx p with
    | .leaf used => ([used], [])
    | .below places => ([], places)

theorem use_result (start : String) (n : Node) (enough : n.size < k) :
    (useLoop cx).within k ([], [⟨start, n⟩]) = some (usePaths cx start n) := by
  have whole : Node.stackSize ([(⟨start, n⟩ : UsePlace)].map (·.node)) < k := enough
  refine Loop.overStack_result _ (fun stack => Node.stackSize (stack.map (·.node)))
    (fun found stack => found ++ pathsOnStack cx stack) ?_ ?_ ?_ [] whole
  · intro found p stack
    dsimp only
    split
    · exact Node.stackSize_pop _ _
    · next places read =>
      rw [List.map_append]
      exact Node.stackSize_push (useStep_smaller read) _
  · intro found
    rw [pathsOnStack, List.append_nil]
  · intro found p stack
    dsimp only
    split
    · next used read => rw [pathsOnStack_leaf read, List.append_assoc]; rfl
    · next places read => rw [pathsOnStack_below read, List.append_nil]

end Rust

namespace Elixir

variable (cx : Context)

def callStep (c : Node) : List (String × Node) × List Node :=
  match target? cx c with
  | none => ([], [])
  | some name =>
    ([(name, c)], if name == "defmodule" then ((doBlock? c).map Node.children).getD [] else [])

def callsAt (c : Node) : List (String × Node) :=
  match target? cx c with
  | none => []
  | some name =>
    (name, c) :: if name == "defmodule" then ((doBlock? c).map (moduleCalls cx)).getD [] else []

theorem moduleCalls_eq (n : Node) : moduleCalls cx n = n.children.flatMap (callsAt cx) := by
  rw [moduleCalls, List.flatMap_subtype (g := callsAt cx), List.unattach_attach]
  intro c child
  dsimp only [callsAt]
  cases target? cx c with
  | none => rfl
  | some name =>
    dsimp only
    split
    · split
      · next block found => rw [found]; rfl
      · next absent => rw [absent]; rfl
    · rfl

theorem call_result (n : Node) :
    (Loop.listing (callStep cx)).within n.size ([], n.children) = some (moduleCalls cx n) := by
  rw [moduleCalls_eq]
  refine Node.listing_result (callStep cx) (callsAt cx) (fun c => ?_) (fun c => ?_)
    (Node.stackSize_below n)
  · unfold callStep
    split
    · exact c.focus.size_pos
    · split
      · exact Node.stackSize_part Node.stackSize_below fun m found => size_doBlock found
      · exact c.focus.size_pos
  · unfold callStep callsAt
    split
    · rfl
    · split
      · cases doBlock? c with
        | none => rfl
        | some block => exact congrArg (List.cons _) (moduleCalls_eq cx block).symm
      · rfl

def fieldStep (n : Node) : List Node × List Node :=
  if n.kind == "list" || n.kind == "keywords" then ([], n.namedChildren)
  else if n.kind == "atom" || n.kind == "pair" then ([n], [])
  else ([], [])

def fieldVisit (n : Node) : Node.Visit :=
  if !n.isNamed then .pass
  else if n.kind == "list" || n.kind == "keywords" then .enter
  else if n.kind == "atom" || n.kind == "pair" then .report
  else .pass

def fieldsAt (n : Node) : List Node :=
  if n.kind == "list" || n.kind == "keywords" then n.collectBelow fieldVisit
  else if n.kind == "atom" || n.kind == "pair" then [n]
  else []

theorem comment_apart {n : Node} (comment : n.isComment = true) {kind : String}
    (plain : (Text.contains kind "comment" || kind == "haddock") = false) :
    (n.kind == kind) = false := by
  rw [Bool.eq_false_iff]
  intro same
  rw [Node.isComment, eq_of_beq same, plain] at comment
  cases comment

theorem field_passed (n : Node) (other : (n.isNamed && !n.isComment) = false) :
    fieldVisit n = .pass := by
  unfold fieldVisit
  cases named : n.isNamed with
  | false => rfl
  | true =>
    have comment : n.isComment = true := by simpa [named] using other
    rw [comment_apart comment (by decide), comment_apart comment (by decide),
      comment_apart comment (by decide), comment_apart comment (by decide)]
    rfl

theorem field_named (n : Node) (shown : (n.isNamed && !n.isComment) = true) :
    fieldsAt n = n.collect fieldVisit := by
  have named : n.isNamed = true := (Bool.and_eq_true_iff.mp shown).1
  rw [Node.collect_eq, fieldsAt, fieldVisit, named]
  split
  · rw [Node.collectBelow_eq, List.flatMap_def]
    rfl
  · split <;> rfl

theorem fieldNodes_eq (n : Node) : fieldNodes n = (arguments n).flatMap fieldsAt := by
  unfold fieldNodes arguments
  cases n.childOfKind? ["arguments"] with
  | none => rfl
  | some list =>
    refine List.flatMap_congr fun m member => (field_named m ?_).symm
    exact (List.mem_filter.mp member).2

theorem field_result (n : Node) :
    (Loop.listing fieldStep).within n.size ([], arguments n) = some (fieldNodes n) := by
  rw [fieldNodes_eq]
  refine Node.listing_result fieldStep fieldsAt (fun m => ?_) (fun m => ?_) ?_
  · unfold fieldStep
    split
    · exact m.stackSize_named
    · split <;> exact m.focus.size_pos
  · unfold fieldStep fieldsAt
    split
    · exact m.named_reported fieldVisit field_passed field_named
    · split <;> rfl
  · exact Node.stackSize_part Node.stackSize_named fun list found =>
      Node.size_child (List.mem_of_find?_eq_some found)

end Elixir

namespace Java

def memberStep (n : Node) : List Node × List Node :=
  if n.kind == "enum_body_declarations" then ([], n.namedChildren) else ([n], [])

def memberVisit (n : Node) : Node.Visit :=
  if !n.isNamed || n.isComment then .pass
  else if n.kind == "enum_body_declarations" then .enter
  else .report

def membersAt (n : Node) : List Node :=
  if n.kind == "enum_body_declarations" then memberNodes n else [n]

theorem memberNodes_named (n : Node) : n.namedChildren.flatMap membersAt = memberNodes n := by
  refine n.named_reported memberVisit (fun c other => ?_) (fun c shown => ?_)
  · rw [memberVisit, if_pos]
    revert other
    cases c.isNamed <;> cases c.isComment <;> decide
  · obtain ⟨named, plain⟩ := Bool.and_eq_true_iff.mp shown
    rw [Node.collect_eq, membersAt, memberVisit, named, (Bool.not_eq_true' _).mp plain]
    split
    · rw [memberNodes, Node.collectBelow_eq, List.flatMap_def]
      rfl
    · rfl

theorem member_result (body : Node) :
    (Loop.listing memberStep).within body.size ([], body.namedChildren) =
      some (memberNodes body) := by
  rw [← memberNodes_named]
  refine Node.listing_result memberStep membersAt (fun n => ?_) (fun n => ?_) body.stackSize_named
  · unfold memberStep
    split
    · exact n.stackSize_named
    · exact n.focus.size_pos
  · unfold memberStep membersAt
    split
    · exact memberNodes_named n
    · rfl

end Java

namespace Ruby

def classStep (n : Node) : List Node × List Node :=
  if n.kind == "module" then ([n], (n.classBody?.map Node.children).getD [])
  else if n.kind == "class" then ([n], [])
  else ([], [])

def classesAt (n : Node) : List Node :=
  if n.kind == "module" then n :: (n.classBody?.map classNodes).getD []
  else if n.kind == "class" then [n]
  else []

theorem classNodes_eq (n : Node) : classNodes n = n.children.flatMap classesAt := by
  rw [classNodes, List.flatMap_subtype (g := classesAt), List.unattach_attach]
  intro c child
  dsimp only [classesAt]
  split
  · split
    · next body found => rw [found]; rfl
    · next absent => rw [absent]; rfl
  · rfl

theorem class_result (n : Node) :
    (Loop.listing classStep).within n.size ([], n.children) = some (classNodes n) := by
  rw [classNodes_eq]
  refine Node.listing_result classStep classesAt (fun c => ?_) (fun c => ?_)
    (Node.stackSize_below n)
  · unfold classStep
    split
    · exact Node.stackSize_part Node.stackSize_below fun m found => Node.size_classBody found
    · split <;> exact c.focus.size_pos
  · unfold classStep classesAt
    split
    · cases c.classBody? with
      | none => rfl
      | some body => exact congrArg (List.cons _) (classNodes_eq body).symm
    · split <;> rfl

end Ruby

namespace Kotlin

-- Reads a member: the body of a companion object puts its members on the stack, as static ones. The
-- stack holds what is left of the recursion over the bodies.
def memberStep (entry : Node × Bool) : List (Node × Bool) × List (Node × Bool) :=
  if entry.1.kind == "companion_object" then
    ([], ((entry.1.classBody?.map Node.namedChildren).getD []).map fun m => (m, true))
  else ([entry], [])

def membersAt (entry : Node × Bool) : List (Node × Bool) :=
  if entry.1.kind == "companion_object" then (entry.1.classBody?.map (memberNodes true)).getD []
  else [entry]

theorem memberNodes_eq (isStatic : Bool) (body : Node) :
    memberNodes isStatic body =
      (body.namedChildren.map fun m => (m, isStatic)).flatMap membersAt := by
  rw [memberNodes, List.flatMap_subtype (g := fun m => membersAt (m, isStatic)),
    List.unattach_attach, List.flatMap_map]
  intro m child
  dsimp only [membersAt]
  split
  · split
    · next inner found => rw [found]; rfl
    · next absent => rw [absent]; rfl
  · rfl

theorem map_fst (isStatic : Bool) (ms : List Node) :
    (ms.map fun m => (m, isStatic)).map (·.1) = ms := by
  rw [List.map_map]
  exact List.map_id ms

theorem member_result (isStatic : Bool) (body : Node) :
    (Loop.listing memberStep).within body.size ([], body.namedChildren.map fun m => (m, isStatic)) =
      some (memberNodes isStatic body) := by
  rw [memberNodes_eq]
  refine Loop.listing_result memberStep (fun stack => Node.stackSize (stack.map (·.1))) membersAt
    (fun entry stack => ?_) (fun entry => ?_) ?_
  · rw [List.map_append]
    refine Node.stackSize_push (n := entry.1) ?_ _
    unfold memberStep
    split
    · rw [map_fst]
      exact Node.stackSize_part Node.stackSize_named fun m found => Node.size_classBody found
    · exact entry.1.focus.size_pos
  · unfold memberStep membersAt
    split
    · cases entry.1.classBody? with
      | none => rfl
      | some inner => exact (memberNodes_eq true inner).symm
    · rfl
  · rw [map_fst]
    exact body.stackSize_named

end Kotlin

end CodeEntities
