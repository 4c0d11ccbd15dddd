import CodeEntities.Analysis.Basic
import CodeEntities.Proofs.Parsing.Session
import CodeEntities.Proofs.Tree.Descent

namespace CodeEntities

namespace Node

-- A node is marked when it is a fault or a child of it is marked, and only then.
def MarksFaults (n : Node) : Prop :=
  ∀ m ∈ n.preorder, m.label.hasError = (isFault m || m.children.any (·.label.hasError))

instance (n : Node) : Decidable n.MarksFaults :=
  inferInstanceAs (Decidable (∀ m ∈ n.preorder,
    m.label.hasError = (isFault m || m.children.any (·.label.hasError))))

def isOutermostFault (n : Node) : Bool := isFault n && !n.ancestors.any isFault

variable {n m c : Node}

theorem MarksFaults.child (marked : n.MarksFaults) (member : c ∈ n.children) : c.MarksFaults :=
  fun m below => marked m (mem_preorder.mpr (.inr ⟨c, member, below⟩))

theorem MarksFaults.hasError_eq (marked : n.MarksFaults) :
    n.label.hasError = (isFault n || n.children.any (·.label.hasError)) :=
  marked n (self_mem_preorder n)

theorem MarksFaults.clean_child (marked : n.MarksFaults) (clean : n.label.hasError = false)
    (member : c ∈ n.children) : c.label.hasError = false := by
  have parts := marked.hasError_eq.symm.trans clean
  rw [Bool.or_eq_false_iff] at parts
  simpa using List.any_eq_false.mp parts.2 c member

theorem MarksFaults.clean_below (marked : n.MarksFaults) (clean : n.label.hasError = false)
    (below : m ∈ n.preorder) : isFault m = false := by
  induction n using Node.induction with
  | step n ih =>
    rcases mem_preorder.mp below with rfl | ⟨c, child, deeper⟩
    · have parts := marked.hasError_eq.symm.trans clean
      exact (Bool.or_eq_false_iff.mp parts).1
    · exact ih c child (marked.child child) (marked.clean_child clean child) deeper

def faultVisit (n : Node) : Visit :=
  if isFault n then .report else if n.label.hasError then .enter else .pass

theorem not_outermost_below (fault : isFault n = true) (below : m ∈ n.descendants) :
    m.isOutermostFault = false := by
  have inside : m.ancestors.any isFault = true :=
    List.any_eq_true.mpr ⟨n, mem_ancestors below, fault⟩
  rw [isOutermostFault, inside, Bool.not_true, Bool.and_false]

-- Below faultless nodes the search, which leaves out what is not marked, finds the outermost
-- faults of all.
theorem collect_faults (marked : n.MarksFaults) (faultless : n.ancestors.any isFault = false) :
    n.collect faultVisit = n.preorder.filter isOutermostFault := by
  induction n using Node.induction with
  | step n ih =>
    rw [collect_eq, preorder_eq, List.filter_cons, faultVisit]
    cases fault : isFault n with
    | true =>
      have outermost : n.isOutermostFault = true := by
        rw [isOutermostFault, fault, faultless, Bool.not_false, Bool.and_true]
      have outermostOnly : n.descendants.filter isOutermostFault = [] :=
        List.filter_eq_nil_iff.mpr fun m below => by simp [not_outermost_below fault below]
      rw [descendants] at outermostOnly
      rw [if_pos rfl, if_pos outermost, outermostOnly]
    | false =>
      have inner : n.isOutermostFault = false := by rw [isOutermostFault, fault, Bool.false_and]
      rw [if_neg Bool.false_ne_true, inner, if_neg Bool.false_ne_true]
      cases mark : n.label.hasError with
      | true =>
        have children : n.children.map (collect faultVisit) =
            n.children.map fun c => c.preorder.filter isOutermostFault := by
          refine List.map_congr_left fun c child => ih c child (marked.child child) ?_
          rw [ancestors_child child, List.any_cons, fault, faultless, Bool.or_false]
        rw [if_pos rfl, List.filter_flatten, List.map_map]
        exact congrArg List.flatten children
      | false =>
        have faultFree : n.descendants.filter isOutermostFault = [] := by
          refine List.filter_eq_nil_iff.mpr fun m below => ?_
          have clean := marked.clean_below mark ((descendants_sublist n).subset below)
          simp [isOutermostFault, clean]
        rw [if_neg Bool.false_ne_true]
        exact faultFree.symm

theorem collect_marked (marked : n.MarksFaults) (mark : n.label.hasError = true) :
    n.collect faultVisit ≠ [] := by
  induction n using Node.induction with
  | step n ih =>
    rw [collect_eq, faultVisit]
    cases fault : isFault n with
    | true => exact List.cons_ne_nil n []
    | false =>
      have holder : n.children.any (·.label.hasError) = true := by
        rw [← marked.hasError_eq.symm.trans mark, fault, Bool.false_or]
      obtain ⟨c, child, inside⟩ := List.any_eq_true.mp holder
      have found := ih c child (marked.child child) inside
      rw [if_neg Bool.false_ne_true, if_pos mark]
      intro empty
      exact found (List.flatten_eq_nil_iff.mp empty _ (List.mem_map_of_mem child))

end Node

variable {root : Node}

theorem faults_exact (marked : root.MarksFaults) (faultless : root.ancestors.any isFault = false) :
    faults root = root.preorder.filter Node.isOutermostFault := by
  unfold faults
  cases mark : root.label.hasError with
  | true => exact Node.collect_faults marked faultless
  | false =>
    refine (List.filter_eq_nil_iff.mpr fun m below => ?_).symm
    simp [Node.isOutermostFault, marked.clean_below mark below]

theorem faults_found (marked : root.MarksFaults) :
    faults root ≠ [] ↔ root.label.hasError = true := by
  unfold faults
  cases mark : root.label.hasError with
  | true => exact iff_of_true (Node.collect_marked marked mark) rfl
  | false => exact iff_of_false (fun found => found rfl) Bool.false_ne_true

namespace Session

theorem analyze_parsed {s : Session} {engine : Engine} {options : Options} {path source : String}
    {l : Language} {a : FileAnalysis}
    (analyzed : (s.analyze engine options path source l).2 = .ok a) :
    ∃ p, (s.parse engine l source).2 = .ok p ∧ a = .ofParsed options path p := by
  simp only [analyze] at analyzed
  cases answer : (s.parse engine l source).2 with
  | error fault =>
    rw [answer] at analyzed
    cases analyzed
  | ok p =>
    rw [answer] at analyzed
    cases analyzed
    exact ⟨p, rfl, rfl⟩

theorem parseWith_tree {s : Session} {engine : Engine} {l : Language} {source : String}
    {earlier : Option (Tree × List Text.Edit)} {p : Parsed}
    (answer : (s.parseWith engine l source earlier).2 = .ok p) :
    engine l source earlier = some p.tree := by
  have outcome := parseWith_outcome s engine l source earlier
  generalize s.parseWith engine l source earlier = result at outcome answer
  cases outcome with
  | stopped => cases answer
  | unavailable => cases answer
  | failed => cases answer
  | parsed _ _ made =>
    cases answer
    exact made

end Session

namespace Outline

-- The errors of a file are its outermost faults in the order of the document, each where its
-- node is; there are some exactly when a parse or an analysis says so.
theorem errors_are_outermost_faults (cx : Context) (t : Tree)
    (marked : (Node.root t).MarksFaults) :
    (extract cx (.root t)).errors =
        ((Node.root t).preorder.filter Node.isOutermostFault).map (fun n =>
          { message := faultMessage cx n, location := cx.location n }) ∧
      ((extract cx (.root t)).errors ≠ [] ↔ t.label.hasError = true) ∧
      (∀ (s : Session) (engine : Engine) (l : Language) (source : String)
        (earlier : Option (Tree × List Text.Edit)) (p : Parsed),
        engine l source earlier = some t → (s.parseWith engine l source earlier).2 = .ok p →
        ∀ options path, (ofParsed options path p).errors ≠ [] ↔ p.hasErrors = true) ∧
      ∀ (s : Session) (engine : Engine) (options : Options) (path source : String) (l : Language)
        (a : FileAnalysis), engine l source none = some t →
        (s.analyze engine options path source l).2 = .ok a →
        (a.outline.errors ≠ [] ↔ a.hasErrors = true) := by
  have found : ∀ cx, (extract cx (.root t)).errors ≠ [] ↔ t.label.hasError = true :=
    fun _ => (not_congr List.map_eq_nil_iff).trans (faults_found marked)
  have parsed : ∀ (s : Session) (engine : Engine) (l : Language) (source : String)
      (earlier : Option (Tree × List Text.Edit)) (p : Parsed), engine l source earlier = some t →
      (s.parseWith engine l source earlier).2 = .ok p →
      ∀ options path, (ofParsed options path p).errors ≠ [] ↔ p.hasErrors = true := by
    intro s engine l source earlier p made answer options path
    have same : t = p.tree := Option.some.inj (made.symm.trans (Session.parseWith_tree answer))
    subst same
    exact found _
  refine ⟨congrArg (List.map _) (faults_exact marked rfl), found cx, parsed, ?_⟩
  intro s engine options path source l a made analyzed
  obtain ⟨p, answer, rfl⟩ := Session.analyze_parsed analyzed
  exact parsed s engine l source none p made answer options path

-- A faulty token with another fault in it, and a name that is missing behind it.
def faultyLines : Tree :=
  let marked := fun (t : Tree) => Tree.mk { t.label with hasError := true } t.children
  let missing := fun (kind : String) (start : Nat) =>
    Tree.mk { (Tree.token kind start).label with stop := start, missing := true, hasError := true } []
  marked <| .whole "program" 0 4 none [
    .mk { (Tree.whole "ERROR" 0 2 none []).label with error := true, hasError := true } [
      .token "(" 0, missing ")" 1],
    .whole "empty" 3 3 none [],
    marked <| .whole "let" 3 4 none [missing "name" 4]]

theorem inner_fault_is_not_listed :
    let cx : Context := ⟨"(\n\n=", "f.lua", .lua, {}⟩
    (Node.root faultyLines).MarksFaults ∧
      (extract cx (.root faultyLines)).errors = [
        { message := "Syntax error near \x60(\x60", location := ⟨"f.lua", 1, 2, 0, 0⟩ },
        { message := "Missing \x60name\x60", location := ⟨"f.lua", 3, 3, 1, 1⟩ }] ∧
      faultyLines.label.hasError = true := by
  intro cx
  have marked : (Node.root faultyLines).MarksFaults := by decide +kernel
  have found : (extract cx (.root faultyLines)).errors ≠ [] := by decide +kernel
  exact ⟨marked, by decide +kernel, (errors_are_outermost_faults cx faultyLines marked).2.1.mp found⟩

end Outline

end CodeEntities
