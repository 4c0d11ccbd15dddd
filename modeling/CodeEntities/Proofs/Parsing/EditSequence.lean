import CodeEntities.Proofs.Parsing.History

namespace CodeEntities

namespace Text.Edit

-- A text becomes another by edits, each of which replaces a part of what the ones
-- before it leave.
inductive Edited : String → List Edit → String → Prop where
  | unchanged {text} : Edited text [] text
  | replaced {old start oldEnd inserted e edits new}
      (accepted : replacement old start oldEnd inserted = .ok e)
      (rest : Edited (e.apply old inserted) edits new) :
      Edited old (e :: edits) new

variable {old new text inserted : String} {start oldEnd n : Nat} {e : Edit}
  {edits later : List Edit}

theorem Edited.split (edited : Edited old (edits ++ later) new) :
    ∃ text, Edited old edits text ∧ Edited text later new := by
  induction edits generalizing old with
  | nil => exact ⟨old, .unchanged, edited⟩
  | cons e edits ih =>
    cases edited with
    | replaced accepted rest =>
      obtain ⟨text, first, second⟩ := ih rest
      exact ⟨text, .replaced accepted first, second⟩

theorem newEndByte_le (accepted : replacement old start oldEnd inserted = .ok e) :
    e.newEndByte ≤ (e.apply old inserted).utf8ByteSize := by
  obtain ⟨before, removed, after, rfl, _, _, rfl⟩ := replacement_exact.mp accepted
  rw [apply_between, String.utf8ByteSize_append, String.utf8ByteSize_append]
  exact Nat.le_add_right _ _

theorem startByte_le (accepted : replacement old start oldEnd inserted = .ok e) :
    e.startByte ≤ e.newEndByte := by
  obtain ⟨before, removed, after, _, _, _, rfl⟩ := replacement_exact.mp accepted
  exact Nat.le_add_right _ _

-- Edits behind an offset leave a text that reaches up to it.
theorem Edited.reaches (edited : Edited old edits new) (inside : n ≤ old.utf8ByteSize)
    (behind : ∀ e ∈ edits, n ≤ e.startByte) : n ≤ new.utf8ByteSize := by
  induction edited with
  | unchanged => exact inside
  | @replaced old _ _ inserted e _ _ accepted rest ih =>
    refine ih ?_ fun d member => behind d (List.mem_cons_of_mem _ member)
    have first := behind e (List.mem_cons_self ..)
    have second := startByte_le accepted
    have third := newEndByte_le accepted
    omega

-- After one of the edits the others leave a text that does not reach up to its new end.
def Undercut (old : String) (edits : List Edit) (new : String) : Prop :=
  ∃ before e after text, edits = before ++ e :: after ∧ Edited old (before ++ [e]) text ∧
    Edited text after new ∧ new.utf8ByteSize < e.newEndByte

theorem Edited.undercut_iff (edited : Edited old edits new) :
    Undercut old edits new ↔ ∃ e ∈ edits, new.utf8ByteSize < e.newEndByte := by
  constructor
  · rintro ⟨before, e, after, text, rfl, _, _, short⟩
    exact ⟨e, by simp, short⟩
  · rintro ⟨e, member, short⟩
    obtain ⟨before, after, rfl⟩ := List.append_of_mem member
    rw [List.append_cons] at edited
    obtain ⟨text, first, second⟩ := edited.split
    exact ⟨before, e, after, text, rfl, first, second, short⟩

theorem Edited.last_newEndByte (edited : Edited old (edits ++ [e]) text) :
    e.newEndByte ≤ text.utf8ByteSize := by
  obtain ⟨middle, _, last⟩ := edited.split
  cases last with
  | replaced accepted rest =>
    cases rest with
    | unchanged => exact newEndByte_le accepted

theorem not_undercut_of_inOrder
    (inOrder : edits.Pairwise fun d e => d.newEndByte ≤ e.startByte) :
    ¬ Undercut old edits new := by
  rintro ⟨before, e, after, text, rfl, first, second, short⟩
  obtain ⟨_, behind, _⟩ := List.pairwise_append.mp inOrder
  have kept := second.reaches first.last_newEndByte (List.pairwise_cons.mp behind).1
  omega

end Text.Edit

namespace Session

open Text.Edit

theorem endsWithin_iff {old new : String} {edits : List Text.Edit} (edited : Edited old edits new) :
    EndsWithin edits new ↔ ¬ Undercut old edits new := by
  simp [EndsWithin, edited.undercut_iff]

-- A session that is started refuses the edits that led to a text exactly when the later
-- ones of them undercut an earlier one; edits that follow one another in the text never
-- do. Otherwise the engine gets them with the earlier tree.
theorem edits_refused_iff_undercut (engine : Engine) (config : ParserConfig)
    (history : List Operation) (earlier : Tree) (l : Language) {old new : String}
    {edits : List Text.Edit} (edited : Edited old edits new)
    (started : (({ config } : Session).after engine history).isStarted = true)
    (loadable : l.hasGrammar = true) :
    let answer :=
      ((({ config } : Session).after engine history).reparse engine earlier new edits l).2
    ((∃ fault, answer = .error (.invalidEdit fault)) ↔ Undercut old edits new) ∧
    (¬ Undercut old edits new → answer =
      match engine l new (some (earlier, edits)) with
      | some tree => .ok { tree, source := new, language := l }
      | none => .error (.parseFailure l)) ∧
    (edits.Pairwise (fun d e => d.newEndByte ≤ e.startByte) → ¬ Undercut old edits new) := by
  intro answer
  obtain ⟨handle, found⟩ := (after_reached engine config history).handle started loadable
  have accepted (free : ¬ Undercut old edits new) : answer =
      match engine l new (some (earlier, edits)) with
      | some tree => .ok { tree, source := new, language := l }
      | none => .error (.parseFailure l) := by
    simp only [answer, reparse_within ((endsWithin_iff edited).mpr free)]
    exact parseWith_answer started found engine new _
  refine ⟨⟨?_, ?_⟩, accepted, not_undercut_of_inOrder⟩
  · rintro ⟨fault, refused⟩
    by_contra free
    rw [accepted free] at refused
    split at refused <;> cases refused
  · intro undercut
    have beyond : ¬ EndsWithin edits new := fun within => (endsWithin_iff edited).mp within undercut
    obtain ⟨_, e, _, _, _, _, refused⟩ :=
      reparse_beyond beyond (({ config } : Session).after engine history) engine earlier l
    exact ⟨_, congrArg Prod.snd refused⟩

def wholeModule : Engine := fun _ source _ => some (.whole "module" 0 source.utf8ByteSize none [])

def justStarted : Session := ({ config := {} } : Session).after wholeModule [.start]

def changedAndPrepended : List Text.Edit := [.between "y" "z" "w", .between "" "" "x"]

theorem changed_and_prepended_accepted :
    Edited "yz" changedAndPrepended "xyw" ∧ justStarted.isStarted = true ∧
    Language.python.hasGrammar = true ∧ ¬ Undercut "yz" changedAndPrepended "xyw" ∧
    (justStarted.reparse wholeModule (.token "yz" 0) "xyw" changedAndPrepended .python).2 =
      .ok { tree := .whole "module" 0 3 none [], source := "xyw", language := .python } := by
  have edited : Edited "yz" changedAndPrepended "xyw" :=
    .replaced (replacement_between "y" "z" "" "w")
      (.replaced (replacement_between "" "" "yw" "x") .unchanged)
  have started : justStarted.isStarted = true := by decide +kernel
  have free : ¬ Undercut "yz" changedAndPrepended "xyw" := by
    rw [edited.undercut_iff]
    decide +kernel
  obtain ⟨_, accepted, _⟩ := edits_refused_iff_undercut wholeModule {} [.start] (.token "yz" 0)
    .python edited started rfl
  exact ⟨edited, started, rfl, free, accepted free⟩

-- A letter is put behind the text and taken away again: what the first edit ends at is
-- not there any more.
def typedAndErased : List Text.Edit := [.between "y" "" "z", .between "y" "z" ""]

theorem typed_and_erased_refused :
    Edited "y" typedAndErased "y" ∧ justStarted.isStarted = true ∧
    Language.python.hasGrammar = true ∧
    (justStarted.reparse wholeModule (.token "y" 0) "y" typedAndErased .python).2 =
      .error (.invalidEdit (.beyondNewSource 2 1)) := by
  refine ⟨?_, by decide +kernel, rfl, rfl⟩
  exact .replaced (replacement_between "y" "" "" "z")
    (.replaced (replacement_between "y" "z" "" "") .unchanged)

end Session

end CodeEntities
