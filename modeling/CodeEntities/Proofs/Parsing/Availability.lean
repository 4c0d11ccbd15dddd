import CodeEntities.Proofs.Parsing.LastTree

namespace CodeEntities

namespace Session

def directAnswer (engine : Engine) (language : Language) (source : String)
    (earlier : Option (Tree × List Text.Edit)) : Except Fault Parsed :=
  if language.hasGrammar then
    match engine language source earlier with
    | some tree => .ok { tree, source, language }
    | none => .error (.parseFailure language)
  else .error (.parserUnavailable language)

variable {engine : Engine} {c c' : ParserConfig} {history history' : List Operation}
  {s t : Session} {l : Language} {op : Operation} {source : String}
  {earlier : Option (Tree × List Text.Edit)}

theorem parseWith_stopped (stopped : s.isStarted = false) :
    (s.parseWith engine l source earlier).2 = .error .notStarted := by
  have outcome := parseWith_outcome s engine l source earlier
  generalize s.parseWith engine l source earlier = result at outcome
  cases outcome with
  | stopped _ => rfl
  | unavailable started _ => simp [stopped] at started
  | failed started _ _ => simp [stopped] at started
  | parsed started _ _ => simp [stopped] at started

theorem Reached.parseWith_direct (reached : Reached engine c history s)
    (started : s.isStarted = true) :
    (s.parseWith engine l source earlier).2 = directAnswer engine l source earlier := by
  unfold directAnswer
  by_cases loadable : l.hasGrammar = true
  · obtain ⟨handle, found⟩ := reached.handle started loadable
    rw [if_pos loadable]
    exact parseWith_answer started found engine source earlier
  · have absent := mt (reached.handle_iff started).mp loadable
    have outcome := parseWith_outcome s engine l source earlier
    generalize s.parseWith engine l source earlier = result at outcome
    rw [if_neg loadable]
    cases outcome with
    | stopped stopped => simp [stopped] at started
    | unavailable _ _ => rfl
    | failed _ found _ => simp [found] at absent
    | parsed _ found _ => simp [found] at absent

-- Two sessions that nobody can tell apart by parsing.
structure Alike (s t : Session) : Prop where
  isStarted : s.isStarted = t.isStarted
  lastTree : ∀ l, s.lastTree? l = t.lastTree? l

theorem Alike.parseWith (alike : Alike s t) (reached : Reached engine c history s)
    (reached' : Reached engine c' history' t) (l : Language) (source : String)
    (earlier : Option (Tree × List Text.Edit)) :
    (s.parseWith engine l source earlier).2 = (t.parseWith engine l source earlier).2 := by
  cases running : t.isStarted with
  | false =>
    have stopped := alike.isStarted.trans running
    rw [parseWith_stopped stopped, parseWith_stopped running]
  | true =>
    have started := alike.isStarted.trans running
    rw [reached.parseWith_direct started, reached'.parseWith_direct running]

theorem Alike.answer (alike : Alike s t) (reached : Reached engine c history s)
    (reached' : Reached engine c' history' t) (op : Operation) :
    (s.perform engine op).2 = (t.perform engine op).2 := by
  have same := alike.parseWith reached reached'
  cases op with
  | start => rfl
  | close => rfl
  | parse language source => exact congrArg some (same language source none)
  | parseFile path source =>
    cases known : Language.ofPath? path with
    | some language =>
      simp only [perform, parseFile_known known]
      exact congrArg some (same language source none)
    | none => simp only [perform, parseFile_unknown known, Prod.map_snd]
  | reparse earlier source edits language =>
    simp only [perform, reparse]
    split
    · rfl
    · exact congrArg some (same language source (some (earlier, edits)))

theorem Alike.perform (alike : Alike s t) (reached : Reached engine c history s)
    (reached' : Reached engine c' history' t) (op : Operation) :
    Alike (s.perform engine op).1 (t.perform engine op).1 := by
  by_cases closes : op = .close
  · subst closes
    exact ⟨rfl, fun l => rfl⟩
  · refine ⟨?_, fun l => ?_⟩
    · by_cases starts : op = .start
      · subst starts
        exact (start_isStarted s).trans (start_isStarted t).symm
      · rw [perform_running s ⟨starts, closes⟩, perform_running t ⟨starts, closes⟩,
          alike.isStarted]
    · rw [reached.perform_lastTree closes, reached'.perform_lastTree closes,
        alike.answer reached reached', alike.lastTree l]

theorem after_alike (engine : Engine) (c c' : ParserConfig) (history : List Operation) :
    Alike (({ config := c } : Session).after engine history)
      (({ config := c' } : Session).after engine history) := by
  induction history using List.reverseRecOn with
  | nil => exact ⟨rfl, fun l => rfl⟩
  | append_singleton history op ih =>
    rw [after_append, after_append]
    exact ih.perform (after_reached engine c history) (after_reached engine c' history) op

-- Which grammars are loaded at once shows in no answer to a parse and in no last tree: of
-- the same operations two sessions, however configured, keep the same transcript, and they
-- are alike after each operation.
theorem loading_is_unobservable (engine : Engine) (c c' : ParserConfig)
    (history : List Operation) :
    ({ config := c } : Session).transcript engine history =
      ({ config := c' } : Session).transcript engine history ∧
    ∀ n, Alike (({ config := c } : Session).after engine (history.take n))
      (({ config := c' } : Session).after engine (history.take n)) := by
  refine ⟨?_, fun n => after_alike engine c c' (history.take n)⟩
  induction history using List.reverseRecOn with
  | nil => rfl
  | append_singleton history op ih =>
    have answer := (after_alike engine c c' history).answer
      (after_reached engine c history) (after_reached engine c' history) op
    rw [transcript_append, transcript_append, ih, answer]

def Denied (answer : Except Fault Parsed) : Prop :=
  answer = .error .notStarted ∨ ∃ language, answer = .error (.parserUnavailable language)

theorem Reached.hasParser_iff (reached : Reached engine c history s)
    (started : s.isStarted = true) :
    s.hasParser l = true ↔ s.status? l = some .deferred ∨ l.hasGrammar = true := by
  obtain ⟨since, _, grammars⟩ := reached.started started
  have usable : (Grammar.settled l).isUsable = true ↔ l.hasGrammar = true := by
    unfold Grammar.settled ParserHandle.load
    cases l.hasGrammar <;> simp [Grammar.isUsable]
  have settled := Grammar.settled_ne_deferred l
  simp only [hasParser, status?, grammars l, Option.any_some, Option.some.injEq]
  unfold grammarSince
  split
  · simp [usable, settled]
  · simp [Grammar.isUsable]

theorem Reached.denied_iff (reached : Reached engine c history s) :
    Denied (s.parse engine l source).2 ↔ s.isStarted = false ∨ l.hasGrammar = false := by
  unfold parse
  cases running : s.isStarted with
  | false => simp [Denied, parseWith_stopped running]
  | true =>
    rw [reached.parseWith_direct running]
    unfold directAnswer
    cases loadable : l.hasGrammar with
    | false => simp [Denied]
    | true => cases engine l source none <;> simp [Denied]

-- What a session says of its parsers is what a parse then shows, except for a language
-- that waits for its first use and has no grammar: that one is promised in vain. No parser
-- is ever denied that there is.
theorem has_parser_truthful_iff (engine : Engine) (config : ParserConfig)
    (history : List Operation) (l : Language) (source : String) :
    let s := ({ config } : Session).after engine history
    ((s.hasParser l = true ↔ ¬ Denied (s.parse engine l source).2) ↔
      ¬ (s.status? l = some .deferred ∧ l.hasGrammar = false)) ∧
    (s.hasParser l = false → Denied (s.parse engine l source).2) := by
  intro s
  have reached : Reached engine config history s := after_reached engine config history
  rw [reached.denied_iff]
  cases running : s.isStarted with
  | false => simp [hasParser, status?, (reached.stopped running).2]
  | true =>
    rw [← Bool.not_eq_true (s.hasParser l), reached.hasParser_iff running]
    by_cases deferred : s.status? l = some .deferred <;> cases l.hasGrammar <;> simp [deferred]

theorem deferred_go_promised_truly :
    let s := pythonFirst.after wholeModule [.start]
    s.status? .go = some .deferred ∧ Language.go.hasGrammar = true ∧
    s.hasParser .go = true ∧ ¬ Denied (s.parse wholeModule .go "x").2 := by
  obtain ⟨truthful, _⟩ :=
    has_parser_truthful_iff wholeModule { languages := some [.python] } [.start] .go "x"
  have promised : (pythonFirst.after wholeModule [.start]).hasParser .go = true := by decide +kernel
  have loadable : Language.go.hasGrammar = true := rfl
  exact ⟨by decide +kernel, loadable, promised, (truthful.mpr (by simp [loadable])).mp promised⟩

-- Python is loaded at once, everything else waits, also what can never be loaded.
theorem deferred_dart_promised_in_vain :
    let s := pythonFirst.after idle [.start]
    s.status? .dart = some .deferred ∧ Language.dart.hasGrammar = false ∧
    s.hasParser .dart = true ∧
    (s.parse idle .dart "").2 = .error (.parserUnavailable .dart) ∧
    ¬ (s.hasParser .dart = true ↔ ¬ Denied (s.parse idle .dart "").2) := by
  have denied : ((pythonFirst.after idle [.start]).parse idle .dart "").2 =
      .error (.parserUnavailable .dart) := rfl
  refine ⟨by decide +kernel, rfl, by decide +kernel, denied, ?_⟩
  intro truthful
  exact truthful.mp (by decide +kernel) (.inr ⟨.dart, denied⟩)

end Session

end CodeEntities
