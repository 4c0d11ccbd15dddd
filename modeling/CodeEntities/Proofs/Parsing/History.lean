import CodeEntities.Proofs.Parsing.Session
import CodeEntities.Proofs.Text.Edit
import Mathlib.Data.List.Induction

namespace CodeEntities

inductive Operation where
  | start
  | close
  | parse (language : Language) (source : String)
  | parseFile (path source : String)
  | reparse (earlier : Tree) (source : String) (edits : List Text.Edit) (language : Language)

namespace Operation

-- The language whose parser an operation asks for. A file of no known language and an
-- edit beyond the new source are refused before.
def request? : Operation → Option Language
  | start | close => none
  | parse language _ => some language
  | parseFile path _ => Language.ofPath? path
  | reparse _ source edits language =>
    if Session.EndsWithin edits source then some language else none

def requests (language : Language) (op : Operation) : Bool := op.request? == some language

end Operation

namespace Session

def perform (engine : Engine) (s : Session) : Operation → Session × Option (Except Fault Parsed)
  | .start => (s.start, none)
  | .close => (s.close, none)
  | .parse language source => (s.parse engine language source).map id some
  | .parseFile path source => (s.parseFile engine path source).map id some
  | .reparse earlier source edits language =>
    (s.reparse engine earlier source edits language).map id some

def after (engine : Engine) (s : Session) (history : List Operation) : Session :=
  history.foldl (fun s op => (s.perform engine op).1) s

-- Rules for an operation, with the session that it leaves and the answer.
inductive Performed (engine : Engine) (s : Session) :
    Operation → Session × Option (Except Fault Parsed) → Prop where
  | started : Performed engine s .start (s.start, none)
  | closed : Performed engine s .close (s.close, none)
  | refused {op} (fault : Fault) (unasked : op.request? = none)
      (different : op ≠ .start ∧ op ≠ .close) :
      Performed engine s op (s, some (.error fault))
  | parsed {op l source earlier next answer} (asks : op.request? = some l)
      (outcome : s.ParseOutcome engine l source earlier (next, answer)) :
      Performed engine s op (next, some answer)

theorem performed_parseWith {op : Operation} {l : Language} (engine : Engine) (s : Session)
    (source : String) (earlier : Option (Tree × List Text.Edit)) (asks : op.request? = some l) :
    Performed engine s op ((s.parseWith engine l source earlier).map id some) :=
  .parsed asks (parseWith_outcome s engine l source earlier)

theorem perform_performed (engine : Engine) (s : Session) (op : Operation) :
    Performed engine s op (s.perform engine op) := by
  cases op with
  | start => exact .started
  | close => exact .closed
  | parse language source => exact performed_parseWith engine s source none rfl
  | parseFile path source =>
    rw [perform]
    cases known : Language.ofPath? path with
    | some language =>
      rw [parseFile_known known]
      exact performed_parseWith engine s source none known
    | none =>
      rw [parseFile_unknown known]
      exact .refused _ known ⟨nofun, nofun⟩
  | reparse earlier source edits language =>
    rw [perform]
    by_cases within : EndsWithin edits source
    · rw [reparse_within within]
      exact performed_parseWith engine s source _ (if_pos within)
    · obtain ⟨_, e, _, _, _, _, refused⟩ := reparse_beyond within s engine earlier language
      rw [refused]
      exact .refused _ (if_neg within) ⟨nofun, nofun⟩

-- A parse by a session that is not started changes nothing, any other parse the
-- grammar it asks for and the last tree.
theorem ParseOutcome.next {s next : Session} {engine : Engine} {l : Language} {source : String}
    {earlier : Option (Tree × List Text.Edit)} {answer : Except Fault Parsed}
    (outcome : s.ParseOutcome engine l source earlier (next, answer)) :
    s.isStarted = false ∧ next = s ∨
      s.isStarted = true ∧ next.isStarted = true ∧ next.config = s.config ∧
        next.grammars = (s.require l).grammars ∧ (s.Balanced → next.Balanced) := by
  obtain ⟨config, running⟩ := require_rest s l
  cases outcome with
  | stopped stopped => exact .inl ⟨stopped, rfl⟩
  | unavailable started unhandled =>
    exact .inr ⟨started, running.trans started, config, rfl, fun b => require_balanced b l⟩
  | failed started found unparsed =>
    exact .inr ⟨started, running.trans started, config, rfl, fun b => require_balanced b l⟩
  | parsed started found made =>
    exact .inr ⟨started, running.trans started, config, rfl,
      fun b => keep_balanced (require_balanced b l) found⟩

def grammarSince (c : ParserConfig) (since : List Operation) (l : Language) : Grammar :=
  if c.loadsEagerly l || since.any (·.requests l) then .settled l else .deferred

theorem grammarSince_append (c : ParserConfig) (since : List Operation) (op : Operation)
    (l : Language) :
    grammarSince c (since ++ [op]) l =
      if op.requests l = true ∧ grammarSince c since l = .deferred then .settled l
      else grammarSince c since l := by
  have settled := Grammar.settled_ne_deferred l
  unfold grammarSince
  rw [List.any_append, ← Bool.or_assoc]
  cases c.loadsEagerly l || since.any (·.requests l) with
  | true => simp [settled]
  | false => cases asks : op.requests l <;> simp [asks]

theorem grammarSince_deferred {c : ParserConfig} {since : List Operation} {l : Language} :
    grammarSince c since l = .deferred ↔
      c.loadsEagerly l = false ∧ ∀ op ∈ since, op.request? ≠ some l := by
  have settled := Grammar.settled_ne_deferred l
  unfold grammarSince
  cases eager : c.loadsEagerly l with
  | true => simp [settled]
  | false =>
    cases asked : since.any (·.requests l) with
    | true => simpa [settled, Operation.requests] using asked
    | false => simpa [Operation.requests] using asked

section Reached

variable {engine : Engine} {fresh : Session} {config : ParserConfig}
  {history since : List Operation}

-- What has been done with a session since its last start that was of effect.
def Since (engine : Engine) (fresh : Session) (history since : List Operation) : Prop :=
  ∃ before, history = before ++ .start :: since ∧
    (fresh.after engine before).isStarted = false ∧ .close ∉ since

theorem after_append (engine : Engine) (s : Session) (history : List Operation) (op : Operation) :
    s.after engine (history ++ [op]) = ((s.after engine history).perform engine op).1 := by
  unfold after
  rw [List.foldl_append]
  rfl

theorem Since.append {op : Operation} (done : Since engine fresh history since)
    (open' : op ≠ .close) : Since engine fresh (history ++ [op]) (since ++ [op]) := by
  obtain ⟨before, rfl, stopped, kept⟩ := done
  refine ⟨before, by simp, stopped, ?_⟩
  simpa [kept] using open'.symm

theorem perform_running {op : Operation} (s : Session) (different : op ≠ .start ∧ op ≠ .close) :
    (s.perform engine op).1.isStarted = s.isStarted := by
  have performed := perform_performed engine s op
  generalize s.perform engine op = result at performed
  cases performed with
  | started => exact absurd rfl different.1
  | closed => exact absurd rfl different.2
  | refused fault unasked different => rfl
  | parsed asks outcome =>
    rcases outcome.next with ⟨_, rfl⟩ | ⟨started, running, _⟩
    · rfl
    · exact running.trans started.symm

theorem perform_isStarted {s : Session} {op : Operation} (started : s.isStarted = true)
    (open' : op ≠ .close) : (s.perform engine op).1.isStarted = true := by
  by_cases starts : op = .start
  · subst starts
    exact start_isStarted s
  · rw [perform_running s ⟨starts, open'⟩, started]

theorem after_isStarted {s : Session} (started : s.isStarted = true) (open' : .close ∉ since) :
    (s.after engine since).isStarted = true := by
  induction since using List.reverseRecOn with
  | nil => exact started
  | append_singleton since op ih =>
    rw [List.mem_append, List.mem_singleton, not_or] at open'
    rw [after_append]
    exact perform_isStarted (ih open'.1) (Ne.symm open'.2)

theorem close_before_start {before more : List Operation}
    (stopped : (fresh.after engine (before ++ .start :: more)).isStarted = false) :
    .close ∈ more := by
  by_contra open'
  have split : fresh.after engine (before ++ .start :: more) =
      (fresh.after engine before).start.after engine more := List.foldl_append
  rw [split, after_isStarted (start_isStarted _) open'] at stopped
  cases stopped

theorem last_start_unique {before more since' : List Operation}
    (stopped : (fresh.after engine (before ++ more)).isStarted = false) (open' : .close ∉ since)
    (same : .start :: since = more ++ .start :: since') : since = since' := by
  cases more with
  | nil => exact (List.cons.inj same).2
  | cons op more =>
    obtain ⟨rfl, rfl⟩ := List.cons.inj same
    exact absurd (List.mem_append_left _ (close_before_start stopped)) open'

theorem Since.unique {since' : List Operation} (done : Since engine fresh history since)
    (done' : Since engine fresh history since') : since = since' := by
  obtain ⟨before, rfl, stopped, open'⟩ := done
  obtain ⟨before', same, stopped', open''⟩ := done'
  rcases List.append_eq_append_iff.mp same with ⟨more, rfl, behind⟩ | ⟨more, rfl, behind⟩
  · exact last_start_unique stopped' open' behind
  · exact (last_start_unique stopped open'' behind).symm

-- What holds of a session after any operations, the first of which finds it new.
structure Reached (engine : Engine) (config : ParserConfig) (history : List Operation)
    (s : Session) : Prop where
  configured : s.config = config
  balanced : s.Balanced
  stopped : s.isStarted = false → s.handles = .empty ∧ s.grammars = .empty
  started : s.isStarted = true → ∃ since, Since engine { config } history since ∧
    ∀ l, s.grammars l = some (grammarSince config since l)

theorem new_reached (engine : Engine) (config : ParserConfig) :
    Reached engine config [] { config } :=
  ⟨rfl, fun _ => by simp, fun _ => ⟨rfl, rfl⟩, nofun⟩

theorem unchanged_reached {s : Session} {op : Operation}
    (reached : Reached engine config history s) (open' : op ≠ .close)
    (unasked : s.isStarted = true → op.request? = none) :
    Reached engine config (history ++ [op]) s := by
  refine ⟨reached.configured, reached.balanced, reached.stopped, fun running => ?_⟩
  obtain ⟨since, done, grammars⟩ := reached.started running
  refine ⟨since ++ [op], done.append open', fun l => ?_⟩
  rw [grammars l, grammarSince_append, if_neg (by simp [Operation.requests, unasked running])]

theorem start_reached {s : Session} (same : s = ({ config } : Session).after engine history)
    (reached : Reached engine config history s) :
    Reached engine config (history ++ [.start]) s.start := by
  cases running : s.isStarted with
  | true =>
    rw [start_started running]
    exact unchanged_reached reached nofun fun _ => rfl
  | false =>
    obtain ⟨_, empty⟩ := reached.stopped running
    refine ⟨(start_config s).trans reached.configured,
      start_balanced running empty reached.balanced, ?_, fun _ => ?_⟩
    · rw [start_isStarted]
      exact nofun
    · refine ⟨[], ⟨history, rfl, same ▸ running, List.not_mem_nil⟩, fun l => ?_⟩
      rw [start_grammars running, reached.configured]
      simp [grammarSince, ParserConfig.initialGrammar]

theorem parse_reached {s next : Session} {op : Operation} {asked : Language} {source : String}
    {earlier : Option (Tree × List Text.Edit)} {answer : Except Fault Parsed}
    (reached : Reached engine config history s) (asks : op.request? = some asked)
    (outcome : s.ParseOutcome engine asked source earlier (next, answer)) :
    Reached engine config (history ++ [op]) next := by
  have open' : op ≠ .close := by
    rintro rfl
    cases asks
  rcases outcome.next with ⟨stopped, rfl⟩ | ⟨started, running, config', changed, balanced⟩
  · refine unchanged_reached reached open' fun running => ?_
    rw [stopped] at running
    cases running
  · refine ⟨config'.trans reached.configured, balanced reached.balanced, ?_, fun _ => ?_⟩
    · rw [running]
      exact nofun
    · obtain ⟨since, done, grammars⟩ := reached.started started
      refine ⟨since ++ [op], done.append open', fun l => ?_⟩
      have asks : op.requests l = true ↔ l = asked := by
        simp only [Operation.requests, asks, beq_iff_eq, Option.some.injEq]
        exact eq_comm
      rw [changed, require_grammars, grammarSince_append, grammars l]
      simp only [asks, Option.some.injEq]
      split <;> rfl

theorem perform_reached {s : Session} (same : s = ({ config } : Session).after engine history)
    (reached : Reached engine config history s) (op : Operation) :
    Reached engine config (history ++ [op]) (s.perform engine op).1 := by
  have performed := perform_performed engine s op
  generalize s.perform engine op = result at performed
  cases performed with
  | started => exact start_reached same reached
  | closed => exact ⟨reached.configured, fun _ => by simp [close], fun _ => ⟨rfl, rfl⟩, nofun⟩
  | refused fault unasked different => exact unchanged_reached reached different.2 fun _ => unasked
  | parsed asks outcome => exact parse_reached reached asks outcome

theorem after_reached (engine : Engine) (config : ParserConfig) (history : List Operation) :
    Reached engine config history (({ config } : Session).after engine history) := by
  -- By the last operation, as the invariant looks back from it to the start of effect.
  induction history using List.reverseRecOn with
  | nil => exact new_reached engine config
  | append_singleton history op ih =>
    rw [after_append]
    exact perform_reached rfl ih op

-- A started session has settled a grammar when it is asked for the parser.
theorem Reached.required {s : Session} (reached : Reached engine config history s)
    (started : s.isStarted = true) (l : Language) :
    (s.require l).grammars l = some (.settled l) := by
  obtain ⟨since, _, grammars⟩ := reached.started started
  rw [require_grammars, grammars l]
  unfold grammarSince
  split <;> simp

theorem Reached.handle_iff {s : Session} {l : Language} (reached : Reached engine config history s)
    (started : s.isStarted = true) :
    ((s.require l).handles l).isSome ↔ l.hasGrammar = true := by
  rw [require_balanced reached.balanced l l, reached.required started l, Option.some.injEq]
  exact Grammar.settled_loaded

theorem Reached.handle {s : Session} {l : Language} (reached : Reached engine config history s)
    (started : s.isStarted = true) (loadable : l.hasGrammar = true) :
    ∃ handle, (s.require l).handles l = some handle :=
  Option.isSome_iff_exists.mp ((reached.handle_iff started).mpr loadable)

theorem refusal_changes_nothing {s : Session} {op : Operation} {fault : Fault}
    (answered : (s.perform engine op).2 = some (.error fault))
    (refused : fault = .notStarted ∨ ∃ edit, fault = .invalidEdit edit) :
    (s.perform engine op).1 = s := by
  have performed := perform_performed engine s op
  generalize s.perform engine op = result at performed answered
  cases performed with
  | started => cases answered
  | closed => cases answered
  | refused fault unasked different => rfl
  | parsed asks outcome =>
    cases outcome with
    | stopped stopped => rfl
    | unavailable started unhandled =>
      cases answered
      simp at refused
    | failed started found unparsed =>
      cases answered
      simp at refused
    | parsed started found made => cases answered

-- After any operations the parsers of a session are those of the loaded grammars, a
-- session that is not started has nothing, and one that is started knows every language.
-- Of these it defers the ones that wait for their first use and have not been asked for.
theorem session_keeps_books (engine : Engine) (config : ParserConfig)
    (history : List Operation) :
    let s := ({ config } : Session).after engine history
    (∀ l, (s.handles l).isSome ↔ s.status? l = some .loaded) ∧
    (s.isStarted = false → ∀ l, s.handles l = none ∧ s.status? l = none) ∧
    (s.isStarted = true → s.start = s ∧ (∃ since, Since engine { config } history since) ∧
      ∀ since, Since engine { config } history since → ∀ l, (s.status? l).isSome ∧
        (s.status? l = some .deferred ↔
          config.loadsEagerly l = false ∧ ∀ op ∈ since, op.request? ≠ some l)) ∧
    ∀ op fault, (s.perform engine op).2 = some (.error fault) →
      (fault = .notStarted ∨ ∃ edit, fault = .invalidEdit edit) →
      (s.perform engine op).1 = s := by
  intro s
  have reached : Reached engine config history s := after_reached engine config history
  refine ⟨reached.balanced, ?_, ?_, ?_⟩
  · intro stopped l
    obtain ⟨handles, grammars⟩ := reached.stopped stopped
    simp [handles, status?, grammars]
  · intro started
    obtain ⟨since, done, grammars⟩ := reached.started started
    refine ⟨start_started started, ⟨since, done⟩, fun since' done' l => ?_⟩
    obtain rfl := done.unique done'
    simp only [status?, grammars l, Option.isSome_some, Option.some.injEq, true_and]
    exact grammarSince_deferred
  · intro op fault answered refused
    exact refusal_changes_nothing answered refused

def idle : Engine := fun _ _ _ => none

def pythonFirst : Session := { config := { languages := some [.python] } }

-- One language is asked for after the start and one with an edit beyond its source.
def goAndLua : List Operation :=
  [.parse .go "", .reparse (.token "" 0) "" [.between "" "" "x"] .lua]

def rustFirst : List Operation := .parse .rust "" :: .start :: goAndLua

theorem first_use_settles_grammar :
    let s := pythonFirst.after idle rustFirst
    s.isStarted = true ∧ s.start = s ∧ Since idle pythonFirst rustFirst goAndLua ∧
    s.status? .python = some .loaded ∧ s.status? .go = some .loaded ∧
    s.status? .rust = some .deferred ∧ s.status? .lua = some .deferred ∧
    ((s.handles .go).isSome ↔ s.status? .go = some .loaded) := by
  obtain ⟨handled, _, started, _⟩ :=
    session_keeps_books idle { languages := some [.python] } rustFirst
  have running : (pythonFirst.after idle rustFirst).isStarted = true := by decide +kernel
  have done : Since idle pythonFirst rustFirst goAndLua :=
    ⟨[.parse .rust ""], rfl, by decide +kernel, by simp [goAndLua]⟩
  obtain ⟨again, _, known⟩ := started running
  refine ⟨running, again, done, ?_, ?_, ?_, ?_, handled .go⟩
  · decide +kernel
  · decide +kernel
  · exact (known goAndLua done .rust).2.mpr (by decide +kernel)
  · exact (known goAndLua done .lua).2.mpr (by decide +kernel)

end Reached

end Session

end CodeEntities
