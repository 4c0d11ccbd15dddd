import CodeEntities.Proofs.Parsing.EditSequence

namespace CodeEntities

structure Exchange where
  op : Operation
  answer : Option (Except Fault Parsed)

namespace Exchange

-- The tree that was made in a language. There is none when the parse failed or was
-- one in another language.
def tree? (x : Exchange) (language : Language) : Option Tree :=
  match x.answer with
  | some (.ok parsed) => if x.op.requests language then some parsed.tree else none
  | _ => none

def latest? (exchanges : List Exchange) (language : Language) : Option Tree :=
  exchanges.reverse.findSome? (·.tree? language)

theorem latest_append (exchanges : List Exchange) (x : Exchange) (l : Language) :
    latest? (exchanges ++ [x]) l = (x.tree? l).or (latest? exchanges l) := by
  unfold latest?
  rw [List.reverse_append, List.reverse_singleton, List.singleton_append, List.findSome?_cons]
  cases x.tree? l <;> rfl

end Exchange

inductive Question where
  | isStarted
  | hasParser (language : Language)
  | status (language : Language)
  | available
  | unavailable
  | lastTree (language : Language)

inductive Request where
  | perform (op : Operation)
  | ask (question : Question)

def Request.operation? : Request → Option Operation
  | perform op => some op
  | ask _ => none

inductive Reply where
  | performed (answer : Option (Except Fault Parsed))
  | flag (value : Bool)
  | grammar (status : Option Grammar)
  | languages (found : List Language)
  | reasons (found : List (Language × String))
  | tree (last : Option Tree)

namespace Session

variable {engine : Engine} {config : ParserConfig} {history : List Operation}
  {s next : Session} {op : Operation} {k l : Language}

def find (s : Session) : Question → Reply
  | .isStarted => .flag s.isStarted
  | .hasParser language => .flag (s.hasParser language)
  | .status language => .grammar (s.status? language)
  | .available => .languages s.availableLanguages
  | .unavailable => .reasons s.unavailableLanguages
  | .lastTree language => .tree (s.lastTree? language)

def serve (engine : Engine) (s : Session) : Request → Session × Reply
  | .perform op => (s.perform engine op).map id .performed
  | .ask question => (s, s.find question)

def served (engine : Engine) (s : Session) (requests : List Request) : Session :=
  requests.foldl (fun s request => (s.serve engine request).1) s

theorem served_eq (engine : Engine) (s : Session) (requests : List Request) :
    s.served engine requests = s.after engine (requests.filterMap (·.operation?)) := by
  induction requests generalizing s with
  | nil => rfl
  | cons request requests ih =>
    cases request with
    | perform op => exact ih (s.perform engine op).1
    | ask question => exact ih s

def transcript (engine : Engine) (s : Session) : List Operation → List Exchange
  | [] => []
  | op :: rest =>
    { op, answer := (s.perform engine op).2 } :: (s.perform engine op).1.transcript engine rest

theorem transcript_append (engine : Engine) (s : Session) (history : List Operation)
    (op : Operation) :
    s.transcript engine (history ++ [op]) = s.transcript engine history ++
      [{ op, answer := ((s.after engine history).perform engine op).2 }] := by
  induction history generalizing s with
  | nil => rfl
  | cons first history ih => exact congrArg _ (ih (s.perform engine first).1)

theorem load_lastTree (unparsed : s.lastTree? l = none) (k : Language) :
    (s.load l).lastTree? k = s.lastTree? k := by
  unfold load
  cases loaded : ParserHandle.load l with
  | error reason => rfl
  | ok handle =>
    by_cases same : k = l
    · subst same
      have fresh : handle = {} := by
        unfold ParserHandle.load at loaded
        split at loaded <;> simp_all
      rw [unparsed]
      simp [lastTree?, fresh]
    · simp [lastTree?, same]

theorem prepare_lastTree (unparsed : s.lastTree? l = none) (k : Language) :
    (s.prepare l).lastTree? k = s.lastTree? k := by
  unfold prepare
  split
  · exact load_lastTree unparsed k
  · rfl

theorem prepareAll_lastTree (ls : List Language) (unparsed : ∀ k, s.lastTree? k = none)
    (k : Language) : (ls.foldl prepare s).lastTree? k = none := by
  induction ls generalizing s with
  | nil => exact unparsed k
  | cons l ls ih =>
    apply ih
    intro k
    rw [prepare_lastTree (unparsed l), unparsed k]

theorem require_lastTree (balanced : s.Balanced) (l k : Language) :
    (s.require l).lastTree? k = s.lastTree? k := by
  unfold require status?
  split
  · rename_i deferred
    have absent : s.handles l = none := by
      have unloaded := mt (balanced l).mp (by simp [deferred])
      simpa using unloaded
    exact load_lastTree (by simp [lastTree?, absent]) k
  · rfl

theorem keep_lastTree (s : Session) (handle : ParserHandle) (tree : Tree) (l k : Language) :
    (s.keep l handle tree).lastTree? k = if k = l then some tree else s.lastTree? k := by
  by_cases same : k = l
  · subst same
    simp [keep, lastTree?]
  · simp [keep, lastTree?, same]

-- A parse makes its tree the last one of its language and changes no other; a parse that
-- fails changes none.
theorem ParseOutcome.lastTree {source : String} {earlier : Option (Tree × List Text.Edit)}
    {answer : Except Fault Parsed} (balanced : s.Balanced) (asks : op.request? = some l)
    (outcome : s.ParseOutcome engine l source earlier (next, answer)) (k : Language) :
    next.lastTree? k = (Exchange.tree? { op, answer := some answer } k).or (s.lastTree? k) := by
  have required := require_lastTree balanced l k
  cases outcome with
  | stopped stopped => rfl
  | unavailable started unhandled => exact required
  | failed started found unparsed => exact required
  | parsed started found made =>
    rw [keep_lastTree, required]
    by_cases same : k = l
    · simp [Exchange.tree?, Operation.requests, asks, same]
    · simp [Exchange.tree?, Operation.requests, asks, same, Ne.symm same]

theorem Reached.start_lastTree (reached : Reached engine config history s) (k : Language) :
    s.start.lastTree? k = s.lastTree? k := by
  cases running : s.isStarted with
  | true => rw [start_started running]
  | false =>
    have unparsed (k : Language) : s.lastTree? k = none := by
      simp [lastTree?, (reached.stopped running).1]
    have prepared := prepareAll_lastTree Language.all unparsed k
    rw [unparsed k]
    unfold start
    rw [if_neg (by simp [running])]
    exact prepared

theorem Reached.perform_lastTree (reached : Reached engine config history s)
    (open' : op ≠ .close) (k : Language) :
    (s.perform engine op).1.lastTree? k =
      (Exchange.tree? { op, answer := (s.perform engine op).2 } k).or (s.lastTree? k) := by
  have performed := perform_performed engine s op
  generalize s.perform engine op = result at performed
  cases performed with
  | started => exact reached.start_lastTree k
  | closed => exact absurd rfl open'
  | refused fault unasked different => rfl
  | parsed asks outcome => exact outcome.lastTree reached.balanced asks k

theorem after_split (engine : Engine) (s : Session) (before since : List Operation) :
    s.after engine (before ++ since) = (s.after engine before).after engine since :=
  List.foldl_append

theorem after_lastTree (before : List Operation) {since : List Operation}
    (open' : .close ∉ since) (k : Language) :
    let s := ({ config } : Session).after engine before
    (s.after engine since).lastTree? k =
      (Exchange.latest? (s.transcript engine since) k).or (s.lastTree? k) := by
  intro s
  induction since using List.reverseRecOn with
  | nil => rfl
  | append_singleton since op ih =>
    rw [List.mem_append, List.mem_singleton, not_or] at open'
    have reached : Reached engine config (before ++ since) (s.after engine since) :=
      after_split engine _ before since ▸ after_reached engine config (before ++ since)
    rw [after_append, reached.perform_lastTree (Ne.symm open'.2), transcript_append,
      Exchange.latest_append, ih open'.1, Option.or_assoc]

theorem perform_status (open' : op ≠ .start ∧ op ≠ .close) (other : op.request? ≠ some k) :
    (s.perform engine op).1.status? k = s.status? k := by
  have performed := perform_performed engine s op
  generalize s.perform engine op = result at performed
  cases performed with
  | started => exact absurd rfl open'.1
  | closed => exact absurd rfl open'.2
  | refused fault unasked different => rfl
  | @parsed _ l _ _ _ _ asks outcome =>
    have different : k ≠ l := fun same => other (same ▸ asks)
    rcases outcome.next with ⟨_, rfl⟩ | ⟨_, _, _, grammars, _⟩
    · rfl
    · simp only [status?, grammars, require_grammars, different, false_and, if_false]

-- After any requests the last tree of a language is the one of the last parse in it that
-- succeeded since the session was last started with effect. A session that is not started
-- has no last tree. What fails, what is asked for in another language and a further start
-- change none of them, and only starting and closing change the grammar of a language
-- without asking for it.
theorem last_tree_is_latest_made (engine : Engine) (config : ParserConfig)
    (requests : List Request) :
    let history := requests.filterMap (·.operation?)
    let s := ({ config } : Session).served engine requests
    (s.isStarted = false → ∀ l, s.lastTree? l = none) ∧
    (s.isStarted = true → s.start = s ∧ ∃ since, Since engine { config } history since) ∧
    (∀ before since, history = before ++ .start :: since →
      (({ config } : Session).after engine before).isStarted = false → .close ∉ since →
      ∀ l, s.lastTree? l = Exchange.latest?
        ((({ config } : Session).after engine (before ++ [.start])).transcript engine since) l) ∧
    (∀ op fault, (s.perform engine op).2 = some (.error fault) →
      ∀ l, (s.perform engine op).1.lastTree? l = s.lastTree? l) ∧
    (∀ op l, op ≠ .close → op.request? ≠ some l →
      (s.perform engine op).1.lastTree? l = s.lastTree? l ∧
      (op ≠ .start → (s.perform engine op).1.status? l = s.status? l)) ∧
    ∀ l, s.close.lastTree? l = none := by
  intro history s
  have same : s = ({ config } : Session).after engine history := served_eq engine _ requests
  have reached : Reached engine config history s := same ▸ after_reached engine config history
  refine ⟨?_, ?_, ?_, ?_, ?_, fun l => rfl⟩
  · intro stopped l
    simp [lastTree?, (reached.stopped stopped).1]
  · intro started
    obtain ⟨since, done, _⟩ := reached.started started
    exact ⟨start_started started, since, done⟩
  · intro before since split stopped open' l
    have unparsed :
        (({ config } : Session).after engine (before ++ [.start])).lastTree? l = none := by
      have earlier := after_reached engine config before
      rw [after_append]
      refine (earlier.start_lastTree l).trans ?_
      simp [lastTree?, (earlier.stopped stopped).1]
    rw [same, split, List.append_cons, after_split, after_lastTree _ open', unparsed,
      Option.or_none]
  · intro op fault failed l
    have open' : op ≠ .close := by
      rintro rfl
      cases failed
    rw [reached.perform_lastTree open', failed]
    rfl
  · intro op l open' other
    refine ⟨?_, fun different => perform_status ⟨different, open'⟩ other⟩
    have unmade : Exchange.tree? { op, answer := (s.perform engine op).2 } l = none := by
      unfold Exchange.tree?
      split
      · simp [Operation.requests, other]
      · rfl
    rw [reached.perform_lastTree open', unmade, Option.none_or]

-- A second parse in one language, one in another, one of a file without a name and an edit
-- beyond its source, with questions between them.
def busySince : List Operation :=
  [.parse .python "y", .parse .python "xyz", .parse .go "z", .parseFile "" "z",
    .reparse (.token "" 0) "" [.between "" "" "x"] .python]

def busyRequests : List Request :=
  [.perform (.parse .python "early"), .perform .start, .ask (.status .go)] ++
    busySince.map .perform ++ [.ask (.lastTree .python), .ask .available]

theorem second_python_tree_is_last :
    let s := pythonFirst.served wholeModule busyRequests
    s.isStarted = true ∧ s.start = s ∧
    s.lastTree? .python = some (.whole "module" 0 3 none []) ∧
    s.lastTree? .go = some (.whole "module" 0 1 none []) ∧ s.lastTree? .rust = none ∧
    (s.perform wholeModule (.parseFile "" "x")).1.lastTree? .go = s.lastTree? .go ∧
    (s.perform wholeModule (.parse .go "x")).1.lastTree? .python = s.lastTree? .python ∧
    s.close.lastTree? .python = none := by
  obtain ⟨_, running, latest, failed, frame, closed⟩ :=
    last_tree_is_latest_made wholeModule { languages := some [.python] } busyRequests
  have started : (pythonFirst.served wholeModule busyRequests).isStarted = true := by
    decide +kernel
  have last := latest [.parse .python "early"] busySince rfl (by decide +kernel)
    (by simp [busySince])
  refine ⟨started, (running started).1, last .python, last .go, last .rust, ?_, ?_, closed .python⟩
  · exact failed (.parseFile "" "x") (.unsupportedLanguage "") rfl .go
  · exact (frame (.parse .go "x") .python nofun (by decide)).1

end Session

end CodeEntities
