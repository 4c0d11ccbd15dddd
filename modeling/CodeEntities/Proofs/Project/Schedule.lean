import CodeEntities.Proofs.Parsing.Availability
import CodeEntities.Proofs.Project.Report

namespace CodeEntities

namespace Analyzer

variable {a : Analyzer} {s : Session} {files : List (String × Language)}

def alone (a : Analyzer) (file : String × Language) : FileOutcome := (a.outcome a.session file).2

def shownPaths (files : List (String × Language)) : List String :=
  files.map fun file => Path.display file.1

def settle (a : Analyzer) (path : String) : Except Fault Parsed → FileOutcome
  | .ok parsed => .analyzed (.ofParsed a.config.options (Path.display path) parsed)
  | .error fault => .failed { path := Path.display path, error := fault.message }

theorem settle_path (a : Analyzer) (path : String) (answer : Except Fault Parsed) :
    (a.settle path answer).path = Path.display path := by
  cases answer <;> rfl

theorem outcome_unread {file : String × Language} {fault : FileFault}
    (unread : a.directory.read file.1 = .error fault) :
    a.outcome s file = (s, a.settle file.1 (.error (.io fault.message))) := by
  simp only [outcome, analyzeFile, unread, settle]

theorem outcome_read {file : String × Language} {source : String}
    (read : a.directory.read file.1 = .ok source) :
    a.outcome s file = (s.parse a.engine file.2 source).map id (a.settle file.1) := by
  simp only [outcome, analyzeFile, read, Session.analyze]
  rcases s.parse a.engine file.2 source with ⟨next, _ | parsed⟩ <;> rfl

theorem outcome_path (a : Analyzer) (s : Session) (file : String × Language) :
    (a.outcome s file).2.path = Path.display file.1 := by
  cases read : a.directory.read file.1 with
  | error fault => rw [outcome_unread read, settle_path]
  | ok source => rw [outcome_read read, Prod.map_snd, settle_path]

theorem alone_paths (a : Analyzer) (files : List (String × Language)) :
    (files.map a.alone).map (·.path) = shownPaths files := by
  simp [shownPaths, alone, outcome_path]

-- A session of a worker, whatever files it has analyzed so far.
def Ready (a : Analyzer) (s : Session) : Prop :=
  s.isStarted = true ∧ ∃ history, Session.Reached a.engine a.config.parser history s

theorem session_ready (a : Analyzer) : a.Ready a.session :=
  ⟨Session.start_isStarted _, [.start], Session.after_reached a.engine a.config.parser [.start]⟩

theorem Ready.parse (ready : a.Ready s) (l : Language) (source : String) :
    a.Ready (s.parse a.engine l source).1 ∧
      (s.parse a.engine l source).2 = Session.directAnswer a.engine l source none := by
  obtain ⟨started, history, reached⟩ := ready
  refine ⟨⟨?_, history ++ [.parse l source], ?_⟩, reached.parseWith_direct started⟩
  · have running : (s.perform a.engine (.parse l source)).1.isStarted = s.isStarted :=
      Session.perform_running s ⟨nofun, nofun⟩
    exact running.trans started
  · exact Session.parse_reached reached rfl (Session.parseWith_outcome s a.engine l source none)

-- The files that a worker has seen before have no influence on the next one.
theorem Ready.outcome (ready : a.Ready s) (file : String × Language) :
    a.Ready (a.outcome s file).1 ∧ (a.outcome s file).2 = a.alone file := by
  unfold alone
  cases read : a.directory.read file.1 with
  | error fault =>
    rw [outcome_unread read, outcome_unread read]
    exact ⟨ready, rfl⟩
  | ok source =>
    obtain ⟨next, answer⟩ := ready.parse file.2 source
    obtain ⟨_, fresh⟩ := (session_ready a).parse file.2 source
    rw [outcome_read read, outcome_read read, Prod.map_snd, Prod.map_snd, answer, fresh]
    exact ⟨next, rfl⟩

-- What a report owes to some files: each of them once, everything by path, and what
-- becomes of each file alone.
structure Reports (a : Analyzer) (files : List (String × Language)) (r : BatchReport) : Prop where
  once : (r.analyses.map (·.path) ++ r.failures.map (·.path)).Perm (shownPaths files)
  analysesByPath : r.analyses.Pairwise fun x y => x.path < y.path
  failuresByPath : r.failures.Pairwise fun x y => x.path < y.path
  analyses : ∀ x, x ∈ r.analyses ↔ ∃ file ∈ files, a.alone file = .analyzed x
  failures : ∀ x, x ∈ r.failures ↔ ∃ file ∈ files, a.alone file = .failed x

theorem alone_reports (distinct : (shownPaths files).Nodup) :
    a.Reports files (.ofOutcomes (files.map a.alone)) := by
  rw [← alone_paths a] at distinct
  obtain ⟨analyses, failures⟩ := BatchReport.ofOutcomes_strict distinct
  refine ⟨?_, analyses, failures, fun x => ?_, fun x => ?_⟩
  · exact alone_paths a files ▸ BatchReport.ofOutcomes_paths_perm (files.map a.alone)
  · rw [BatchReport.mem_ofOutcomes_analyses, List.mem_map]
  · rw [BatchReport.mem_ofOutcomes_failures, List.mem_map]

end Analyzer

namespace Batch

variable {a : Analyzer} {b next : Batch} {action : WorkerAction}
  {files : List (String × Language)} {actions : List WorkerAction}

-- A worker that holds nothing can take a file while there is one, a worker that holds an outcome
-- can deliver it.
def canAct (b : Batch) : WorkerAction → Bool
  | .take i => !b.pending.isEmpty && b.workers[i]?.any (·.held.isNone)
  | .deliver i => b.workers[i]?.any (·.held.isSome)

def isFeasible (a : Analyzer) (b : Batch) : List WorkerAction → Bool
  | [] => true
  | action :: rest => b.canAct action && (b.apply a action).isFeasible a rest

inductive Acted (a : Analyzer) : Batch → WorkerAction → Batch → Prop where
  | taken {file pending before session behind outcomes} :
      Acted a
        { pending := file :: pending, workers := before ++ { session } :: behind, outcomes }
        (.take before.length)
        { pending
          workers := before ++ { session := (a.outcome session file).1,
                                 held := some (a.outcome session file).2 } :: behind
          outcomes }
  | delivered {pending before session outcome behind outcomes} :
      Acted a
        { pending, workers := before ++ { session, held := some outcome } :: behind, outcomes }
        (.deliver before.length)
        { pending, workers := before ++ { session } :: behind, outcomes := outcomes ++ [outcome] }

theorem worker_between {workers : List Worker} {i : Nat} {w : Worker}
    (found : workers[i]? = some w) :
    ∃ before behind, workers = before ++ w :: behind ∧ before.length = i := by
  obtain ⟨inside, rfl⟩ := List.getElem?_eq_some_iff.mp found
  refine ⟨workers.take i, workers.drop (i + 1), ?_, by simp; omega⟩
  rw [← List.drop_eq_getElem_cons inside, List.take_append_drop]

theorem apply_acted (possible : b.canAct action = true) : Acted a b action (b.apply a action) := by
  obtain ⟨pending, workers, outcomes⟩ := b
  cases action with
  | take i =>
    simp only [canAct, Bool.and_eq_true, Bool.not_eq_true', Option.any_eq_true] at possible
    obtain ⟨more, ⟨session, held⟩, found, free⟩ := possible
    obtain ⟨before, behind, rfl, rfl⟩ := worker_between found
    cases pending with
    | nil => simp at more
    | cons file pending =>
      cases held with
      | some outcome => simp at free
      | none => simpa [apply, take] using Acted.taken
  | deliver i =>
    simp only [canAct, Option.any_eq_true] at possible
    obtain ⟨⟨session, held⟩, found, holds⟩ := possible
    obtain ⟨before, behind, rfl, rfl⟩ := worker_between found
    cases held with
    | none => simp at holds
    | some outcome => simpa [apply, deliver] using Acted.delivered

def held (b : Batch) : List FileOutcome := b.workers.filterMap (·.held)

-- What holds after any actions: each file is still pending, or its outcome is in the hands
-- of a worker or has come in.
structure Sound (a : Analyzer) (files : List (String × Language)) (b : Batch) : Prop where
  ready : ∀ w ∈ b.workers, a.Ready w.session
  accounted : (b.outcomes ++ b.held ++ b.pending.map a.alone).Perm (files.map a.alone)

theorem start_sound (a : Analyzer) (files : List (String × Language)) (count : Nat) :
    Sound a files (start a files count) := by
  refine ⟨fun w found => ?_, ?_⟩
  · rw [List.eq_of_mem_replicate found]
    exact a.session_ready
  · simp [start, held]

theorem ready_replaced {before behind : List Worker} {w w' : Worker}
    (ready : ∀ v ∈ before ++ w :: behind, a.Ready v.session) (own : a.Ready w'.session) :
    ∀ v ∈ before ++ w' :: behind, a.Ready v.session := by
  simp only [List.mem_append, List.mem_cons] at ready ⊢
  rintro v (front | rfl | back)
  · exact ready v (.inl front)
  · exact own
  · exact ready v (.inr (.inr back))

-- The step: a file becomes an outcome in the hands of the worker that takes it, and there
-- it is until it comes in.
theorem Acted.sound (acted : Acted a b action next) (sound : Sound a files b) :
    Sound a files next := by
  obtain ⟨ready, accounted⟩ := sound
  cases acted with
  | @taken file pending before session behind outcomes =>
    have own : a.Ready session := ready { session } (by simp)
    obtain ⟨own', outcome⟩ := own.outcome file
    refine ⟨ready_replaced ready own', List.Perm.trans ?_ accounted⟩
    simp only [held, List.filterMap_append, List.filterMap_cons, outcome, List.map_cons,
      List.append_assoc, List.cons_append]
    exact (List.perm_middle.symm.append_left _).append_left _
  | @delivered pending before session outcome behind outcomes =>
    have own : a.Ready session := ready { session, held := some outcome } (by simp)
    refine ⟨ready_replaced ready own, List.Perm.trans ?_ accounted⟩
    simp only [held, List.filterMap_append, List.filterMap_cons, List.append_assoc,
      List.cons_append, List.nil_append]
    exact List.perm_middle.symm.append_left _

def work (b : Batch) : Nat := 2 * b.pending.length + b.held.length

theorem Acted.work (acted : Acted a b action next) : next.work + 1 = b.work := by
  cases acted <;> simp [Batch.work, held] <;> omega

theorem Acted.workers (acted : Acted a b action next) :
    next.workers.length = b.workers.length := by
  cases acted <;> simp

theorem run_sound (feasible : b.isFeasible a actions = true) (sound : Sound a files b) :
    Sound a files (b.run a actions) := by
  -- The invariant is of the batch alone, so the rest of the run starts from the next batch.
  induction actions generalizing b with
  | nil => exact sound
  | cons action actions ih =>
    rw [isFeasible, Bool.and_eq_true] at feasible
    exact ih feasible.2 ((apply_acted feasible.1).sound sound)

theorem run_work (feasible : b.isFeasible a actions = true) :
    (b.run a actions).work + actions.length = b.work ∧
      (b.run a actions).workers.length = b.workers.length := by
  induction actions generalizing b with
  | nil => exact ⟨rfl, rfl⟩
  | cons action actions ih =>
    rw [isFeasible, Bool.and_eq_true] at feasible
    have acted : Acted a b action (b.apply a action) := apply_acted feasible.1
    obtain ⟨work, workers⟩ := ih feasible.2
    refine ⟨?_, workers.trans acted.workers⟩
    rw [← acted.work, ← work, List.length_cons]
    rfl

theorem work_eq_zero : b.work = 0 ↔ b.pending = [] ∧ b.held = [] := by
  rw [← List.length_eq_zero_iff, ← List.length_eq_zero_iff, work]
  omega

theorem isDone_iff : b.isDone = true ↔ b.work = 0 := by
  rw [work_eq_zero, held, List.filterMap_eq_nil_iff]
  simp [isDone]

theorem start_held (a : Analyzer) (files : List (String × Language)) (count : Nat) :
    (start a files count).held = [] := by
  simp [start, held]

theorem start_work (a : Analyzer) (files : List (String × Language)) (count : Nat) :
    (start a files count).work = 2 * files.length := by
  rw [work, start_held]
  rfl

-- While there is work left some worker can do something.
theorem act_of_work (crew : b.workers ≠ []) (left : b.work ≠ 0) :
    ∃ action, b.canAct action = true := by
  cases holding : b.held with
  | nil =>
    have idle : ∀ w ∈ b.workers, w.held = none := List.filterMap_eq_nil_iff.mp holding
    have more : b.pending ≠ [] := by
      rintro taken
      simp [work, holding, taken] at left
    obtain ⟨w, rest, same⟩ := List.exists_cons_of_ne_nil crew
    refine ⟨.take 0, ?_⟩
    simp [canAct, more, same, idle w (same ▸ List.mem_cons_self)]
  | cons outcome others =>
    have found : outcome ∈ b.held := holding ▸ List.mem_cons_self
    obtain ⟨w, worker, holds⟩ := List.mem_filterMap.mp found
    obtain ⟨i, at'⟩ := List.mem_iff_getElem?.mp worker
    refine ⟨.deliver i, ?_⟩
    simp [canAct, at', holds]

theorem stuck_of_done (done : b.work = 0) (action : WorkerAction) : b.canAct action = false := by
  obtain ⟨taken, idle⟩ := work_eq_zero.mp done
  cases action with
  | take i => simp [canAct, taken]
  | deliver i =>
    rw [canAct, Option.any_eq_false]
    intro w found
    simp [List.filterMap_eq_nil_iff.mp idle w (List.mem_of_getElem? found)]

theorem Sound.report (sound : Sound a files b) (done : b.work = 0)
    (distinct : (Analyzer.shownPaths files).Nodup) :
    BatchReport.ofOutcomes b.outcomes = .ofOutcomes (files.map a.alone) := by
  obtain ⟨taken, idle⟩ := work_eq_zero.mp done
  have perm := sound.accounted
  rw [taken, idle, List.append_nil, List.map_nil, List.append_nil] at perm
  rw [← a.alone_paths] at distinct
  exact (BatchReport.ofOutcomes_of_perm distinct perm.symm).symm

theorem isFeasible_append (a : Analyzer) (b : Batch) (front back : List WorkerAction) :
    b.isFeasible a (front ++ back) =
      (b.isFeasible a front && (b.run a front).isFeasible a back) := by
  induction front generalizing b with
  | nil => rfl
  | cons action front ih =>
    rw [List.cons_append, isFeasible, ih, isFeasible, Bool.and_assoc]
    rfl

theorem turn_feasible (a : Analyzer) {i : Nat} (idle : b.held = []) (more : b.pending ≠ [])
    (inside : i < b.workers.length) :
    b.isFeasible a [.take i, .deliver i] = true ∧
      (b.run a [.take i, .deliver i]).held = [] := by
  have possible : b.canAct (.take i) = true := by
    have free := List.filterMap_eq_nil_iff.mp idle _ (List.getElem_mem inside)
    simp [canAct, more, inside, free]
  have acted : Acted a b (.take i) (b.apply a (.take i)) := apply_acted possible
  simp only [isFeasible, possible, run, List.foldl_cons, List.foldl_nil, Bool.true_and,
    Bool.and_true]
  generalize b.apply a (.take i) = next at acted
  cases acted
  constructor
  · simp [canAct]
  · simpa [apply, deliver, held] using idle

theorem turns_succ (count n : Nat) :
    turns count (n + 1) = turns count n ++ [.take (n % count), .deliver (n % count)] := by
  simp [turns, List.range_succ]

theorem turns_length (count n : Nat) : (turns count n).length = 2 * n := by
  induction n with
  | zero => rfl
  | succ n ih =>
    rw [turns_succ, List.length_append, ih]
    rfl

theorem turns_feasible (a : Analyzer) (n : Nat) (idle : b.held = [])
    (crew : 0 < n → b.workers ≠ []) (enough : n ≤ b.pending.length) :
    b.isFeasible a (turns b.workers.length n) = true ∧
      (b.run a (turns b.workers.length n)).held = [] := by
  induction n with
  | zero => exact ⟨rfl, idle⟩
  | succ n ih =>
    have crew : b.workers ≠ [] := crew n.succ_pos
    obtain ⟨feasible, idle'⟩ := ih (fun _ => crew) (Nat.le_of_succ_le enough)
    obtain ⟨work, workers⟩ := run_work feasible
    have more : (b.run a (turns b.workers.length n)).pending ≠ [] := by
      rintro taken
      simp only [Batch.work, idle', taken, idle, turns_length, List.length_nil] at work
      omega
    have inside : n % b.workers.length < (b.run a (turns b.workers.length n)).workers.length := by
      rw [workers]
      exact Nat.mod_lt n (List.length_pos_iff.mpr crew)
    obtain ⟨feasible', idle''⟩ := turn_feasible a idle' more inside
    rw [turns_succ, isFeasible_append, feasible, feasible']
    refine ⟨rfl, ?_⟩
    rw [run, List.foldl_append]
    exact idle''

end Batch

namespace Analyzer

variable {a : Analyzer} {files : List (String × Language)} {workers : Nat}
  {actions : List WorkerAction}

def opening (a : Analyzer) (files : List (String × Language)) (workers : Nat) : Batch :=
  .start a files (min workers files.length)

theorem opening_crew (a : Analyzer) (files : List (String × Language)) (manned : 0 < workers)
    (more : 0 < files.length) : (a.opening files workers).workers ≠ [] := by
  have crew : min workers files.length ≠ 0 := by omega
  rwa [opening, Batch.start, ne_eq, List.replicate_eq_nil_iff]

theorem opening_work (feasible : (a.opening files workers).isFeasible a actions = true) :
    ((a.opening files workers).run a actions).work + actions.length = 2 * files.length := by
  rw [(Batch.run_work feasible).1]
  exact Batch.start_work a files _

theorem turns_report (a : Analyzer) (manned : 0 < workers) (distinct : (shownPaths files).Nodup) :
    a.report files workers = .ofOutcomes (files.map a.alone) := by
  have idle : (a.opening files workers).held = [] := Batch.start_held a files _
  have count : (a.opening files workers).workers.length = min workers files.length :=
    List.length_replicate
  obtain ⟨feasible, _⟩ :=
    Batch.turns_feasible a files.length idle (a.opening_crew files manned) (Nat.le_refl _)
  have work := opening_work feasible
  rw [Batch.turns_length, Nat.add_eq_right] at work
  rw [count] at feasible work
  have sound := Batch.run_sound feasible (Batch.start_sound a files _)
  exact sound.report work distinct

-- However the workers of a scan take turns, only its end stops it, which comes after a
-- fixed number of actions. The report is the same for all of them and for any number of
-- workers: what becomes of each file alone.
theorem report_is_free_of_schedule (a : Analyzer) (distinct : (shownPaths files).Nodup)
    (manned : 0 < workers) :
    a.report files workers = .ofOutcomes (files.map a.alone) ∧
    a.Reports files (a.report files workers) ∧
    ∀ actions, (a.opening files workers).isFeasible a actions = true →
      let b := (a.opening files workers).run a actions
      actions.length ≤ 2 * files.length ∧
      ((∀ action, b.canAct action = false) ↔ actions.length = 2 * files.length) ∧
      (b.isDone = true ↔ actions.length = 2 * files.length) ∧
      (b.isDone = true → BatchReport.ofOutcomes b.outcomes = a.report files workers) := by
  have report := a.turns_report manned distinct
  refine ⟨report, report ▸ alone_reports distinct, fun actions feasible => ?_⟩
  intro b
  have work : b.work + actions.length = 2 * files.length := opening_work feasible
  have settled : b.work = 0 ↔ actions.length = 2 * files.length := by omega
  rw [← settled, Batch.isDone_iff, report]
  refine ⟨by omega, ⟨?_, Batch.stuck_of_done⟩, Iff.rfl, fun done => ?_⟩
  · intro stuck
    by_contra left
    have crew : b.workers ≠ [] := by
      have opened := a.opening_crew files manned (by omega)
      rwa [← List.length_pos_iff, (Batch.run_work feasible).2, List.length_pos_iff]
    obtain ⟨action, possible⟩ := Batch.act_of_work crew left
    simp [stuck action] at possible
  · exact (Batch.run_sound feasible (Batch.start_sound a files _)).report done distinct

def scarce : Analyzer where
  engine := Session.wholeModule
  directory := .directory [("a.py", .text "x")]

def bothFiles : List (String × Language) := [("b.go", .go), ("a.py", .python)]

theorem second_file_comes_in_first :
    let actions : List WorkerAction := [.take 0, .take 1, .deliver 1, .deliver 0]
    let b := (scarce.opening bothFiles 2).run scarce actions
    (shownPaths bothFiles).Nodup ∧ 0 < 2 ∧
    (scarce.opening bothFiles 2).isFeasible scarce actions = true ∧ b.isDone = true ∧
    b.outcomes.map (·.path) = ["a.py", "b.go"] ∧
    scarce.Reports bothFiles (.ofOutcomes b.outcomes) := by
  intro actions b
  have distinct : (shownPaths bothFiles).Nodup := by decide +kernel
  have feasible : (scarce.opening bothFiles 2).isFeasible scarce actions = true := by
    decide +kernel
  have manned : 0 < 2 := by decide
  obtain ⟨_, reports, schedules⟩ := scarce.report_is_free_of_schedule distinct manned
  obtain ⟨_, _, done, same⟩ := schedules actions feasible
  have finished : b.isDone = true := done.mpr rfl
  exact ⟨distinct, manned, feasible, finished, by decide +kernel, same finished ▸ reports⟩

end Analyzer

end CodeEntities
