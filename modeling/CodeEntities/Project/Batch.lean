import CodeEntities.Analysis.Basic
import CodeEntities.Project.Config
import CodeEntities.Project.Progress

namespace CodeEntities

structure FileFailure where
  path : String
  error : String
  deriving Repr, DecidableEq, Inhabited

namespace FileFailure

def toJson (f : FileFailure) : Json :=
  .object [("path", .string f.path), ("error", .string f.error)]

end FileFailure

inductive FileOutcome where
  | analyzed (analysis : FileAnalysis)
  | failed (failure : FileFailure)
  deriving Repr

namespace FileOutcome

def analysis? : FileOutcome → Option FileAnalysis
  | analyzed a => some a
  | failed _ => none

def failure? : FileOutcome → Option FileFailure
  | analyzed _ => none
  | failed f => some f

def path : FileOutcome → String
  | analyzed a => a.path
  | failed f => f.path

def message : FileOutcome → ScanMessage
  | analyzed a => .progress .analyzing (some a.path)
  | failed f => .failed f.path f.error

end FileOutcome

structure BatchReport where
  analyses : List FileAnalysis := []
  failures : List FileFailure := []
  deriving Repr

namespace BatchReport

def byPath {α : Type} (path : α → String) (items : List α) : List α :=
  items.mergeSort fun a b => !decide (path b < path a)

def ofOutcomes (outcomes : List FileOutcome) : BatchReport where
  analyses := byPath (·.path) (outcomes.filterMap (·.analysis?))
  failures := byPath (·.path) (outcomes.filterMap (·.failure?))

def entityCount (r : BatchReport) : Nat :=
  r.analyses.foldl (fun count a => count + a.outline.entityCount) 0

def callCount (r : BatchReport) : Nat :=
  r.analyses.foldl (fun count a => count + a.callGraph.calls.length) 0

def languageCounts (r : BatchReport) : List (Language × Nat) :=
  Language.all.filterMap fun l =>
    match r.analyses.countP (·.language == l) with
    | 0 => none
    | n => some (l, n)

def toJson (r : BatchReport) : Json := .object [
  ("analyses", .ofList FileAnalysis.toJson r.analyses),
  ("failures", .ofList FileFailure.toJson r.failures)]

end BatchReport

namespace ScanConfig

-- How many workers a scan has; there is always one.
def workers (c : ScanConfig) (processors : Nat) : Nat := max 1 (c.jobs.getD processors)

end ScanConfig

structure Analyzer where
  engine : Engine
  directory : Entry
  config : Config := {}

namespace Analyzer

def session (a : Analyzer) : Session := Session.start { config := a.config.parser }

def analyzeFile (a : Analyzer) (s : Session) (path : String) (language : Language) :
    Session × Except Fault FileAnalysis :=
  match a.directory.read path with
  | .error fault => (s, .error (.io fault.message))
  | .ok source => s.analyze a.engine a.config.options (Path.display path) source language

def outcome (a : Analyzer) (s : Session) (file : String × Language) : Session × FileOutcome :=
  match a.analyzeFile s file.1 file.2 with
  | (s, .ok analysis) => (s, .analyzed analysis)
  | (s, .error fault) => (s, .failed { path := Path.display file.1, error := fault.message })

end Analyzer

-- A worker has a session of its own. It holds an outcome until it hands it over.
structure Worker where
  session : Session
  held : Option FileOutcome := none

structure Batch where
  pending : List (String × Language)
  workers : List Worker
  outcomes : List FileOutcome := []

inductive WorkerAction where
  | take (worker : Nat)
  | deliver (worker : Nat)
  deriving Repr, DecidableEq

namespace Batch

def start (a : Analyzer) (files : List (String × Language)) (workers : Nat) : Batch where
  pending := files
  workers := List.replicate workers { session := a.session }

def take (a : Analyzer) (b : Batch) (i : Nat) : Batch :=
  match b.pending, b.workers[i]? with
  | file :: rest, some { session, held := none } =>
    let (session, outcome) := a.outcome session file
    { b with
      pending := rest
      workers := b.workers.set i { session, held := some outcome } }
  | _, _ => b

def deliver (b : Batch) (i : Nat) : Batch :=
  match b.workers[i]? with
  | some { session, held := some outcome } =>
    { b with
      workers := b.workers.set i { session }
      outcomes := b.outcomes ++ [outcome] }
  | _ => b

-- An action that is not possible changes nothing.
def apply (a : Analyzer) (b : Batch) : WorkerAction → Batch
  | .take i => b.take a i
  | .deliver i => b.deliver i

-- The workers may act in any order.
def run (a : Analyzer) (b : Batch) (actions : List WorkerAction) : Batch :=
  actions.foldl (apply a) b

def isDone (b : Batch) : Bool := b.pending.isEmpty && b.workers.all (·.held.isNone)

def turns (workers files : Nat) : List WorkerAction :=
  (List.range files).flatMap fun k => [.take (k % workers), .deliver (k % workers)]

end Batch

namespace Analyzer

-- Outcomes of the files in the order in which they come in. There are never more
-- workers than files.
def outcomes (a : Analyzer) (files : List (String × Language)) (workers : Nat) :
    List FileOutcome :=
  let workers := min workers files.length
  ((Batch.start a files workers).run a (Batch.turns workers files.length)).outcomes

def report (a : Analyzer) (files : List (String × Language)) (workers : Nat) : BatchReport :=
  .ofOutcomes (a.outcomes files workers)

def messages (a : Analyzer) (files : List (String × Language)) (workers : Nat) :
    List ScanMessage :=
  if files.isEmpty then []
  else
    .started .analyzing files.length :: (a.outcomes files workers).map (·.message) ++
      [.finished .analyzing]

end Analyzer

end CodeEntities
