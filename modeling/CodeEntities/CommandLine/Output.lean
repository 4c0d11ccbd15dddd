import CodeEntities.Calls.Graph
import CodeEntities.Project.Batch
import CodeEntities.Report.Rows
import CodeEntities.Report.Style

namespace CodeEntities.CommandLine

structure Output where
  lines : List String := []
  notes : List String := []
  deriving Repr, DecidableEq, Inhabited

namespace Output

def append (a b : Output) : Output where
  lines := a.lines ++ b.lines
  notes := a.notes ++ b.notes

instance : Append Output := ⟨append⟩

def ofLines (lines : List String) : Output := { lines }

def ofNotes (notes : List String) : Output := { notes }

end Output

end CodeEntities.CommandLine

namespace CodeEntities.Theme

def headerLine (t : Theme) (text : String) : String := "🚀 " ++ t.header.paint text

def successLine (t : Theme) (text : String) : String := "✅ " ++ t.success.paint text

def errorLine (t : Theme) (text : String) : String := "❌ " ++ t.error.paint text

def warningLine (t : Theme) (text : String) : String := "⚠️ " ++ t.warn.paint text

def infoLine (t : Theme) (label value : String) : String :=
  t.info.paint "ℹ️" ++ " " ++ t.label.paint label ++ ": " ++ value

def sectionLines (t : Theme) (title : String) : List String :=
  ["", "━" ++ t.header.paint title ++ "━"]

def labelLine (t : Theme) (label value : String) : String :=
  "  " ++ t.label.paint label ++ " " ++ value

def callLine (t : Theme) (c : FunctionCall) : String :=
  let kind := if c.isConstructor then "new, " else if c.isAwaited then "await, " else ""
  "  " ++ t.caller.paint c.callerName ++ " ➡️ " ++
    (t.callSite c.isConstructor c.isAwaited).paint c.calleeName ++ " " ++
    t.muted.paint (kind ++ "line " ++ toString c.line)

end CodeEntities.Theme

namespace CodeEntities.CommandLine

def entityListing (t : Theme) (a : FileAnalysis) : Output :=
  let summaries := a.outline.summaries
  let entities :=
    if summaries.isEmpty then t.infoLine "Entities" "none" else (Table.ofEntities summaries).render
  let imports :=
    if a.outline.imports.isEmpty then []
    else
      t.sectionLines "Imports" ++ a.outline.imports.map fun i =>
        t.labelLine i.source (Text.join ", " (i.specifiers.map (·.localName)))
  { lines := [t.headerLine (a.path ++ " (" ++ a.language.name ++ ")"), entities] ++ imports
    notes := a.outline.errors.map fun e =>
      t.warningLine ("line " ++ toString e.location.startLine ++ ": " ++ e.message) }

def firstCalls (g : CallGraph) (caller : String) (callees : List String) : List FunctionCall :=
  callees.filterMap fun callee =>
    g.calls.find? fun c => c.callerName == caller && c.calleeName == callee

def callListing (t : Theme) (a : FileAnalysis) : Output :=
  let g := a.callGraph
  let title := a.path ++ " (" ++ toString g.calls.length ++ " calls)"
  .ofLines <| t.headerLine title :: g.callsFrom.flatMap fun (caller, callees) =>
    t.sectionLines caller ++ (firstCalls g caller callees).map t.callLine

def languageRows (s : Session) : List (List String) :=
  Language.all.map fun l => l.row (s.status? l)

def languageListing (s : Session) : Output := .ofLines [(Table.ofLanguages (languageRows s)).render]

def languagesToJson (s : Session) : Json :=
  .ofList (fun row => .object (["language", "extensions", "grammar", "status"].zip (row.map .string)))
    (languageRows s)

def scanSummary (t : Theme) (r : BatchReport) (messages : List ScanMessage) : Output :=
  let figure (icon : String) (n : Nat) (what : String) : String :=
    t.info.paint icon ++ " " ++ toString n ++ " " ++ what
  let failures := ScanMessage.failures messages
  .ofNotes <| ["", "  " ++ Text.join "  " [
    figure "📄" r.analyses.length "files", figure "📦" r.entityCount "entities",
    figure "🔗" r.callCount "calls"]] ++
    if failures = 0 then []
    else ["  " ++ t.warn.paint "⚠️" ++ " " ++ t.warn.paint (toString failures ++ " files failed")]

-- The figures of a scan and the files that failed.
def scanListing (t : Theme) (r : BatchReport) (workers : Nat) : Output where
  lines := [(Table.ofStatistics ([
    ("Files", toString r.analyses.length),
    ("Entities", toString r.entityCount),
    ("Calls", toString r.callCount),
    ("Failures", toString r.failures.length),
    ("Workers", toString workers)] ++
    r.languageCounts.map fun (l, n) => (l.name, toString n))).render]
  notes := r.failures.map fun f => t.warningLine (f.path ++ ": " ++ f.error)

end CodeEntities.CommandLine
