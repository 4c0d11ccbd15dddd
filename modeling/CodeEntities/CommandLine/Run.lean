import CodeEntities.CommandLine.Help
import CodeEntities.CommandLine.Output
import CodeEntities.Project.Walk
import CodeEntities.Report.Envelope

namespace CodeEntities.CommandLine

structure Surroundings where
  directory : Entry
  engine : Engine
  processors : Nat := 1
  settings : List (String × String) := []
  isTerminal : Bool := false

def settingNames : List String := ["UCE_COLOR", "NO_COLOR", "UCE_QUIET"]

namespace Surroundings

def setting? (w : Surroundings) (name : String) : Option String := w.settings.lookup name

def theme (w : Surroundings) : Theme :=
  (ColorChoice.ofSettings (w.setting? "UCE_COLOR") (w.setting? "NO_COLOR").isSome).theme
    w.isTerminal

def isQuiet (w : Surroundings) : Bool :=
  (w.setting? "UCE_QUIET").any fun value => value == "1" || Text.foldAscii value == "true"

end Surroundings

structure Outcome where
  code : Nat := 0
  output : Output := {}
  directory : Entry

inductive CommandFault where
  | config (fault : ConfigFault)
  | unsupportedFile (path : String)
  | analysis (fault : Fault)
  | notDirectory (path : String)
  deriving Repr, DecidableEq

namespace CommandFault

def message : CommandFault → String
  | config fault => fault.message
  | unsupportedFile path => "unsupported file type: " ++ path
  | analysis (.io reason) => (Fault.io reason).message ++ ": " ++ reason
  | analysis fault => fault.message
  | notDirectory path => "not a directory: " ++ path

end CommandFault

structure Answer where
  listing : Output
  data : Json

def analyzeNamed (a : Analyzer) (file : String) : Except CommandFault FileAnalysis :=
  match Language.ofPath? file with
  | none => .error (.unsupportedFile file)
  | some language => (a.analyzeFile a.session file language).2.mapError .analysis

def parseAnswer (t : Theme) (a : Analyzer) (file : String) : Except CommandFault Answer :=
  (analyzeNamed a file).map fun analysis =>
    { listing := entityListing t analysis, data := analysis.outline.toJson }

def callsAnswer (t : Theme) (a : Analyzer) (file : String) : Except CommandFault Answer :=
  (analyzeNamed a file).map fun analysis =>
    { listing := callListing t analysis, data := analysis.callGraph.toJson }

def languagesAnswer (a : Analyzer) : Answer :=
  { listing := languageListing a.session, data := languagesToJson a.session }

def scanAnswer (t : Theme) (a : Analyzer) (path : String) (workers : Nat) (withSummary : Bool) :
    Except CommandFault Answer :=
  match a.directory.find path with
  | .ok (.directory _) =>
    let files := sourceFiles a.directory path a.config.scan.exclude
    let report := a.report files workers
    let summary :=
      if withSummary then scanSummary t report (a.messages files workers) else {}
    .ok { listing := summary ++ scanListing t report workers, data := report.toJson }
  | _ => .error (.notDirectory path)

def initAnswer (t : Theme) (path : String) : Answer :=
  { listing := .ofLines [t.successLine ("Wrote " ++ path)]
    data := .object [("path", .string path)] }

namespace Invocation

def answer (i : Invocation) (w : Surroundings) : Except CommandFault (Answer × Entry) :=
  let t := w.theme
  match Config.load w.directory i.config with
  | .error fault => .error (.config fault)
  | .ok config =>
    let config := config.getD {}
    let a : Analyzer := { engine := w.engine, directory := w.directory, config }
    match i.command with
    | .parse file noBodies =>
      let options := { config.options with includeBodies := config.options.includeBodies && !noBodies }
      (parseAnswer t { a with config := { config with options } } file).map (·, w.directory)
    | .calls file => (callsAnswer t a file).map (·, w.directory)
    | .languages => .ok (languagesAnswer a, w.directory)
    | .scan path jobs =>
      let workers := { config.scan with jobs := jobs.or config.scan.jobs : ScanConfig }.workers w.processors
      (scanAnswer t a path workers (!w.isQuiet)).map (·, w.directory)
    | .init force =>
      let path := i.config.getD Config.defaultPath
      match Config.write w.directory path {} force with
      | .error fault => .error (.config fault)
      | .ok directory => .ok (initAnswer t path, directory)

def run (i : Invocation) (w : Surroundings) : Outcome :=
  let command := i.command.name.text
  match i.answer w, OutputMode.ofFlag i.json with
  | .ok (answer, directory), .human => { output := answer.listing, directory }
  | .ok (answer, directory), .json =>
    { output := .ofLines [(Envelope.success command answer.data).render], directory }
  | .error fault, .human =>
    { code := 1, output := .ofNotes [w.theme.errorLine fault.message], directory := w.directory }
  | .error fault, .json =>
    { code := 1
      output := .ofLines [(Envelope.failure command fault.message).render]
      directory := w.directory }

end Invocation

def run (w : Surroundings) (args : List String) : Outcome :=
  match Request.ofArguments args with
  | .run i => i.run w
  | .version => { output := .ofLines [versionText], directory := w.directory }
  | .help topic long => { output := .ofLines (Help.lines topic long), directory := w.directory }
  | .usage =>
    { code := 2
      output := .ofNotes ("error: the arguments were not understood" :: "" :: Help.lines .program false)
      directory := w.directory }

end CodeEntities.CommandLine
