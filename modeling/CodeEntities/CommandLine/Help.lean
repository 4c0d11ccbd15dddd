import CodeEntities.CommandLine.Arguments

namespace CodeEntities.CommandLine

def programName : String := "uce"

def versionText : String := programName ++ " 0.1.0"

namespace CommandName

def about : CommandName → String
  | parse => "Extract UCE entities from one file"
  | calls => "List the calls made in one file"
  | languages => "Show supported languages and grammar status"
  | scan => "Analyze every supported file under a directory"
  | init => "Write a default uce.toml"

def wordHelp? : CommandName → Option (String × String)
  | parse | calls => some ("<FILE>", "")
  | scan => some ("[PATH]", "[default: .]")
  | languages | init => none

end CommandName

namespace Switch

def valueName : Switch → String
  | config => " <CONFIG>"
  | jobs => " <JOBS>"
  | _ => ""

def about : Switch → String
  | verbose => "Enable verbose logging"
  | json => "Print a JSON envelope instead of human output"
  | config => "Configuration file (defaults to ./uce.toml when present)"
  | noBodies => "Leave declaration bodies out of the output"
  | jobs => "Worker threads"
  | force => "Overwrite an existing file"
  | help => "Print help"
  | version => "Print version"

def synopsis (s : Switch) : String :=
  (match s.letter? with
  | some c => "-" ++ String.ofList [c] ++ ", "
  | none => "    ") ++ "--" ++ s.longName ++ s.valueName

end Switch

namespace Help

def columns (rows : List (String × String)) : List String :=
  let width := (rows.map fun row => row.1.length).foldl max 0
  rows.map fun (left, right) =>
    "  " ++ left ++ String.ofList (List.replicate (width - left.length) ' ') ++ "  " ++ right

def stacked (rows : List (String × String)) : List String :=
  Text.join "\n\n" (rows.map fun (left, right) => "  " ++ left ++ "\n          " ++ right)
    |> Text.split (· == '\n')

def page (sections : List (List String)) : List String := [""].intercalate sections

def ofCommand (name : CommandName) : List String :=
  let switches := (Level.ofCommand name).switches.map fun s => (s.synopsis, s.about)
  let usage := "Usage: " ++ programName ++ " " ++ name.text ++ " [OPTIONS]"
  match name.wordHelp? with
  | none => page [[name.about], [usage], "Options:" :: columns switches]
  | some word => page [
      [name.about], [usage ++ " " ++ word.1],
      "Arguments:" :: columns [word], "Options:" :: columns switches]

def summary : String :=
  "Universal Code Entity extraction - language-agnostic structure and call graphs"

def description : List String := [
  "UCE parses source files in 20+ languages into one schema of functions,",
  "classes, interfaces, type aliases, variables and imports, and extracts the",
  "calls each function makes.",
  "",
  "Example usage:",
  "  uce parse src/server.ts",
  "  uce calls app/models/user.rb --json",
  "  uce scan ./src --jobs 8"]

def helpAbout : String := "Print this message or the help of the given subcommand(s)"

def commands : List String :=
  "Commands:" :: columns
    ((CommandName.all.map fun name => (name.text, name.about)) ++ [("help", helpAbout)])

def ofProgram (long : Bool) : List String :=
  let usage := "Usage: " ++ programName ++ " [OPTIONS] <COMMAND>"
  let hint := if long then " (see a summary with '-h')" else " (see more with '--help')"
  let switches := Level.program.switches.map fun s =>
    (s.synopsis, if s = .help then s.about ++ hint else s.about)
  if long then page [description, [usage], commands, "Options:" :: stacked switches]
  else page [[summary], [usage], commands, "Options:" :: columns switches]

def ofHelp : List String := page [
  [helpAbout], ["Usage: " ++ programName ++ " help [COMMAND]..."],
  "Arguments:" :: columns [("[COMMAND]...", "Print help for the subcommand(s)")]]

def lines (topic : Topic) (long : Bool) : List String :=
  match topic with
  | .program => ofProgram long
  | .command name => ofCommand name
  | .help => ofHelp

end Help

end CodeEntities.CommandLine
