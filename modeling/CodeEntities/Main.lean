import CodeEntities.CommandLine.Run
import CodeEntities.Project.Recorded

namespace CodeEntities

partial def readEntries (list : Array IO.FS.DirEntry) : IO (List (String × Entry)) := do
  let mut entries := #[]
  for file in list do
    try
      let e ←
        if ← file.path.isDir then
          Entry.directory <$> readEntries (← file.path.readDir)
        else
          let bytes ← IO.FS.readBinFile file.path
          pure (((String.fromUTF8? bytes).map Entry.text).getD .binary)
      entries := entries.push (file.fileName, e)
    catch _ => pure ()
  return entries.toList

def readProcessors : IO Nat := do
  try
    let info ← IO.FS.readFile "/proc/cpuinfo"
    return (Text.lines info).countP fun line => Text.startsWith line "processor"
  catch _ => return 4

def readSettings (names : List String) : IO (List (String × String)) :=
  names.filterMapM fun name => do
    return (← IO.getEnv name).map fun value => (name, value)

def writeChanges (before after : Entry) : IO Unit := do
  for (path, content) in after.texts "." do
    unless (before.read path).toOption == some content do
      IO.FS.writeFile path content

end CodeEntities

open CodeEntities in
def main (args : List String) : IO UInt32 := do
  let directory := Entry.directory (← readEntries (← (← IO.currentDir).readDir))
  let surroundings : CommandLine.Surroundings := {
    directory
    engine := .recorded (RecordedParse.ofEntry directory)
    processors := ← readProcessors
    settings := ← readSettings CommandLine.settingNames
    isTerminal := ← (← IO.getStdout).isTty }
  let outcome := CommandLine.run surroundings args
  writeChanges directory outcome.directory
  for line in outcome.output.lines do
    IO.println line
  for note in outcome.output.notes do
    IO.eprintln note
  return outcome.code.toUInt32
