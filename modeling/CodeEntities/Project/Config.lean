import CodeEntities.Extract.Context
import CodeEntities.Outline.Encoding
import CodeEntities.Parsing.Session
import CodeEntities.Project.Files
import CodeEntities.Toml.Document
import CodeEntities.Toml.Printer

namespace CodeEntities

open Json

structure ScanConfig where
  exclude : List String := []
  jobs : Option Nat := none
  deriving Repr, DecidableEq, Inhabited

structure Config where
  parser : ParserConfig := {}
  options : Options := {}
  scan : ScanConfig := {}
  deriving Repr, DecidableEq, Inhabited

namespace ParserConfig

def toJson (c : ParserConfig) : Json :=
  object [("languages", ofOption (Json.ofList Language.toJson) c.languages)]

def ofJson? (j : Json) : Option ParserConfig := do
  let get ← j.looseRecord? ["languages"]
  pure { languages := ← optional? get "languages" (asList? Language.ofJson?) }

end ParserConfig

namespace Options

def toJson (o : Options) : Json := object [
  ("include_bodies", bool o.includeBodies),
  ("max_body_bytes", ofOption ofNat o.maxBodyBytes),
  ("doc_comments", bool o.docComments),
  ("complexity", bool o.complexity)]

def ofJson? (j : Json) : Option Options := do
  let get ← j.looseRecord? ["include_bodies", "max_body_bytes", "doc_comments", "complexity"]
  pure {
    includeBodies := ← defaulted? get "include_bodies" true asBool?
    maxBodyBytes := ← optional? get "max_body_bytes" asSize?
    docComments := ← defaulted? get "doc_comments" true asBool?
    complexity := ← defaulted? get "complexity" true asBool? }

end Options

namespace ScanConfig

def toJson (c : ScanConfig) : Json := object [
  ("exclude", Json.ofList string c.exclude),
  ("jobs", ofOption ofNat c.jobs)]

def ofJson? (j : Json) : Option ScanConfig := do
  let get ← j.looseRecord? ["exclude", "jobs"]
  pure {
    exclude := ← defaulted? get "exclude" [] (asList? asString?)
    jobs := ← optional? get "jobs" asSize? }

end ScanConfig

inductive ConfigFault where
  | file (fault : FileFault)
  | invalid
  -- The configuration holds a number that the format cannot write.
  | unwritable
  | alreadyExists (path : String)
  deriving Repr, DecidableEq

namespace ConfigFault

def message : ConfigFault → String
  | file fault => fault.message
  | invalid => "invalid configuration"
  | unwritable => "out-of-range value for u64 type"
  | alreadyExists path => "config already exists at " ++ path ++ " (use --force to overwrite)"

end ConfigFault

namespace Config

def toJson (c : Config) : Json := object [
  ("parser", c.parser.toJson),
  ("transform", c.options.toJson),
  ("scan", c.scan.toJson)]

def ofJson? (j : Json) : Option Config := do
  let get ← j.looseRecord? ["parser", "transform", "scan"]
  pure {
    parser := ← defaulted? get "parser" {} ParserConfig.ofJson?
    options := ← defaulted? get "transform" {} Options.ofJson?
    scan := ← defaulted? get "scan" {} ScanConfig.ofJson? }

def defaultPath : String := "uce.toml"

def ofText? (text : String) : Option Config :=
  (Toml.parse? text).bind fun entries => ofJson? (object (Toml.entriesToJson entries))

def boolText (value : Bool) : String := if value then "true" else "false"

def optionKeys {α : Type} (key : String) (value : α → String) : Option α → List (String × String)
  | some a => [(key, value a)]
  | none => []

def toText (c : Config) : String :=
  Toml.documentText [
    Toml.sectionText "parser" (optionKeys "languages"
      (fun languages : List Language => Toml.arrayText (languages.map fun l => Toml.quoted l.name))
      c.parser.languages),
    Toml.sectionText "transform" (
      [("include_bodies", boolText c.options.includeBodies)] ++
      optionKeys "max_body_bytes" toString c.options.maxBodyBytes ++
      [("doc_comments", boolText c.options.docComments),
        ("complexity", boolText c.options.complexity)]),
    Toml.sectionText "scan" (
      [("exclude", Toml.arrayText (c.scan.exclude.map Toml.quoted))] ++
      optionKeys "jobs" toString c.scan.jobs)]

-- The format has numbers of 64 bits with a sign.
def isWritable (c : Config) : Bool :=
  c.options.maxBodyBytes.all (· ≤ Toml.greatestInteger) &&
    c.scan.jobs.all (· ≤ Toml.greatestInteger)

def load (directory : Entry) (path : Option String) : Except ConfigFault (Option Config) :=
  let path := path.getD defaultPath
  match directory.find path with
  | .error _ => .ok none
  | .ok _ =>
    match directory.read path with
    | .error fault => .error (.file fault)
    | .ok text =>
      match ofText? text with
      | some c => .ok (some c)
      | none => .error .invalid

def write (directory : Entry) (path : String) (c : Config) (force : Bool) :
    Except ConfigFault Entry :=
  if directory.exists? path && !force then .error (.alreadyExists path)
  else if !c.isWritable then .error .unwritable
  else (directory.write path c.toText).mapError .file

end Config

end CodeEntities
