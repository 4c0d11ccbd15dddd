import CodeEntities.Language
import CodeEntities.Project.Files
import CodeEntities.Project.Ignore

namespace CodeEntities

-- The ignore files of one directory. A file in the list beats those behind it.
-- `lead` leads from the directory to the root of a scan below it.
structure IgnoreLayer where
  lead : Option String := none
  files : List IgnoreRules
  deriving Repr, Inhabited

namespace IgnoreLayer

def fileNames : List (List String) := [[".ignore"], [".gitignore"], [".git", "info", "exclude"]]

def ofDirectory (root : String) (lead : Option String) (entries : List (String × Entry)) :
    IgnoreLayer where
  lead := lead
  files := fileNames.map fun names =>
    match (Entry.directory entries).lookup names with
    | .ok (.text content) => .ofFile root content
    | _ => .ofLines root []

def seen (l : IgnoreLayer) (scanRoot : IgnoreRules) (path : String) : String :=
  match l.lead with
  | none => path
  | some lead => Path.join lead (scanRoot.relative path)

end IgnoreLayer

structure ScanRules where
  noise : IgnoreRules
  -- Ignore files of the directories at and above a place, nearest first.
  layers : List IgnoreLayer
  deriving Repr, Inhabited

namespace ScanRules

-- The verdict of one kind of ignore file: the nearest directory that has one decides.
def verdictOf? (s : ScanRules) (kind : Nat) (path : String) (isDirectory : Bool) :
    Option Verdict :=
  s.layers.findSome? fun l =>
    (l.files[kind]?).bind fun rules => rules.verdict? (l.seen s.noise path) isDirectory

def skips (s : ScanRules) (path : String) (isDirectory : Bool) : Bool :=
  let verdict := (List.range IgnoreLayer.fileNames.length).findSome? fun kind =>
    s.verdictOf? kind path isDirectory
  verdict == some .ignored || s.noise.ignores path isDirectory

end ScanRules

namespace Entry

mutual

def filesFrom (path : String) (s : ScanRules) : Entry → List String
  | directory entries =>
    filesBelow path { s with layers := .ofDirectory path none entries :: s.layers } entries
  | _ => [path]

def filesBelow (path : String) (s : ScanRules) : List (String × Entry) → List String
  | [] => []
  | (name, e) :: rest =>
    let below := Path.join path name
    (if s.skips below e.isDirectory then [] else filesFrom below s e) ++ filesBelow path s rest

end

def layersAbove (lead : List String) : Entry → List IgnoreLayer
  | directory entries =>
    match lead with
    | [] => []
    | name :: rest =>
      let own := IgnoreLayer.ofDirectory "." (some ("/".intercalate lead)) entries
      match entries.lookup name with
      | some e => layersAbove rest e ++ [own]
      | none => [own]
  | _ => []
termination_by structural lead

end Entry

def partsBy : List String → List String → Bool
  | [], _ => true
  | _ :: _, [] => false
  | a :: as, b :: bs => a < b || (a == b && partsBy as bs)

def pathsBy (a b : String) : Bool :=
  partsBy (Text.split (· == '/') a) (Text.split (· == '/') b)

def sourceFiles (directory : Entry) (root : String) (exclude : List String) :
    List (String × Language) :=
  match directory.find root with
  | .error _ => []
  | .ok e =>
    let layers := ((directory.names root).toOption.map fun names => directory.layersAbove names).getD []
    let paths := (e.filesFrom root { noise := noiseRules root exclude, layers }).mergeSort pathsBy
    paths.filterMap fun path => (Language.ofPath? path).map fun language => (path, language)

end CodeEntities
