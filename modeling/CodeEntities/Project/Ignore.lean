import CodeEntities.Project.Glob
import CodeEntities.Text.Split

namespace CodeEntities

structure IgnoreRule where
  pattern : Glob.Pattern
  -- The rule takes back what earlier rules ignore.
  keeps : Bool := false
  onlyDirectories : Bool := false
  deriving Repr, Inhabited

namespace IgnoreRule

def trimmedLine (line : String) : String :=
  if Text.endsWith line "\\ " then line else Text.trimEnd line

-- A pattern without a slash matches at any depth, and one that ends in `/**`
-- matches what is in a directory but not the directory.
def anchored (body : String) (isAbsolute : Bool) : String :=
  let free := !isAbsolute && !Text.contains body "/" &&
    !(Text.startsWith body "**/" || body == "**")
  let body := if free then "**/" ++ body else body
  if Text.endsWith body "/**" then body ++ "/*" else body

def ofLine? (line : String) : Option IgnoreRule :=
  let line := trimmedLine line
  if Text.startsWith line "#" || line.isEmpty then none
  else
    let isEscaped := Text.startsWith line "\\!" || Text.startsWith line "\\#"
    let keeps := !isEscaped && Text.startsWith line "!"
    let body := if isEscaped || keeps then String.ofList (line.toList.drop 1) else line
    let isAbsolute := Text.startsWith body "/"
    let body :=
      if isAbsolute && !isEscaped then String.ofList (body.toList.drop 1) else body
    let (body, onlyDirectories) :=
      match Text.dropSuffix? body "/" with
      | some directory => ((Text.dropSuffix? directory "\\").getD directory, true)
      | none => (body, false)
    (Glob.parse? (anchored body isAbsolute)).map fun pattern =>
      { pattern, keeps, onlyDirectories }

def applies (r : IgnoreRule) (path : String) (isDirectory : Bool) : Bool :=
  (isDirectory || !r.onlyDirectories) && r.pattern.matches path

end IgnoreRule

inductive Verdict where
  | ignored | kept
  deriving Repr, DecidableEq, Inhabited

structure IgnoreRules where
  root : String
  rules : List IgnoreRule
  deriving Repr, Inhabited

namespace IgnoreRules

def withoutDot (path : String) : String := (Text.dropPrefix? path "./").getD path

def ofLines (root : String) (lines : List String) : IgnoreRules where
  root := withoutDot root
  rules := lines.filterMap IgnoreRule.ofLine?

def ofFile (root content : String) : IgnoreRules :=
  match Text.lines content with
  | first :: rest => ofLines root (Text.dropPrefixes first "\ufeff" :: rest)
  | [] => ofLines root []

def relative (s : IgnoreRules) (path : String) : String :=
  let path := withoutDot path
  if s.root == "." || !Text.contains path "/" then path
  else
    match Text.dropPrefix? path s.root with
    | some below => (Text.dropPrefix? below "/").getD below
    | none => path

-- The last rule that applies decides.
def verdict? (s : IgnoreRules) (path : String) (isDirectory : Bool) : Option Verdict :=
  let path := s.relative path
  (s.rules.reverse.find? (·.applies path isDirectory)).map fun r =>
    if r.keeps then .kept else .ignored

def ignores (s : IgnoreRules) (path : String) (isDirectory : Bool) : Bool :=
  s.verdict? path isDirectory == some .ignored

end IgnoreRules

def noisePatterns : List String := [
  "target/", "node_modules/", "venv/", ".venv/", "vendor/", "dist/", "build/", "out/", "coverage/",
  "__pycache__/", "*.egg-info/", ".git/", ".vscode/", ".idea/",
  "*.lock", "package-lock.json", "*.min.js", "*.map",
  "*.pyc", "*.class", "*.jar", "*.exe", "*.dll", "*.so", "*.dylib", "*.o", "*.a", "*.wasm",
  "*.png", "*.jpg", "*.jpeg", "*.gif", "*.ico", "*.svg", "*.pdf", "*.zip", "*.gz", "*.tar"]

def noiseRules (root : String) (exclude : List String) : IgnoreRules :=
  .ofLines root (noisePatterns ++ exclude)

end CodeEntities
