import CodeEntities.Text.LowerCase
import CodeEntities.Text.Split

namespace CodeEntities

inductive Language where
  | typescript | javascript | tsx | jsx | go | rust | python | java | c | cpp | csharp | kotlin
  | swift | dart | ruby | php | bash | scala | haskell | elixir | lua | json | yaml | toml
  deriving Repr, DecidableEq, Inhabited

namespace Language

def all : List Language := [
  typescript, javascript, tsx, jsx, go, rust, python, java, c, cpp, csharp, kotlin,
  swift, dart, ruby, php, bash, scala, haskell, elixir, lua, json, yaml, toml]

theorem mem_all (l : Language) : l ∈ all := by cases l <;> decide

def name : Language → String
  | typescript => "typescript"
  | javascript => "javascript"
  | tsx => "tsx"
  | jsx => "jsx"
  | go => "go"
  | rust => "rust"
  | python => "python"
  | java => "java"
  | c => "c"
  | cpp => "cpp"
  | csharp => "csharp"
  | kotlin => "kotlin"
  | swift => "swift"
  | dart => "dart"
  | ruby => "ruby"
  | php => "php"
  | bash => "bash"
  | scala => "scala"
  | haskell => "haskell"
  | elixir => "elixir"
  | lua => "lua"
  | json => "json"
  | yaml => "yaml"
  | toml => "toml"

def ofName? (s : String) : Option Language := all.find? (·.name == s)

def aliases : List (String × Language) := [
  ("ts", typescript), ("js", javascript), ("node", javascript), ("golang", go), ("rs", rust),
  ("py", python), ("c++", cpp), ("cxx", cpp), ("c#", csharp), ("cs", csharp), ("kt", kotlin),
  ("rb", ruby), ("sh", bash), ("shell", bash), ("hs", haskell), ("ex", elixir), ("yml", yaml)]

def parse? (s : String) : Option Language :=
  let folded := Text.lowercase s
  (ofName? folded).or ((aliases.find? (·.1 == folded)).map (·.2))

-- Extensions are matched as suffixes of a file name, so an entry may contain a dot.
def extensionTable : List (String × Language) := [
  ("ts", typescript), ("mts", typescript), ("cts", typescript), ("d.ts", typescript), ("tsx", tsx),
  ("js", javascript), ("mjs", javascript), ("cjs", javascript), ("jsx", jsx), ("go", go),
  ("rs", rust), ("py", python), ("pyi", python), ("pyw", python), ("java", java), ("c", c), ("h", c),
  ("cpp", cpp), ("cc", cpp), ("cxx", cpp), ("c++", cpp), ("hpp", cpp), ("hh", cpp), ("hxx", cpp),
  ("cs", csharp), ("csx", csharp), ("kt", kotlin), ("kts", kotlin), ("swift", swift),
  ("dart", dart), ("rb", ruby), ("rake", ruby), ("gemspec", ruby), ("ru", ruby), ("php", php),
  ("phtml", php), ("sh", bash), ("bash", bash), ("zsh", bash), ("scala", scala), ("sc", scala),
  ("hs", haskell), ("lhs", haskell), ("ex", elixir), ("exs", elixir), ("lua", lua),
  ("json", json), ("jsonc", json), ("yaml", yaml), ("yml", yaml), ("toml", toml)]

def fileNameTable : List (String × Language) := [
  ("Rakefile", ruby), ("Gemfile", ruby), ("Podfile", ruby), (".bashrc", bash),
  (".bash_profile", bash), (".zshrc", bash), (".profile", bash)]

def extensions (l : Language) : List String :=
  (extensionTable.filter (·.2 == l)).map (·.1)

def isJsFamily (l : Language) : Bool := [typescript, javascript, tsx, jsx].contains l

def isData (l : Language) : Bool := [json, yaml, toml].contains l

def grammarPackage : Language → Option String
  | typescript | tsx => some "tree-sitter-typescript"
  | javascript | jsx => some "tree-sitter-javascript"
  | go => some "tree-sitter-go"
  | rust => some "tree-sitter-rust"
  | python => some "tree-sitter-python"
  | java => some "tree-sitter-java"
  | c => some "tree-sitter-c"
  | cpp => some "tree-sitter-cpp"
  | csharp => some "tree-sitter-c-sharp"
  | kotlin => some "tree-sitter-kotlin-ng"
  | swift => some "tree-sitter-swift"
  | ruby => some "tree-sitter-ruby"
  | php => some "tree-sitter-php"
  | bash => some "tree-sitter-bash"
  | scala => some "tree-sitter-scala"
  | haskell => some "tree-sitter-haskell"
  | elixir => some "tree-sitter-elixir"
  | lua => some "tree-sitter-lua"
  | json => some "tree-sitter-json"
  | yaml => some "tree-sitter-yaml"
  | toml => some "tree-sitter-toml-ng"
  | dart => none

def hasGrammar (l : Language) : Bool := l.grammarPackage.isSome

def fileName? (path : String) : Option String :=
  let components := (Text.split (· == '/') path).filter fun part => part != "" && part != "."
  components.getLast?.filter (· != "..")

def longestExtension (name : String) : List (String × Language) → Option (String × Language)
  | [] => none
  | entry :: rest =>
    let matched := match Text.dropSuffix? name ("." ++ entry.1) with
      | some stem => !stem.isEmpty
      | none => false
    match longestExtension name rest with
    | none => if matched then some entry else none
    | some best => if matched && best.1.length < entry.1.length then some entry else some best

-- The language of a file name: a known whole name, else the longest extension in any case.
def ofFileName? (fileName : String) : Option Language :=
  match fileNameTable.find? (·.1 == fileName) with
  | some entry => some entry.2
  | none => (longestExtension (Text.lowercase fileName) extensionTable).map (·.2)

def ofPath? (path : String) : Option Language := (fileName? path).bind ofFileName?

end Language

end CodeEntities
