import CodeEntities.Calls.Attribution
import CodeEntities.Outline.Encoding
import CodeEntities.Outline.Extract
import CodeEntities.Parsing.Session

namespace CodeEntities

namespace Outline

def ofParsed (options : Options) (filePath : String) (p : Parsed) : Outline :=
  extract { source := p.source, filePath, language := p.language, options } (.root p.tree)

end Outline

structure FileAnalysis where
  path : String
  language : Language
  hasErrors : Bool
  outline : Outline
  callGraph : CallGraph
  deriving Repr

namespace FileAnalysis

def ofParsed (options : Options) (path : String) (p : Parsed) : FileAnalysis :=
  let outline := Outline.ofParsed options path p
  { path
    language := p.language
    hasErrors := p.hasErrors
    outline
    callGraph := { filePath := path, calls := outline.calls p.source (.root p.tree) } }

def toJson (a : FileAnalysis) : Json := .object [
  ("path", .string a.path),
  ("language", a.language.toJson),
  ("hasErrors", .bool a.hasErrors),
  ("file", a.outline.toJson),
  ("callGraph", a.callGraph.toJson)]

end FileAnalysis

namespace Session

def analyze (s : Session) (engine : Engine) (options : Options) (path source : String)
    (language : Language) : Session × Except Fault FileAnalysis :=
  let (s, result) := s.parse engine language source
  (s, result.map (FileAnalysis.ofParsed options path))

end Session

end CodeEntities
