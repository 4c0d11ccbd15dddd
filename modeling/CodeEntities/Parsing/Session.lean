import CodeEntities.Parsing.Fault
import CodeEntities.Tree.Basic

namespace CodeEntities

-- The parser behind a session. It may use an earlier tree together with the
-- edits since then, and it may give up.
abbrev Engine := Language → String → Option (Tree × List Text.Edit) → Option Tree

-- How a session stands with the grammar of a language.
inductive Grammar where
  | deferred
  | loaded
  | unavailable (reason : String)
  deriving Repr, DecidableEq, Inhabited

namespace Grammar

def statusName : Grammar → String
  | deferred => "deferred"
  | loaded => "loaded"
  | unavailable _ => "unavailable"

def describe : Grammar → String
  | unavailable reason => "unavailable (" ++ reason ++ ")"
  | grammar => grammar.statusName

def isUsable : Grammar → Bool
  | unavailable _ => false
  | _ => true

def reason? : Grammar → Option String
  | unavailable reason => some reason
  | _ => none

end Grammar

structure ParserHandle where
  lastTree : Option Tree := none
  deriving Repr, Inhabited

namespace ParserHandle

def load (language : Language) : Except String ParserHandle :=
  if language.hasGrammar then .ok {} else .error ("no grammar linked for " ++ language.name)

end ParserHandle

abbrev LanguageMap (α : Type) := Language → Option α

namespace LanguageMap

variable {α : Type}

def empty : LanguageMap α := fun _ => none

def insert (m : LanguageMap α) (language : Language) (a : α) : LanguageMap α :=
  fun other => if other = language then some a else m other

end LanguageMap

structure Parsed where
  tree : Tree
  source : String
  language : Language
  deriving Repr, Inhabited

namespace Parsed

def hasErrors (p : Parsed) : Bool := p.tree.label.hasError

end Parsed

-- Grammars that are loaded at once; the others wait for their first use. Without a list all of
-- them are loaded at once.
structure ParserConfig where
  languages : Option (List Language) := none
  deriving Repr, DecidableEq, Inhabited

namespace ParserConfig

def loadsEagerly (c : ParserConfig) (language : Language) : Bool :=
  c.languages.all (·.contains language)

end ParserConfig

-- The parsers of one user. Before it is started and after it is closed a session has
-- none.
structure Session where
  config : ParserConfig
  handles : LanguageMap ParserHandle := .empty
  grammars : LanguageMap Grammar := .empty
  isStarted : Bool := false

namespace Session

def load (s : Session) (language : Language) : Session :=
  match ParserHandle.load language with
  | .ok handle =>
    { s with
      handles := s.handles.insert language handle
      grammars := s.grammars.insert language .loaded }
  | .error reason => { s with grammars := s.grammars.insert language (.unavailable reason) }

def prepare (s : Session) (language : Language) : Session :=
  if s.config.loadsEagerly language then s.load language
  else { s with grammars := s.grammars.insert language .deferred }

def start (s : Session) : Session :=
  if s.isStarted then s else { Language.all.foldl prepare s with isStarted := true }

def close (s : Session) : Session :=
  { s with handles := .empty, grammars := .empty, isStarted := false }

def status? (s : Session) (language : Language) : Option Grammar := s.grammars language

-- Whether a language can be parsed; a deferred grammar counts.
def hasParser (s : Session) (language : Language) : Bool :=
  (s.status? language).any (·.isUsable)

def availableLanguages (s : Session) : List Language :=
  Language.all.filter fun language => s.status? language == some .loaded

def unavailableLanguages (s : Session) : List (Language × String) :=
  Language.all.filterMap fun language =>
    ((s.status? language).bind (·.reason?)).map fun reason => (language, reason)

def lastTree? (s : Session) (language : Language) : Option Tree :=
  (s.handles language).bind (·.lastTree)

def require (s : Session) (language : Language) : Session :=
  if s.status? language = some .deferred then s.load language else s

def handle (s : Session) (language : Language) : Session × Except Fault ParserHandle :=
  if !s.isStarted then (s, .error .notStarted)
  else
    let s := s.require language
    match s.handles language with
    | some handle => (s, .ok handle)
    | none => (s, .error (.parserUnavailable language))

def keep (s : Session) (language : Language) (handle : ParserHandle) (tree : Tree) : Session :=
  { s with handles := s.handles.insert language { handle with lastTree := some tree } }

def parseWith (s : Session) (engine : Engine) (language : Language) (source : String)
    (earlier : Option (Tree × List Text.Edit)) : Session × Except Fault Parsed :=
  match s.handle language with
  | (s, .error fault) => (s, .error fault)
  | (s, .ok handle) =>
    match engine language source earlier with
    | none => (s, .error (.parseFailure language))
    | some tree => (s.keep language handle tree, .ok { tree, source, language })

def parse (s : Session) (engine : Engine) (language : Language) (source : String) :
    Session × Except Fault Parsed :=
  s.parseWith engine language source none

def parseFile (s : Session) (engine : Engine) (path source : String) :
    Session × Except Fault Parsed :=
  match Language.ofPath? path with
  | some language => s.parse engine language source
  | none => (s, .error (.unsupportedLanguage path))

def reparse (s : Session) (engine : Engine) (earlier : Tree) (source : String)
    (edits : List Text.Edit) (language : Language) : Session × Except Fault Parsed :=
  match edits.find? fun e => source.utf8ByteSize < e.newEndByte with
  | some edit => (s, .error (.invalidEdit (.beyondNewSource edit.newEndByte source.utf8ByteSize)))
  | none => s.parseWith engine language source (some (earlier, edits))

end Session

end CodeEntities
