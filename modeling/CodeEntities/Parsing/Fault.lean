import CodeEntities.Language
import CodeEntities.Text.Edit

namespace CodeEntities

inductive Fault where
  | notStarted
  | parserUnavailable (language : Language)
  | parseFailure (language : Language)
  | unsupportedLanguage (name : String)
  | invalidEdit (fault : Text.EditFault)
  | io (reason : String)
  deriving Repr, DecidableEq

namespace Fault

def message : Fault → String
  | notStarted => "Parser manager not initialized: call initialize() before parsing"
  | parserUnavailable language => "No parser available for language: " ++ language.name
  | parseFailure language =>
    "Parse failure (" ++ language.name ++ "): grammar engine returned no tree"
  | unsupportedLanguage name => "Unsupported language or file type: " ++ name
  | invalidEdit fault => "Invalid edit: " ++ fault.message
  | io reason => "IO error: " ++ reason

end Fault

end CodeEntities
