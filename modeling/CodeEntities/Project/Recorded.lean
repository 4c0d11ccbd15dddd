import CodeEntities.Parsing.Session
import CodeEntities.Project.Files
import CodeEntities.Toml.Document
import CodeEntities.Tree.Encoding

namespace CodeEntities

structure RecordedParse where
  language : Language
  source : String
  tree : Tree
  deriving Repr, Inhabited

-- The parser that knows the trees of some texts and of no others.
def Engine.recorded (parses : List RecordedParse) : Engine := fun language source _ =>
  (parses.find? fun p => p.language == language && p.source == source).map (·.tree)

namespace RecordedParse

def extension : String := ".tree"

def treeOfText? (text : String) : Option Tree :=
  (Toml.parse? text).bind fun entries => Tree.ofJson? (.object (Toml.entriesToJson entries))

def ofFile? (siblings : List (String × Entry)) (name source : String) : Option RecordedParse :=
  match Language.ofPath? name, siblings.lookup (name ++ extension) with
  | some language, some (.text written) =>
    (treeOfText? written).map fun tree => { language, source, tree }
  | _, _ => none

mutual

def ofEntry : Entry → List RecordedParse
  | .directory entries => ofEntries entries entries
  | _ => []

def ofEntries (siblings : List (String × Entry)) : List (String × Entry) → List RecordedParse
  | [] => []
  | (name, e) :: rest =>
    (match e with
    | .text source => (ofFile? siblings name source).toList
    | _ => ofEntry e) ++ ofEntries siblings rest

end

end RecordedParse

end CodeEntities
