import CodeEntities.Text.Split

namespace CodeEntities

-- What stands under a name in a directory. A file whose bytes are no text is
-- `binary`.
inductive Entry where
  | text (content : String)
  | binary
  | directory (entries : List (String × Entry))
  deriving Repr, Inhabited

inductive FileFault where
  | notFound
  | notDirectory
  | isDirectory
  | notText
  deriving Repr, DecidableEq

namespace FileFault

def message : FileFault → String
  | notFound => "No such file or directory (os error 2)"
  | notDirectory => "Not a directory (os error 20)"
  | isDirectory => "Is a directory (os error 21)"
  | notText => "stream did not contain valid UTF-8"

end FileFault

namespace Path

def steps (path : String) : List String :=
  (Text.split (· == '/') path).filter fun part => part != "" && part != "."

def join (directory name : String) : String :=
  if Text.endsWith directory "/" then directory ++ name else directory ++ "/" ++ name

def display (path : String) : String := Text.replace path "\\" "/"

def demandsDirectory (path : String) : Bool := Text.endsWith path "/" || Text.endsWith path "/."

end Path

namespace Entry

def isDirectory : Entry → Bool
  | directory _ => true
  | _ => false

def lookup : List String → Entry → Except FileFault Entry
  | [], e => .ok e
  | name :: rest, directory entries =>
    match entries.lookup name with
    | some e => lookup rest e
    | none => .error .notFound
  | _ :: _, _ => .error .notDirectory

-- The names that are left after one more step. Only from a directory can one step
-- back, and not out of the current one.
def follow (e : Entry) (names : List String) (step : String) : Except FileFault (List String) :=
  if step == ".." then
    match e.lookup names with
    | .error fault => .error fault
    | .ok (directory _) => if names.isEmpty then .error .notFound else .ok names.dropLast
    | .ok _ => .error .notDirectory
  else .ok (names ++ [step])

-- The names that lead to a path from the current directory. No path that starts
-- elsewhere leads there.
def names (e : Entry) (path : String) : Except FileFault (List String) :=
  if path.isEmpty || Text.startsWith path "/" then .error .notFound
  else (Path.steps path).foldlM e.follow []

def find (e : Entry) (path : String) : Except FileFault Entry :=
  match e.names path with
  | .error fault => .error fault
  | .ok names =>
    match e.lookup names with
    | .error fault => .error fault
    | .ok found =>
      if Path.demandsDirectory path && !found.isDirectory then .error .notDirectory else .ok found

def exists? (e : Entry) (path : String) : Bool := (e.find path).isOk

def read (e : Entry) (path : String) : Except FileFault String :=
  match e.find path with
  | .error fault => .error fault
  | .ok (text content) => .ok content
  | .ok binary => .error .notText
  | .ok (directory _) => .error .isDirectory

def setEntry (name : String) (new : Entry) : List (String × Entry) → List (String × Entry)
  | [] => [(name, new)]
  | (other, e) :: rest =>
    if other == name then (name, new) :: rest else (other, e) :: setEntry name new rest

mutual

def texts (path : String) : Entry → List (String × String)
  | text content => [(path, content)]
  | binary => []
  | directory entries => textsBelow path entries

def textsBelow (path : String) : List (String × Entry) → List (String × String)
  | [] => []
  | (name, e) :: rest => texts (Path.join path name) e ++ textsBelow path rest

end

def insert (new : Entry) : List String → Entry → Entry
  | [], _ => new
  | name :: rest, directory entries =>
    directory (setEntry name (insert new rest ((entries.lookup name).getD (directory []))) entries)
  | _ :: _, e => e

def write (e : Entry) (path content : String) : Except FileFault Entry :=
  match e.names path with
  | .error fault => .error fault
  | .ok names =>
    match e.lookup names.dropLast with
    | .error fault => .error fault
    | .ok (directory entries) =>
      match names.getLast?.bind fun name => entries.lookup name with
      | some (directory _) => .error .isDirectory
      | _ =>
        if names.isEmpty || Path.demandsDirectory path then .error .isDirectory
        else .ok (insert (text content) names e)
    | .ok _ => .error .notDirectory

end Entry

end CodeEntities
