import CodeEntities.Json.Basic
import CodeEntities.Text.Split

namespace CodeEntities.CommandLine

inductive CommandName where
  | parse | calls | languages | scan | init
  deriving Repr, DecidableEq, Inhabited

namespace CommandName

def all : List CommandName := [parse, calls, languages, scan, init]

def text : CommandName → String
  | parse => "parse"
  | calls => "calls"
  | languages => "languages"
  | scan => "scan"
  | init => "init"

def ofText? (s : String) : Option CommandName := all.find? (·.text == s)

end CommandName

inductive Switch where
  | verbose | json | config | noBodies | jobs | force | help | version
  deriving Repr, DecidableEq, Inhabited

namespace Switch

def longName : Switch → String
  | verbose => "verbose"
  | json => "json"
  | config => "config"
  | noBodies => "no-bodies"
  | jobs => "jobs"
  | force => "force"
  | help => "help"
  | version => "version"

def letter? : Switch → Option Char
  | verbose => some 'v'
  | config => some 'c'
  | jobs => some 'j'
  | help => some 'h'
  | version => some 'V'
  | _ => none

def takesValue : Switch → Bool
  | config | jobs => true
  | _ => false

end Switch

structure Level where
  switches : List Switch
  -- How many words may follow; before the command there are none.
  maxWords : Nat := 0
  precedesCommand : Bool := false
  deriving Repr

namespace Level

def shared : List Switch := [.verbose, .json, .config]

def program : Level where
  switches := shared ++ [.help, .version]
  precedesCommand := true

def ofCommand : CommandName → Level
  | .parse => { switches := .noBodies :: shared ++ [.help], maxWords := 1 }
  | .calls => { switches := shared ++ [.help], maxWords := 1 }
  | .languages => { switches := shared ++ [.help] }
  | .scan => { switches := .jobs :: shared ++ [.help], maxWords := 1 }
  | .init => { switches := .force :: shared ++ [.help] }

end Level

inductive Halt where
  | usage
  | version
  -- `long` asks for all there is to say.
  | help (long : Bool)
  deriving Repr, DecidableEq

structure Given where
  verbose : Bool := false
  json : Bool := false
  noBodies : Bool := false
  force : Bool := false
  config : Option String := none
  jobs : Option Nat := none
  words : List String := []
  deriving Repr, DecidableEq, Inhabited

namespace Given

-- A count in decimal digits, perhaps after a plus sign.
def count? (s : String) : Option Nat :=
  let digits := match s.toList with
    | '+' :: rest => rest
    | all => all
  if digits.isEmpty || !digits.all (·.isDigit) then none
  else
    let n := digits.foldl (fun n c => 10 * n + (c.toNat - '0'.toNat)) 0
    if n ≤ Json.maxSize then some n else none

def set (g : Given) (isLong : Bool) : Switch → Except Halt Given
  | .verbose => if g.verbose then .error .usage else .ok { g with verbose := true }
  | .json => if g.json then .error .usage else .ok { g with json := true }
  | .noBodies => if g.noBodies then .error .usage else .ok { g with noBodies := true }
  | .force => if g.force then .error .usage else .ok { g with force := true }
  | .help => .error (.help isLong)
  | .version => .error .version
  | .config | .jobs => .error .usage

def setValue (g : Given) (value : String) : Switch → Except Halt Given
  | .config =>
    if g.config.isSome || value.isEmpty then .error .usage else .ok { g with config := some value }
  | .jobs =>
    match g.jobs, count? value with
    | none, some n => .ok { g with jobs := some n }
    | _, _ => .error .usage
  | _ => .error .usage

def addWord (l : Level) (g : Given) (word : String) : Except Halt Given :=
  if word.isEmpty || l.maxWords ≤ g.words.length then .error .usage
  else .ok { g with words := g.words ++ [word] }

end Given

inductive Reading where
  | word
  -- Whatever follows is a word.
  | terminator
  | long (name : String) (value : Option String)
  | letters (cs : List Char)
  deriving Repr, DecidableEq

namespace Reading

-- A single dash is a word.
def ofArgument (arg : String) : Reading :=
  if arg == "--" then terminator
  else
    match Text.dropPrefix? arg "--" with
    | some body =>
      match Text.cut? body "=" with
      | some (name, value) => long name (some value)
      | none => long body none
    | none =>
      match arg.toList with
      | '-' :: c :: cs => letters (c :: cs)
      | _ => word

end Reading

namespace Level

def readLong (l : Level) (g : Given) (name : String) (value : Option String) :
    Except Halt (Given × Option Switch) :=
  match l.switches.find? (·.longName == name), value with
  | none, _ => .error .usage
  | some s, none => if s.takesValue then .ok (g, some s) else (g.set true s).map (·, none)
  | some s, some value =>
    if s.takesValue then (g.setValue value s).map (·, none) else .error .usage

-- Letters of one argument. What follows a letter that takes a value is its value.
def readLetters (l : Level) (g : Given) : List Char → Except Halt (Given × Option Switch)
  | [] => .ok (g, none)
  | c :: cs =>
    match l.switches.find? (·.letter? == some c) with
    | none => .error .usage
    | some s =>
      if s.takesValue then
        match cs with
        | [] => .ok (g, some s)
        | '=' :: value => (g.setValue (String.ofList value) s).map (·, none)
        | value => (g.setValue (String.ofList value) s).map (·, none)
      else
        match g.set false s with
        | .error halt => .error halt
        | .ok g => l.readLetters g cs

-- Reads the arguments of a level. Before the command, reading ends at the first
-- word; the second part is what is left from there. `awaiting` is a switch whose
-- value comes next.
def read (l : Level) (g : Given) (awaiting : Option Switch) :
    List String → Except Halt (Given × List String)
  | [] => if awaiting.isSome then .error .usage else .ok (g, [])
  | arg :: rest =>
    match Reading.ofArgument arg, awaiting with
    | .word, some s =>
      match g.setValue arg s with
      | .error halt => .error halt
      | .ok g => l.read g none rest
    | _, some _ => .error .usage
    | .word, none =>
      if l.precedesCommand then .ok (g, arg :: rest)
      else
        match g.addWord l arg with
        | .error halt => .error halt
        | .ok g => l.read g none rest
    | .terminator, none => (rest.foldlM (Given.addWord l) g).map (·, [])
    | .long name value, none =>
      match l.readLong g name value with
      | .error halt => .error halt
      | .ok (g, awaiting) => l.read g awaiting rest
    | .letters cs, none =>
      match l.readLetters g cs with
      | .error halt => .error halt
      | .ok (g, awaiting) => l.read g awaiting rest

end Level

inductive Command where
  | parse (file : String) (noBodies : Bool)
  | calls (file : String)
  | languages
  | scan (path : String) (jobs : Option Nat)
  | init (force : Bool)
  deriving Repr, DecidableEq

namespace Command

def name : Command → CommandName
  | parse .. => .parse
  | calls .. => .calls
  | languages => .languages
  | scan .. => .scan
  | init .. => .init

-- A file has to be named; without a path the current directory is scanned.
def ofGiven? (g : Given) : CommandName → Option Command
  | .parse => g.words.head?.map fun file => parse file g.noBodies
  | .calls => g.words.head?.map calls
  | .languages => some languages
  | .scan => some (scan (g.words.headD ".") g.jobs)
  | .init => some (init g.force)

end Command

structure Invocation where
  verbose : Bool := false
  json : Bool := false
  config : Option String := none
  command : Command
  deriving Repr, DecidableEq

inductive Topic where
  | program
  | command (name : CommandName)
  | help
  deriving Repr, DecidableEq

inductive Request where
  | run (invocation : Invocation)
  | version
  | help (topic : Topic) (long : Bool)
  | usage
  deriving Repr, DecidableEq

namespace Request

def ofHalt (topic : Topic) : Halt → Request
  | .usage => usage
  | .version => version
  | .help long => help topic long

-- A shared switch counts on either side of the command; of two values the later
-- one does.
def ofLevels (before : Given) (name : CommandName) (after : Given) : Request :=
  match Command.ofGiven? after name with
  | none => usage
  | some command =>
    run {
      verbose := before.verbose || after.verbose
      json := before.json || after.json
      config := after.config.or before.config
      command }

def ofHelpWords : List String → Request
  | [] => help .program true
  | ["help"] => help .help true
  | [word] => ((CommandName.ofText? word).map fun name => help (.command name) true).getD usage
  | _ => usage

def ofArguments (args : List String) : Request :=
  match Level.program.read {} none args with
  | .error halt => ofHalt .program halt
  | .ok (_, []) => usage
  | .ok (before, word :: rest) =>
    match CommandName.ofText? word with
    | some name =>
      match (Level.ofCommand name).read {} none rest with
      | .error halt => ofHalt (.command name) halt
      | .ok (after, _) => ofLevels before name after
    | none => if word == "help" then ofHelpWords rest else usage

end Request

end CodeEntities.CommandLine
