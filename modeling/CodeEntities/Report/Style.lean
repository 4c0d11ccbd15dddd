import CodeEntities.Text.Letter
import CodeEntities.Text.Split

namespace CodeEntities

-- How a piece of text is shown: codes of colour and weight, in the order in which
-- they are written. Without codes the text stands alone.
structure Style where
  codes : List Nat := []
  deriving Repr, DecidableEq, Inhabited

namespace Style

def paint (s : Style) (text : String) : String :=
  if s.codes.isEmpty then text
  else "\x1b[" ++ Text.join ";" (s.codes.map toString) ++ "m" ++ text ++ "\x1b[0m"

end Style

structure Theme where
  header : Style := {}
  success : Style := {}
  error : Style := {}
  warn : Style := {}
  info : Style := {}
  label : Style := {}
  muted : Style := {}
  caller : Style := {}
  callee : Style := {}
  constructor : Style := {}
  awaited : Style := {}
  deriving Repr, DecidableEq, Inhabited

namespace Theme

def colored : Theme where
  header := ⟨[96, 1]⟩
  success := ⟨[32, 1]⟩
  error := ⟨[31, 1]⟩
  warn := ⟨[33, 1]⟩
  info := ⟨[94]⟩
  label := ⟨[90]⟩
  muted := ⟨[37, 2]⟩
  caller := ⟨[95, 1]⟩
  callee := ⟨[97]⟩
  constructor := ⟨[92]⟩
  awaited := ⟨[93, 3]⟩

def plain : Theme := {}

-- A call that builds an object is shown as that, also when it is waited for.
def callSite (t : Theme) (isConstructor isAwaited : Bool) : Style :=
  if isConstructor then t.constructor else if isAwaited then t.awaited else t.callee

end Theme

inductive ColorChoice where
  | automatic | always | never
  deriving Repr, DecidableEq, Inhabited

namespace ColorChoice

-- An explicit choice beats the general wish for no colours.
def ofSettings (choice : Option String) (noColor : Bool) : ColorChoice :=
  match choice.map fun text => Text.foldAscii (Text.trim text) with
  | some "always" => always
  | some "never" => never
  | _ => if noColor then never else automatic

def theme (choice : ColorChoice) (isTerminal : Bool) : Theme :=
  match choice with
  | always => .colored
  | never => .plain
  | automatic => if isTerminal then .colored else .plain

end ColorChoice

end CodeEntities
