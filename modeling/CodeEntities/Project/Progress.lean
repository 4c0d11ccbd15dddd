namespace CodeEntities

inductive ScanPhase where
  | discovering | analyzing
  deriving Repr, DecidableEq, Inhabited

inductive ScanMessage where
  | started (phase : ScanPhase) (total : Nat)
  | progress (phase : ScanPhase) (file : Option String)
  | finished (phase : ScanPhase)
  | failed (file error : String)
  deriving Repr, DecidableEq, Inhabited

namespace ScanMessage

def isFailure : ScanMessage → Bool
  | failed _ _ => true
  | _ => false

def failures (messages : List ScanMessage) : Nat := messages.countP isFailure

end ScanMessage

end CodeEntities
