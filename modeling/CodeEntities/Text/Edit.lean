import CodeEntities.Text.Position

namespace CodeEntities.Text

-- One replacement of a byte range, with the positions of its three ends. The
-- new end is an offset into the text after the replacement.
structure Edit where
  startByte : Nat
  oldEndByte : Nat
  newEndByte : Nat
  startPosition : Position
  oldEndPosition : Position
  newEndPosition : Position
  deriving Repr, DecidableEq

inductive EditFault where
  | outside (start stop size : Nat)
  | splitsCharacter (start stop : Nat)
  | beyondNewSource (stop size : Nat)
  deriving Repr, DecidableEq

namespace EditFault

def message : EditFault → String
  | outside start stop size => s!"range {start}..{stop} outside source of {size} bytes"
  | splitsCharacter start stop => s!"range {start}..{stop} splits a UTF-8 character"
  | beyondNewSource stop size => s!"edit ends at byte {stop} but new source has {size} bytes"

end EditFault

namespace Edit

def endPosition (start : Position) (inserted : String) : Position :=
  let stop := Position.atOffset inserted inserted.utf8ByteSize
  if stop.row = 0 then ⟨start.row, start.column + stop.column⟩
  else ⟨start.row + stop.row, stop.column⟩

def replacement (old : String) (start oldEnd : Nat) (inserted : String) : Except EditFault Edit :=
  if start > oldEnd || oldEnd > old.utf8ByteSize then
    .error (.outside start oldEnd old.utf8ByteSize)
  else if !isBoundary old.toList start || !isBoundary old.toList oldEnd then
    .error (.splitsCharacter start oldEnd)
  else
    let startPosition := Position.atOffset old start
    .ok {
      startByte := start
      oldEndByte := oldEnd
      newEndByte := start + inserted.utf8ByteSize
      startPosition
      oldEndPosition := Position.atOffset old oldEnd
      newEndPosition := endPosition startPosition inserted }

def apply (edit : Edit) (old inserted : String) : String :=
  slice old 0 edit.startByte ++ inserted ++ slice old edit.oldEndByte old.utf8ByteSize

end Edit

end CodeEntities.Text
