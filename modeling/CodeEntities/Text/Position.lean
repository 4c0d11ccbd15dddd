import CodeEntities.Text.Offset

namespace CodeEntities.Text

def bytes (s : String) : List UInt8 := s.toList.flatMap String.utf8EncodeChar

def lineFeed : UInt8 := 10

structure Position where
  row : Nat
  column : Nat
  deriving Repr, DecidableEq, Inhabited

namespace Position

def lastFeed? (bs : List UInt8) : Option Nat :=
  (bs.reverse.findIdx? (· == lineFeed)).map fun later => bs.length - 1 - later

def behind (bs : List UInt8) : Position where
  row := bs.countP (· == lineFeed)
  column :=
    match lastFeed? bs with
    | some feed => bs.length - feed - 1
    | none => bs.length

-- An offset need not be one between characters. Beyond the text it is taken as the end.
def atOffset (s : String) (offset : Nat) : Position :=
  behind ((bytes s).take (min offset s.utf8ByteSize))

end Position

end CodeEntities.Text
