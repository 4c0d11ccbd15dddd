import CodeEntities.Text.Split
import CodeEntities.Toml.Value

namespace CodeEntities.Toml

def isDigit (c : Char) : Bool := '0' ≤ c && c ≤ '9'

def isHexDigit (c : Char) : Bool := isDigit c || ('a' ≤ c && c ≤ 'f') || ('A' ≤ c && c ≤ 'F')

def digitValue (c : Char) : Nat :=
  if isDigit c then c.toNat - '0'.toNat
  else if 'a' ≤ c then c.toNat - 'a'.toNat + 10
  else c.toNat - 'A'.toNat + 10

def numberOf (base : Nat) (digits : List Char) : Nat :=
  digits.foldl (fun n c => n * base + digitValue c) 0

def grouped? (base : Nat) (isDigit : Char → Bool) (cs : List Char) : Option Nat :=
  let groups := Text.pieces (· == '_') cs
  if groups.all fun g => !g.isEmpty && g.all isDigit then some (numberOf base groups.flatten)
  else none

def plainDigits? (cs : List Char) : Option Nat :=
  if cs.head? == some '0' && cs.length > 1 then none else grouped? 10 isDigit cs

def splitSign : List Char → Bool × List Char
  | '-' :: cs => (true, cs)
  | '+' :: cs => (false, cs)
  | cs => (false, cs)

def leastInteger : Int := -9223372036854775808

def greatestInteger : Nat := 9223372036854775807

def integer? (cs : List Char) : Option Int :=
  let magnitude : Option Int :=
    match cs with
    | '0' :: 'x' :: digits => (grouped? 16 isHexDigit digits).map Int.ofNat
    | '0' :: 'o' :: digits => (grouped? 8 (fun c => '0' ≤ c && c ≤ '7') digits).map Int.ofNat
    | '0' :: 'b' :: digits => (grouped? 2 (fun c => c == '0' || c == '1') digits).map Int.ofNat
    | _ =>
      let (isNegative, digits) := splitSign cs
      (plainDigits? digits).map fun n => if isNegative then -(n : Int) else n
  magnitude.filter fun n => decide (leastInteger ≤ n ∧ n ≤ Int.ofNat greatestInteger)

def isExponent (cs : List Char) : Bool := (grouped? 10 isDigit (splitSign cs).2).isSome

def isFloat (cs : List Char) : Bool :=
  let body := (splitSign cs).2
  if body == ['i', 'n', 'f'] || body == ['n', 'a', 'n'] then true
  else
    let mantissa := body.takeWhile fun c => c != 'e' && c != 'E'
    let whole := mantissa.takeWhile (· != '.')
    let fraction := mantissa.drop whole.length
    let exponent := body.drop mantissa.length
    (plainDigits? whole).isSome && !(fraction.isEmpty && exponent.isEmpty) &&
      (fraction.isEmpty || (grouped? 10 isDigit fraction.tail).isSome) &&
      (exponent.isEmpty || isExponent exponent.tail)

def twoDigits? : Char → Char → Option Nat := fun a b =>
  if isDigit a && isDigit b then some (numberOf 10 [a, b]) else none

def daysIn (year month : Nat) : Nat :=
  if month == 2 then
    if year % 4 == 0 && (year % 100 != 0 || year % 400 == 0) then 29 else 28
  else if [4, 6, 9, 11].contains month then 30
  else 31

def dropDate? : List Char → Option (List Char)
  | y₁ :: y₂ :: y₃ :: y₄ :: '-' :: m₁ :: m₂ :: '-' :: d₁ :: d₂ :: rest => do
    let century ← twoDigits? y₁ y₂
    let year ← twoDigits? y₃ y₄
    let month ← twoDigits? m₁ m₂
    let day ← twoDigits? d₁ d₂
    if 1 ≤ month && month ≤ 12 && 1 ≤ day && day ≤ daysIn (century * 100 + year) month then
      some rest
    else none
  | _ => none

def dropTime? : List Char → Option (List Char)
  | h₁ :: h₂ :: ':' :: m₁ :: m₂ :: ':' :: s₁ :: s₂ :: rest => do
    let hour ← twoDigits? h₁ h₂
    let minute ← twoDigits? m₁ m₂
    let second ← twoDigits? s₁ s₂
    if 23 < hour || 59 < minute || 60 < second then none
    else
      match rest with
      | '.' :: digits =>
        if digits.head?.any isDigit then some (digits.dropWhile isDigit) else none
      | _ => some rest
  | _ => none

def isOffset : List Char → Bool
  | [] => true
  | ['Z'] | ['z'] => true
  | [sign, h₁, h₂, ':', m₁, m₂] =>
    (sign == '+' || sign == '-') && (twoDigits? h₁ h₂).any (· ≤ 23) &&
      (twoDigits? m₁ m₂).any (· ≤ 59)
  | _ => false

def isMoment (cs : List Char) : Bool :=
  match dropDate? cs with
  | some [] => true
  | some (c :: rest) => ['T', 't', ' '].contains c && (dropTime? rest).any isOffset
  | none => dropTime? cs == some []

def isScalarChar (c : Char) : Bool := c.isAlphanum || ['_', '+', '-', '.', ':'].contains c

def scalarChars (cs : List Char) : List Char × List Char :=
  let word := cs.takeWhile isScalarChar
  let rest := cs.drop word.length
  match rest with
  | ' ' :: d :: more =>
    if dropDate? word == some [] && isDigit d then
      let time := (d :: more).takeWhile isScalarChar
      (word ++ ' ' :: time, (d :: more).drop time.length)
    else (word, rest)
  | _ => (word, rest)

def scalar? (cs : List Char) : Option Value :=
  let text := String.ofList cs
  if text == "true" then some (.boolean true)
  else if text == "false" then some (.boolean false)
  else
    match integer? cs with
    | some n => some (.integer n)
    | none =>
      if isFloat cs then some (.float text)
      else if isMoment cs then some (.moment text)
      else none

end CodeEntities.Toml
