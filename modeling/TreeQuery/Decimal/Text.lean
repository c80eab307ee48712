import TreeQuery.Decimal.Basic

/-!
The written form of decimals, and the two grammars they are read from: plain digits with a fraction,
and plain digits followed by an exponent.
-/

namespace TreeQuery

def digitValue (c : Char) : Nat := c.toNat - '0'.toNat

def digitsValue (digits : List Char) : Nat :=
  digits.foldl (fun value c => 10 * value + digitValue c) 0

def natOfDigits? (digits : List Char) : Option Nat :=
  if digits.isEmpty || !digits.all Char.isDigit then none else some (digitsValue digits)

def InWord (value : Int) : Prop := -(twoTo 63 : Int) ≤ value ∧ value < twoTo 63

instance (value : Int) : Decidable (InWord value) := inferInstanceAs (Decidable (_ ∧ _))

def wordOfChars? (text : List Char) : Option Int :=
  let value : Option Int := match text with
    | '-' :: digits => (natOfDigits? digits).map fun n => -(n : Int)
    | '+' :: digits => (natOfDigits? digits).map Int.ofNat
    | digits => (natOfDigits? digits).map Int.ofNat
  value.filter fun n => decide (InWord n)

namespace Decimal

/-- Digits of a natural number with a point before the last `scale` of them. -/
def placePoint (digits : List Char) (scale : Nat) : List Char :=
  if scale = 0 then digits
  else
    let padded := List.replicate (scale + 1 - digits.length) '0' ++ digits
    padded.take (padded.length - scale) ++ '.' :: padded.drop (padded.length - scale)

def toChars (value : Decimal) : List Char :=
  let magnitude := placePoint (Nat.toDigits 10 value.mantissa.natAbs) value.scale
  if value.mantissa < 0 then '-' :: magnitude else magnitude

/-- All places are written, so `1.50` keeps its zero. -/
def toText (value : Decimal) : String := String.ofList value.toChars

/--
Settles a mantissa whose next digit no longer fits: a digit from five up rounds away from zero, and a
mantissa that rounding pushes over the bound gives up one more place.
-/
def rounded? (mantissa scale next : Nat) : Option (Nat × Nat) :=
  if next < 5 then some (mantissa, scale)
  else if mantissa + 1 < mantissaBound then some (mantissa + 1, scale)
  else if scale = 0 then none
  else some ((mantissa + 5) / 10, scale - 1)

/-- Reads the digits of a fraction for as long as they fit. The first that does not settles the rounding,
and what follows it is not looked at. -/
def readFraction (mantissa scale : Nat) : List Char → Option (Nat × Nat)
  | [] => some (mantissa, scale)
  | c :: text =>
    let extended := 10 * mantissa + digitValue c
    if !c.isDigit then none
    else if scale < maxScale ∧ extended < mantissaBound then readFraction extended (scale + 1) text
    else rounded? mantissa scale (digitValue c)

def readMagnitude? (text : List Char) : Option (Nat × Nat) :=
  let whole := text.takeWhile (· != '.')
  let fraction := (text.dropWhile (· != '.')).drop 1
  if (whole ++ fraction).isEmpty || !whole.all Char.isDigit then none
  else if digitsValue whole < mantissaBound then readFraction (digitsValue whole) 0 fraction
  else none

def withSign (negative : Bool) (mantissa scale : Nat) : Decimal :=
  ⟨if negative then -(mantissa : Int) else mantissa, scale⟩

def ofPlain? : List Char → Option Decimal
  | '-' :: text => (readMagnitude? text).map fun (mantissa, scale) => withSign true mantissa scale
  | text => (readMagnitude? text).map fun (mantissa, scale) => withSign false mantissa scale

def shiftDown? (value : Decimal) (places : Nat) : Option Decimal :=
  if value.scale + places ≤ maxScale then some ⟨value.mantissa, value.scale + places⟩ else none

/-- Moves the point to the right; zeros are added once no place is left. -/
def shiftUp? (value : Decimal) (places : Nat) : Option Decimal :=
  if places ≤ value.scale then some ⟨value.mantissa, value.scale - places⟩
  else if maxScale < places then none
  else
    let mantissa := value.mantissa * tenTo (places - value.scale)
    if mantissa.natAbs < mantissaBound then some ⟨mantissa, 0⟩ else none

def isExponentMark (c : Char) : Bool := c == 'e' || c == 'E'

def ofScientific? (text : List Char) : Option Decimal := do
  let base ← ofPlain? (text.takeWhile (!isExponentMark ·))
  match text.dropWhile (!isExponentMark ·) with
  | _ :: '-' :: digits => base.shiftDown? (← natOfDigits? digits)
  | _ :: '+' :: digits => base.shiftUp? (← natOfDigits? digits)
  | _ :: digits => base.shiftUp? (← natOfDigits? digits)
  | [] => none

end Decimal

end TreeQuery
