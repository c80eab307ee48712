import TreeQuery.Binary64.Basic
import TreeQuery.Decimal.Text

/-!
The decimal form of a binary number: the fewest digits that read back to it, written out in full or
with an exponent; and the way back.
-/

namespace TreeQuery.Binary64

/-- A positive decimal `digits * 10 ^ power`. -/
structure Digits where
  digits : Nat
  power : Int
deriving DecidableEq, Repr

def digitCount (n : Nat) : Nat := (Nat.toDigits 10 n).length

/-- The reals that round to a number, as bounds in quarters of the unit in its last place. -/
structure Interval where
  low : Nat
  value : Nat
  high : Nat
  closed : Bool
  /-- The unit of the three bounds is `2 ^ exponent`. -/
  exponent : Int

def Interval.around (significand : Nat) (exponent : Int) : Interval where
  low := if significand = twoTo 52 ∧ minExponent < exponent then 4 * significand - 1 else 4 * significand - 2
  value := 4 * significand
  high := 4 * significand + 2
  closed := significand % 2 == 0
  exponent := exponent - 2

def Interval.scales (i : Interval) (power : Int) : Nat × Nat :=
  (tenTo power.toNat * twoTo (-i.exponent).toNat, tenTo (-power).toNat * twoTo i.exponent.toNat)

def Interval.holds (i : Interval) (candidate : Digits) : Bool :=
  let (up, down) := i.scales candidate.power
  let point := candidate.digits * up
  if i.closed then i.low * down ≤ point && point ≤ i.high * down
  else i.low * down < point && point < i.high * down

/-- The decimal exponent of the leading digit; no positive number lies below `10 ^ (-330)`. -/
def Interval.magnitude (i : Interval) : Int :=
  let (n, d) := (i.value * twoTo i.exponent.toNat * tenTo 330, twoTo (-i.exponent).toNat)
  (digitCount (n / d) : Int) - 331

/-- Of the two neighbours with so many digits, the nearer one that reads back; a tie goes up. -/
def Interval.neighbour? (i : Interval) (count : Nat) : Option Digits :=
  let power := i.magnitude - (count - 1)
  let (up, down) := i.scales power
  let below : Digits := ⟨i.value * down / up, power⟩
  let above : Digits := ⟨below.digits + 1, power⟩
  let nearer := if 2 * (i.value * down) < (2 * below.digits + 1) * up then [below, above] else [above, below]
  nearer.find? i.holds

def Digits.strip (d : Digits) : Nat → Digits
  | 0 => d
  | count + 1 => if d.digits % 10 = 0 then Digits.strip ⟨d.digits / 10, d.power + 1⟩ count else d

def shortest (significand : Nat) (exponent : Int) : Digits :=
  if significand = 0 then ⟨0, 0⟩
  else
    let interval := Interval.around significand exponent
    match (List.range 17).findSome? fun n => interval.neighbour? (n + 1) with
    | some found => found.strip 17
    | none => ⟨significand * twoTo exponent.toNat, 0⟩

def withMinus (negative : Bool) (text : List Char) : List Char := if negative then '-' :: text else text

def toChars : Binary64 → List Char
  | nan => ['N', 'a', 'N']
  | infinite negative => withMinus negative ['i', 'n', 'f']
  | finite negative significand exponent =>
    let found := shortest significand exponent
    let digits := Nat.toDigits 10 (found.digits * tenTo found.power.toNat)
    withMinus negative (Decimal.placePoint digits (-found.power).toNat)

def toText (value : Binary64) : String := String.ofList value.toChars

def toScientific (negative : Bool) (significand : Nat) (exponent : Int) : List Char :=
  let found := shortest significand exponent
  let digits := Nat.toDigits 10 found.digits
  let power := found.power + (digits.length - 1 : Nat)
  let sign := if power < 0 then '-' else '+'
  withMinus negative
    (Decimal.placePoint digits (digits.length - 1) ++ 'e' :: sign :: Nat.toDigits 10 power.natAbs)

/-- The nearest number to `mantissa * 10 ^ power`. Beyond 10 ^ 310 all is infinite, below 10 ^ (-330) zero. -/
def ofDecimal (negative : Bool) (mantissa : Nat) (power : Int) : Binary64 :=
  let size := (digitCount mantissa : Int) + power
  if mantissa = 0 ∨ size < -330 then finite negative 0 minExponent
  else if 310 < size then infinite negative
  else nearest negative (mantissa * tenTo power.toNat) (tenTo (-power).toNat)

def ofChars (text : List Char) : Binary64 :=
  let negative := text.head? == some '-'
  let body := if negative then text.drop 1 else text
  let base := body.takeWhile (!Decimal.isExponentMark ·)
  let whole := base.takeWhile (· != '.')
  let fraction := (base.dropWhile (· != '.')).drop 1
  let power : Int := match body.dropWhile (!Decimal.isExponentMark ·) with
    | _ :: '-' :: digits => -(digitsValue digits : Int)
    | _ :: '+' :: digits => digitsValue digits
    | _ :: digits => digitsValue digits
    | [] => 0
  ofDecimal negative (digitsValue (whole ++ fraction)) (power - fraction.length)

end TreeQuery.Binary64
