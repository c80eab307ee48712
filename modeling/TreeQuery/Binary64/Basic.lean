import TreeQuery.Power

/-!
Binary floating-point numbers of 64 bits, kept as significand and exponent so that rounding and order
are exact arithmetic on integers.
-/

namespace TreeQuery

/-- A finite number is `significand * 2 ^ exponent`, negated when `negative`. -/
inductive Binary64
  | finite (negative : Bool) (significand : Nat) (exponent : Int)
  | infinite (negative : Bool)
  | nan
deriving DecidableEq, Repr, Inhabited

namespace Binary64

def minExponent : Int := -1074

def maxExponent : Int := 971

/-- Splits the 64 bits of the interchange format: one of sign, 11 of exponent, 52 of fraction. -/
def ofBits (bits : Nat) : Binary64 :=
  let negative := bits / twoTo 63 % 2 == 1
  let biased : Nat := bits / twoTo 52 % twoTo 11
  let fraction : Nat := bits % twoTo 52
  if biased = twoTo 11 - 1 then if fraction = 0 then infinite negative else nan
  else if biased = 0 then finite negative fraction minExponent
  else finite negative (twoTo 52 + fraction) ((biased : Int) - 1075)

def scaleBy (numerator denominator : Nat) (exponent : Int) : Nat × Nat :=
  (numerator * twoTo (-exponent).toNat, denominator * twoTo exponent.toNat)

/-- The quotient rounded to a natural number, a half going to the even neighbour. -/
def divideToEven (numerator denominator : Nat) : Nat :=
  let quotient := numerator / denominator
  let twice := 2 * (numerator % denominator)
  if twice < denominator then quotient
  else if denominator < twice then quotient + 1
  else if quotient % 2 = 0 then quotient else quotient + 1

def exponentFor (numerator denominator : Nat) : Int :=
  let guess := max minExponent ((numerator.log2 : Int) - denominator.log2 - 53)
  let (n, d) := scaleBy numerator denominator guess
  if n / d < twoTo 53 then guess else guess + 1

def nearest (negative : Bool) (numerator denominator : Nat) : Binary64 :=
  if numerator = 0 then finite negative 0 minExponent
  else
    let exponent := exponentFor numerator denominator
    let (n, d) := scaleBy numerator denominator exponent
    let significand := divideToEven n d
    let (significand, exponent) :=
      if significand = twoTo 53 then (twoTo 52, exponent + 1) else (significand, exponent)
    if maxExponent < exponent then infinite negative else finite negative significand exponent

def isFinite : Binary64 → Bool
  | finite .. => true
  | _ => false

def compare : Binary64 → Binary64 → Option Ordering
  | nan, _ | _, nan => none
  | infinite left, infinite right => some (Ord.compare right left)
  | infinite negative, finite .. => some (if negative then .lt else .gt)
  | finite .., infinite negative => some (if negative then .gt else .lt)
  | finite s m e, finite s' m' e' =>
    let shared := min e e'
    let signed (negative : Bool) (n : Nat) : Int := if negative then -(n : Int) else n
    some (Ord.compare (signed s (m * twoTo (e - shared).toNat)) (signed s' (m' * twoTo (e' - shared).toNat)))

end Binary64

end TreeQuery
