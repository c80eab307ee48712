import TreeQuery.Power

/-!
Decimals with at most 96 bits of mantissa and at most 28 places. Equal values may differ in form:
`1`, `1.0` and `1.00` are three decimals that compare equal.
-/

namespace TreeQuery

/-- The number `mantissa / 10 ^ scale`. -/
structure Decimal where
  mantissa : Int
  scale : Nat
deriving DecidableEq, Repr, Inhabited

namespace Decimal

/-- Mantissas stay below this bound in absolute value. -/
def mantissaBound : Nat := twoTo 96

def maxScale : Nat := 28

def InRange (value : Decimal) : Prop :=
  value.mantissa.natAbs < mantissaBound ∧ value.scale ≤ maxScale

instance (value : Decimal) : Decidable value.InRange :=
  inferInstanceAs (Decidable (_ ∧ _))

def ofInt (value : Int) : Decimal := ⟨value, 0⟩

def compare (left right : Decimal) : Ordering :=
  Ord.compare (left.mantissa * tenTo right.scale) (right.mantissa * tenTo left.scale)

def floor (value : Decimal) : Int := value.mantissa.fdiv (tenTo value.scale)

end Decimal

end TreeQuery
