import Mathlib.Algebra.Order.Field.Rat
import Mathlib.Algebra.Order.Ring.Unbundled.Basic
import Mathlib.Order.Compare
import Mathlib.Tactic.FieldSimp
import TreeQuery.Proofs.Json.Rereading

/-!
# Numbers as rationals

Integers and decimals stand for rational numbers, and are compared as these. Several forms, such as `1`, `1.0` and
`1.00`, stand for the same number.
-/

namespace TreeQuery

namespace Decimal

/-- The number that a decimal stands for. -/
def toRat (value : Decimal) : ℚ := value.mantissa / tenTo value.scale

theorem toRat_ofInt (value : Int) : (ofInt value).toRat = value := by
  have hone : tenTo 0 = 1 := rfl
  rw [toRat, ofInt, hone, Nat.cast_one, div_one]

/-- Cross-multiplied mantissas are in the order of the quotients. -/
theorem compare_eq (left right : Decimal) : left.compare right = Ord.compare left.toRat right.toRat := by
  have hleft : (0 : ℚ) < tenTo left.scale := Nat.cast_pos.mpr (Nat.pow_pos (by decide))
  have hright : (0 : ℚ) < tenTo right.scale := Nat.cast_pos.mpr (Nat.pow_pos (by decide))
  have hleftCross : left.toRat * (tenTo left.scale * tenTo right.scale) = left.mantissa * tenTo right.scale := by
    rw [toRat]
    field_simp
  have hrightCross : right.toRat * (tenTo left.scale * tenTo right.scale) = right.mantissa * tenTo left.scale := by
    rw [toRat]
    field_simp
  calc left.compare right
      = cmp (left.mantissa * tenTo right.scale) (right.mantissa * tenTo left.scale) := (cmp_eq_compare _ _).symm
    _ = cmp (left.mantissa * tenTo right.scale : ℚ) (right.mantissa * tenTo left.scale) := by
        rw [← (Int.cast_strictMono (R := ℚ)).cmp_map_eq, Int.cast_mul, Int.cast_mul, Int.cast_natCast, Int.cast_natCast]
    _ = cmp (left.toRat * (tenTo left.scale * tenTo right.scale))
          (right.toRat * (tenTo left.scale * tenTo right.scale)) := by rw [hleftCross, hrightCross]
    _ = cmp left.toRat right.toRat := cmp_mul_pos_right (mul_pos hleft hright) _ _
    _ = Ord.compare left.toRat right.toRat := cmp_eq_compare _ _

end Decimal

namespace Tree

/-- The exact value of an integer or a decimal. -/
def number? : Tree → Option ℚ
  | integer value => some value
  | decimal value => some value.toRat
  | _ => none

variable {tree left right : Tree} {x y : ℚ}

theorem number?_eq (tree : Tree) : tree.number? = tree.asDecimal?.map Decimal.toRat := by
  cases tree with
  | integer value => rw [number?, asDecimal?, Option.map_some, Decimal.toRat_ofInt]
  | _ => rfl

theorem isNumber_of_number? (htree : tree.number? = some x) : tree.isNumber = true := by
  cases tree <;> first | rfl | cases htree

theorem exists_number? (hnumber : tree.isNumber = true) (hfloat : tree.isFloat = false) : ∃ x, tree.number? = some x := by
  cases tree with
  | integer value => exact ⟨_, rfl⟩
  | decimal value => exact ⟨_, rfl⟩
  | float value => cases hfloat
  | _ => cases hnumber

/-- Numbers are in the order of their exact values. -/
theorem compareNumbers_eq (hleft : left.number? = some x) (hright : right.number? = some y) :
    left.compareNumbers right = some (compare x y) := by
  rw [number?_eq] at hleft hright
  obtain ⟨first, hfirst, rfl⟩ := Option.map_eq_some_iff.mp hleft
  obtain ⟨second, hsecond, rfl⟩ := Option.map_eq_some_iff.mp hright
  rw [compareNumbers, hfirst, hsecond, ← Decimal.compare_eq]

end Tree

end TreeQuery
