import TreeQuery.Decimal.Text
import TreeQuery.Proofs.Query.Positions

/-!
# Slices in words

The bounds and the step of a slice are words of 64 bits, and so is the length of an array. Their positions are computed
in words of twice as many bits, which is always enough: arithmetic that fails as soon as a result does not fit never
fails, and gives the positions that arithmetic on all integers gives.
-/

namespace TreeQuery

/-- Integers that a signed 128-bit word holds. -/
def InWideWord (value : Int) : Prop := -(twoTo 127 : Int) ≤ value ∧ value < twoTo 127

instance (value : Int) : Decidable (InWideWord value) := inferInstanceAs (Decidable (_ ∧ _))

/-- A result of arithmetic in signed 128-bit words, if it fits. -/
def wide? (value : Int) : Option Int := if InWideWord value then some value else none

def wideBound? (length bound : Int) : Option Int := if 0 ≤ bound then some bound else wide? (bound + length)

/-- A progression in words. The next position is computed even if it is not used; there are `fuel` rounds, the last of
which has to find the end. -/
def wideProgression? (length last step : Int) : Nat → Int → Option (List Nat)
  | 0, _ => none
  | fuel + 1, position =>
    if position ≤ last ∧ position < length then do
      let next ← wide? (position + step)
      let others ← wideProgression? length last step fuel next
      return position.toNat :: others
    else some []

/-- The positions of a slice, computed in words. -/
def wideSlicePositions? (length : Nat) (start last step : Int) : Option (Option (List Nat)) := do
  let width ← wide? length
  let start ← wideBound? width start
  let last ← wideBound? width last
  let distance ← wide? (last - start)
  let steps ← wide? (distance.tdiv step)
  let count ← wide? (steps + 1)
  if count = -1 then return none
  let positions ← wideProgression? width last step (length + 1) (max start 0)
  return some positions

variable {length : Nat} {start last step bound value : Int}

theorem twoTo_63 : twoTo 63 = 9223372036854775808 := by decide

theorem twoTo_64 : twoTo 64 = 18446744073709551616 := by decide

theorem twoTo_127 : twoTo 127 = 170141183460469231731687303715884105728 := by decide

/-- There is ample room: results up to 66 bits fit. -/
theorem wide?_eq_some (hlow : -(4 * twoTo 64 : Int) ≤ value) (hhigh : value ≤ 4 * twoTo 64) :
    wide? value = some value := by
  unfold wide?
  apply if_pos
  unfold InWideWord
  rw [twoTo_127]
  rw [twoTo_64] at hlow hhigh
  omega

theorem sliceBound_range (hlength : length < twoTo 64) (hbound : InWord bound) :
    -(twoTo 64 : Int) ≤ sliceBound length bound ∧ sliceBound length bound ≤ twoTo 64 := by
  unfold InWord at hbound
  rw [twoTo_63] at hbound
  rw [twoTo_64] at hlength ⊢
  unfold sliceBound
  split
  · omega
  · omega

theorem wideBound?_eq (hlength : length < twoTo 64) (hbound : InWord bound) :
    wideBound? length bound = some (sliceBound length bound) := by
  have hrange := sliceBound_range hlength hbound
  unfold wideBound? sliceBound at *
  by_cases hpos : 0 ≤ bound
  · rw [if_pos hpos, if_pos hpos]
  · rw [if_neg hpos] at hrange
    rw [if_neg hpos, if_neg hpos]
    apply wide?_eq_some
    · omega
    · omega

/-- A quotient lies between zero and the dividend. -/
theorem wide?_tdiv (step : Int) (hlow : -(2 * twoTo 64 : Int) ≤ value) (hhigh : value ≤ 2 * twoTo 64) :
    wide? (value.tdiv step) = some (value.tdiv step) ∧ wide? (value.tdiv step + 1) = some (value.tdiv step + 1) := by
  have hquotient := Int.natAbs_tdiv_le_natAbs value step
  rw [twoTo_64] at hlow hhigh
  constructor
  · apply wide?_eq_some
    all_goals
      rw [twoTo_64]
      omega
  · apply wide?_eq_some
    all_goals
      rw [twoTo_64]
      omega

/-- The positions stay below the length, so that the next one is at most a step beyond it. One round more than there are
positions finds the end. -/
theorem wideProgression?_eq {stride fuel position : Nat} (hlength : length < twoTo 64) (hstride : stride ≤ twoTo 64)
    (hpos : 0 < stride) (hfuel : length ≤ fuel + position) :
    wideProgression? length last stride (fuel + 1) position = some (progression length last stride fuel position) := by
  induction fuel generalizing position with
  | zero =>
      have hend : ¬((position : Int) ≤ last ∧ (position : Int) < length) := by omega
      rw [wideProgression?, if_neg hend, progression]
  | succ fuel ih =>
      rw [wideProgression?, progression]
      by_cases hinside : (position : Int) ≤ last ∧ position < length
      · have hinside' : (position : Int) ≤ last ∧ (position : Int) < length := by omega
        have hnext : wide? (position + stride : Int) = some ((position + stride : Nat) : Int) := by
          rw [Int.natCast_add]
          apply wide?_eq_some
          · omega
          · omega
        have hothers := @ih (position + stride) (by omega)
        rw [if_pos hinside', if_pos hinside, hnext, Option.bind_eq_bind, Option.bind_some, hothers]
        rfl
      · have hend : ¬((position : Int) ≤ last ∧ (position : Int) < length) := by omega
        rw [if_neg hend, if_neg hinside]

/-- No result leaves the words in which the positions are computed, and the search for positions ends. -/
theorem wideSlicePositions?_eq (hlength : length < twoTo 64) (hstart : InWord start) (hlast : InWord last)
    (hstep : InWord step) (hpos : 0 < step) :
    wideSlicePositions? length start last step = some (slicePositions length start last step) := by
  have hwidth : wide? length = some (length : Int) := by
    apply wide?_eq_some
    · omega
    · omega
  have hstart' := sliceBound_range hlength hstart
  have hlast' := sliceBound_range hlength hlast
  have hdistance : wide? (sliceBound length last - sliceBound length start) =
      some (sliceBound length last - sliceBound length start) := by
    apply wide?_eq_some
    · omega
    · omega
  obtain ⟨hsteps, hcount⟩ := @wide?_tdiv (sliceBound length last - sliceBound length start) step
    (by omega) (by omega)
  have hpositions :
      wideProgression? length (sliceBound length last) step (length + 1) (max (sliceBound length start) 0) =
        some (progression length (sliceBound length last) step.toNat length
          (max (sliceBound length start) 0).toNat) := by
    obtain ⟨stride, rfl⟩ := Int.eq_ofNat_of_zero_le hpos.le
    obtain ⟨first, hfirst⟩ := Int.eq_ofNat_of_zero_le (Int.le_max_right (sliceBound length start) 0)
    have hstride : stride ≤ twoTo 64 := by
      unfold InWord at hstep
      rw [twoTo_63] at hstep
      rw [twoTo_64]
      omega
    rw [hfirst, Int.toNat_natCast, Int.toNat_natCast]
    exact wideProgression?_eq hlength hstride (by omega) (by omega)
  simp only [wideSlicePositions?, slicePositions, Option.bind_eq_bind, hwidth, wideBound?_eq hlength hstart,
    wideBound?_eq hlength hlast, hdistance, hsteps, hcount, hpositions, Option.bind_some]
  split
  · rfl
  · rfl

end TreeQuery
