/-!
Positions in arrays: indices, which count from the end when negative, and slices, which include both
their bounds.
-/

namespace TreeQuery

def resolveIndex (length : Nat) (index : Int) : Option Nat :=
  if 0 ≤ index then if index < length then some index.toNat else none
  else if -index ≤ length then some (length + index).toNat else none

def progression (length : Nat) (last : Int) (step : Nat) : Nat → Nat → List Nat
  | 0, _ => []
  | fuel + 1, position =>
    if (position : Int) ≤ last ∧ position < length then
      position :: progression length last step fuel (position + step)
    else []

/-- A bound of a slice, counted from the end when negative. -/
def sliceBound (length : Nat) (bound : Int) : Int := if 0 ≤ bound then bound else bound + length

/-- The positions of a slice; none at all where its end lies one or two steps before its start. -/
def slicePositions (length : Nat) (start last step : Int) : Option (List Nat) :=
  let start := sliceBound length start
  let last := sliceBound length last
  if (last - start).tdiv step + 1 = -1 then none
  else some (progression length last step.toNat length (max start 0).toNat)

end TreeQuery
