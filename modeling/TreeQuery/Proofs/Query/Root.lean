import TreeQuery.Proofs.Path.WellFormed
import TreeQuery.Query.Eval

/-!
# What depends on the root

Only filters that refer to another path look at the root; everything else a path does is decided by the value
at hand.
-/

namespace TreeQuery

variable {root root' : Tree} {dropNulls : Bool}

theorem Filter.holds_of_refers_eq_false : ∀ {condition : Filter}, condition.refers = false → ∀ item,
    condition.holds root dropNulls item = condition.holds root' dropNulls item
  | .group .and left right, hrefers, item => by
      obtain ⟨hleft, hright⟩ : left.refers = false ∧ right.refers = false := by simpa [Filter.refers] using hrefers
      rw [Filter.holds, Filter.holds, holds_of_refers_eq_false hleft item, holds_of_refers_eq_false hright item]
  | .group .or left right, hrefers, item => by
      obtain ⟨hleft, hright⟩ : left.refers = false ∧ right.refers = false := by simpa [Filter.refers] using hrefers
      rw [Filter.holds, Filter.holds, holds_of_refers_eq_false hleft item, holds_of_refers_eq_false hright item]
  | .reference .., hrefers, _ => by cases hrefers
  | .present _, _, _ => by rw [Filter.holds, Filter.holds]
  | .absent _, _, _ => by rw [Filter.holds, Filter.holds]
  | .integer .., _, _ => by rw [Filter.holds, Filter.holds]
  | .decimal .., _, _ => by rw [Filter.holds, Filter.holds]
  | .string .., _, _ => by rw [Filter.holds, Filter.holds]
  | .bool .., _, _ => by rw [Filter.holds, Filter.holds]
  | .like .., _, _ => by rw [Filter.holds, Filter.holds]
  | .rlike .., _, _ => by rw [Filter.holds, Filter.holds]
  | .regex .., _, _ => by rw [Filter.holds, Filter.holds]
  | .integers .., _, _ => by rw [Filter.holds, Filter.holds]
  | .strings .., _, _ => by rw [Filter.holds, Filter.holds]
  | .nullableIntegers .., _, _ => by rw [Filter.holds, Filter.holds]
  | .between .., _, _ => by rw [Filter.holds, Filter.holds]

theorem Segment.apply_of_refers_eq_false {segment : Segment} (hrefers : segment.refers = false) (tree : Tree) :
    segment.apply root dropNulls tree = segment.apply root' dropNulls tree := by
  cases segment with
  | filter condition =>
      have hholds : (fun item => condition.holds root dropNulls item) =
          fun item => condition.holds root' dropNulls item :=
        funext fun item => Filter.holds_of_refers_eq_false hrefers item
      rw [Segment.apply, Segment.apply, hholds]
  | property name deep => cases deep <;> rw [Segment.apply, Segment.apply]
  | wildcard deep objectsOnly => cases deep <;> rw [Segment.apply, Segment.apply]
  | _ => rw [Segment.apply, Segment.apply]

/-- Without references the root makes no difference. -/
theorem Segment.applyAll_of_refers_eq_false {segments : List Segment} (hrefers : segments.any Segment.refers = false)
    (tree : Tree) : Segment.applyAll root dropNulls segments tree = Segment.applyAll root' dropNulls segments tree := by
  induction segments generalizing tree with
  | nil => rw [Segment.applyAll, Segment.applyAll]
  | cons segment segments ih =>
      obtain ⟨hsegment, hsegments⟩ : segment.refers = false ∧ segments.any Segment.refers = false := by
        simpa using hrefers
      rw [Segment.applyAll, Segment.applyAll, Segment.apply_of_refers_eq_false hsegment]
      exact congrArg _ (funext (ih hsegments))

end TreeQuery
