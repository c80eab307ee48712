import TreeQuery.Proofs.Path.WellFormed
import TreeQuery.Proofs.Query.Positions
import TreeQuery.Query.Eval

/-!
# Slices of arrays

A slice of an array holds the items that indexing gives at its positions, in increasing order. If there are no such
positions it is an empty array, unless its end lies before its start by two steps or more but by fewer than three: then
it is null.
-/

namespace TreeQuery

variable {length : Nat} {start last step : Int} {root : Tree} {dropNulls : Bool} {items : List Tree}

/-- The end of a slice lies before its start, by two steps or more but by fewer than three. -/
def IsTwoStepsShort (length : Nat) (start last step : Int) : Prop :=
  2 * step ≤ sliceBound length start - sliceBound length last ∧
    sliceBound length start - sliceBound length last < 3 * step

instance (length : Nat) (start last step : Int) : Decidable (IsTwoStepsShort length start last step) :=
  inferInstanceAs (Decidable (_ ∧ _))

/-- Quotients are rounded towards zero, so that minus two stands for a whole range of distances. -/
theorem tdiv_add_one_eq_neg_one_iff {gap : Int} (hstep : 0 < step) :
    (-gap).tdiv step + 1 = -1 ↔ 2 * step ≤ gap ∧ gap < 3 * step := by
  rcases Int.le_total 0 gap with hgap | hgap
  · have hquotient : (-gap).tdiv step = -(gap / step) := by rw [Int.neg_tdiv, Int.tdiv_eq_ediv_of_nonneg hgap]
    have hle : 2 ≤ gap / step ↔ 2 * step ≤ gap := Int.le_ediv_iff_mul_le hstep
    have hlt : gap / step < 3 ↔ gap < 3 * step := Int.ediv_lt_iff_lt_mul hstep
    omega
  · have hquotient : 0 ≤ (-gap).tdiv step := Int.tdiv_nonneg (Int.neg_nonneg_of_nonpos hgap) hstep.le
    omega

theorem slicePositions_eq_none_iff (hstep : 0 < step) :
    slicePositions length start last step = none ↔ IsTwoStepsShort length start last step := by
  have hgap : sliceBound length last - sliceBound length start =
      -(sliceBound length start - sliceBound length last) := (Int.neg_sub _ _).symm
  rw [slicePositions, IsTwoStepsShort, hgap, ← tdiv_add_one_eq_neg_one_iff hstep]
  split
  · next hshort => exact iff_of_true rfl hshort
  · next hother => exact iff_of_false (Option.some_ne_none _) hother

/-- Indexing at positions of an array gives the items there. -/
theorem mapM_apply_index {positions : List Nat} (hpositions : ∀ position ∈ positions, position < items.length) :
    positions.mapM (fun position : Nat => (Segment.index position).apply root dropNulls (.array items)) =
      .ok (positions.filterMap (items[·]?)) := by
  induction positions with
  | nil => rfl
  | cons position positions ih =>
      obtain ⟨hposition, hothers⟩ := List.forall_mem_cons.mp hpositions
      obtain ⟨item, hitem⟩ := exists_getElem?_iff.mpr hposition
      have hindex : (Segment.index position).apply root dropNulls (.array items) = .ok item := by
        have hresolve : resolveIndex items.length position = some position :=
          resolveIndex_eq_some_iff.mpr ⟨hposition, .inl rfl⟩
        rw [Segment.apply, Tree.atIndex, hresolve, Option.bind_some, hitem, Option.getD_some]
      rw [List.mapM_cons, hindex, ih hothers, List.filterMap_cons, hitem]
      rfl

/-- **A slice holds what indexing gives at its positions.** The positions are those of the array from the start of the
slice to its end, both included, at whole steps from the start, in increasing order. The slice is the array of the items
there, empty if there are none, but null where the end lies before the start by two steps or more and fewer than
three. -/
theorem Segment.apply_slice (hstep : 0 < step) (root : Tree) (dropNulls : Bool) (items : List Tree) :
    ∃ (positions : List Nat) (selected : List Tree), positions.Pairwise (· < ·) ∧
      (∀ position, position ∈ positions ↔
        position < items.length ∧ sliceBound items.length start ≤ position ∧
          position ≤ sliceBound items.length last ∧ step ∣ position - max (sliceBound items.length start) 0) ∧
      positions.mapM (fun position : Nat => (index position).apply root dropNulls (.array items)) = .ok selected ∧
      (¬ IsTwoStepsShort items.length start last step →
        (slice start last step).apply root dropNulls (.array items) = .ok (.array selected)) ∧
      (IsTwoStepsShort items.length start last step →
        selected = [] ∧ (slice start last step).apply root dropNulls (.array items) = .ok .null) := by
  have hmem (position : Nat) : position ∈ (slicePositions items.length start last step).getD [] ↔
      position < items.length ∧ sliceBound items.length start ≤ position ∧
        position ≤ sliceBound items.length last ∧ step ∣ position - max (sliceBound items.length start) 0 :=
    mem_slicePositions hstep
  refine ⟨_, _, pairwise_slicePositions hstep items.length start last, hmem,
    mapM_apply_index fun position hposition => ((hmem position).mp hposition).1, fun hother => ?_,
    fun hshort => ?_⟩
  · rw [← slicePositions_eq_none_iff hstep] at hother
    obtain ⟨positions, hpositions⟩ := Option.ne_none_iff_exists'.mp hother
    rw [apply, Tree.slice, hpositions]
    rfl
  · have hnone := (slicePositions_eq_none_iff hstep).mpr hshort
    rw [apply, Tree.slice, hnone]
    exact ⟨rfl, rfl⟩

/-- Both bounds count from the end, and the end itself is not reached by whole steps. -/
theorem Segment.apply_slice_steps :
    let items := [Tree.integer 10, .null, .string "x", .bool true, .integer 14]
    (0 : Int) < 2 ∧ ¬ IsTwoStepsShort items.length (-4) (-1) 2 ∧
      ∃ positions : List Nat, positions.Pairwise (· < ·) ∧
        positions.mapM (fun position : Nat => (index position).apply .null true (.array items)) =
          .ok [.null, .bool true] ∧
        (slice (-4) (-1) 2).apply .null true (.array items) = .ok (.array [.null, .bool true]) := by
  intro items
  have hstep : (0 : Int) < 2 := by decide
  have hother : ¬ IsTwoStepsShort items.length (-4) (-1) 2 := by decide
  obtain ⟨positions, selected, hsorted, -, hselected, hslice, -⟩ :=
    @apply_slice (-4) (-1) 2 hstep .null true items
  obtain rfl : [.null, .bool true] = selected := Tree.array.inj (Except.ok.inj (hslice hother))
  exact ⟨hstep, hother, positions, hsorted, hselected, hslice hother⟩

/-- In an array of one item, the slice from position 2 on has its end two steps before its start. It is null, where the
slices from the positions next to it are empty arrays. -/
theorem Path.eval_slice_short :
    let sliced (start : Int) := Path.mk "" [.slice start (-1) 1] false true
    (Segment.slice 2 (-1) 1).WellFormed ∧ (sliced 1).eval (.array [.integer 0]) = .ok (.array []) ∧
      (sliced 2).eval (.array [.integer 0]) = .ok .null ∧ (sliced 3).eval (.array [.integer 0]) = .ok (.array []) :=
  ⟨⟨by decide, by decide⟩, rfl, rfl, rfl⟩

end TreeQuery
