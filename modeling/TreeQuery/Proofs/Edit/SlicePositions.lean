import TreeQuery.Proofs.Edit.Selections
import TreeQuery.Proofs.Query.WideSlices

/-!
# Slices read and edited

Reading a slice, walking through it, assigning to it and removing it all go by the same positions. They are the places
of the array from the start of the slice to its end, both included, at whole steps from the first of them.
-/

namespace TreeQuery

/-- Whether a slice selects a position in an array of this length. -/
def InSlice (length : Nat) (start last step : Int) (position : Nat) : Prop :=
  position < length ∧ sliceBound length start ≤ position ∧ position ≤ sliceBound length last ∧
    step ∣ position - max (sliceBound length start) 0

section Lists

variable {α : Type} {positions : List Nat} {items : List α}

/-- It does not matter in which order places get the same value, nor how often. -/
theorem getElem?_foldl_set (value : α) (positions : List Nat) (items : List α) (index : Nat) :
    (positions.foldl (fun items position => items.set position value) items)[index]? =
      if index ∈ positions then items[index]?.map fun _ => value else items[index]? := by
  induction positions generalizing items with
  | nil => simp
  | cons position positions ih =>
      rw [List.foldl_cons, ih]
      by_cases hfirst : position = index
      · subst hfirst
        rw [List.getElem?_set_self', if_pos List.mem_cons_self]
        split
        · cases items[position]? <;> rfl
        · rfl
      · rw [List.getElem?_set_ne hfirst]
        have hmem : index ∈ position :: positions ↔ index ∈ positions := by
          rw [List.mem_cons, or_iff_right (Ne.symm hfirst)]
        simp only [hmem]

theorem foldl_set_eq_mapIdx (value : α) (positions : List Nat) (items : List α) :
    positions.foldl (fun items position => items.set position value) items =
      items.mapIdx fun position item => if position ∈ positions then value else item := by
  apply List.ext_getElem?
  intro index
  rw [getElem?_foldl_set, List.getElem?_mapIdx]
  by_cases hmem : index ∈ positions
  · simp only [if_pos hmem]
  · simp only [if_neg hmem, Option.map_id']

theorem dropPositions_eq (positions : List Nat) (items : List α) :
    Edit.dropPositions positions items =
      (items.zipIdx.filter fun entry => decide (entry.2 ∉ positions)).map Prod.fst := by
  unfold Edit.dropPositions
  congr 2
  ext entry
  simp

end Lists

/-- **A slice stands for one list of positions.** In increasing order it holds the positions of the array that lie
between the bounds and at whole steps from the first place, whatever the signs of the bounds, and it is missing only if
there are none. It can be computed in 128-bit words. The slice reads as the items at these positions, with null for a
missing list; a walk enters them one after another; an assignment replaces them and nothing else; and a removal keeps
all the others in order. -/
theorem Segment.addresses_slice {length : Nat} {start last step : Int} (hlength : length < twoTo 64)
    (hstart : InWord start) (hlast : InWord last) (hstep : InWord step) (hpos : 0 < step) :
    ∃ positions : List Nat, positions.Pairwise (· < ·) ∧
      (∀ position, position ∈ positions ↔ InSlice length start last step position) ∧
      (slicePositions length start last step = some positions ∨
        slicePositions length start last step = none ∧ positions = []) ∧
      wideSlicePositions? length start last step = some (slicePositions length start last step) ∧
      ∀ items : List Tree, items.length = length →
        (∀ root dropNulls, ∃ answer, (slice start last step).apply root dropNulls (.array items) = .ok answer ∧
          answer.spliced true = positions.filterMap (items[·]?)) ∧
        (∀ (walk : Walk) following edit store,
          walk.step following edit (slice start last step) (.array items) store =
            (Edit.sequence (positions.map (Edit.atPosition (Walk.enter (walk.container? following) edit)))
              items store).map .array) ∧
        (∀ value store, Edit.setLast value (slice start last step) (.array items) store =
          ⟨.array (items.mapIdx fun position item => if position ∈ positions then value else item), store,
            .ok !positions.isEmpty⟩) ∧
        (∀ (walk : Walk) store, walk.removeLast (slice start last step) (.array items) store =
          ⟨.array ((items.zipIdx.filter fun entry => decide (entry.2 ∉ positions)).map Prod.fst), store,
            .ok !positions.isEmpty⟩) := by
  refine ⟨(slicePositions length start last step).getD [], pairwise_slicePositions hpos length start last,
    fun position => mem_slicePositions hpos, ?_, wideSlicePositions?_eq hlength hstart hlast hstep hpos, ?_⟩
  · cases hpositions : slicePositions length start last step with
    | none => exact .inr ⟨rfl, rfl⟩
    | some positions => exact .inl rfl
  · rintro items rfl
    refine ⟨fun root dropNulls => ?_, fun walk following edit store => rfl, fun value store => ?_, fun walk store => ?_⟩
    · refine ⟨_, by rw [apply], ?_⟩
      rw [Tree.slice]
      cases slicePositions items.length start last step with
      | none => rfl
      | some positions => rfl
    · rw [Edit.setLast, Edit.setSlice, foldl_set_eq_mapIdx]
    · rw [Walk.removeLast, Edit.removeSlice, Edit.removePositions, dropPositions_eq]

/-- The bounds and the step are the least and the greatest words. The slice takes the first item, as a step from there
leads out of every array. -/
theorem Segment.addresses_slice_extremes :
    let least : Int := -(twoTo 63 : Int)
    let greatest : Int := (twoTo 63 : Int) - 1
    let items := [Tree.integer 10, .null, .integer 30]
    (3 < twoTo 64 ∧ InWord least ∧ InWord greatest ∧ 0 < greatest) ∧
      wideSlicePositions? 3 least greatest greatest = some (some [0]) ∧
      (∃ answer, (slice least greatest greatest).apply .null true (.array items) = .ok answer ∧
        answer.spliced true = [.integer 10]) ∧
      Edit.setLast (.bool true) (slice least greatest greatest) (.array items) Store.empty =
        ⟨.array [.bool true, .null, .integer 30], Store.empty, .ok true⟩ ∧
      (Walk.mk .null true .nothing).removeLast (slice least greatest greatest) (.array items) Store.empty =
        ⟨.array [.null, .integer 30], Store.empty, .ok true⟩ := by
  intro least greatest items
  have hlength : 3 < twoTo 64 := by decide
  have hleast : InWord least := by decide
  have hgreatest : InWord greatest := by decide
  have hpos : 0 < greatest := by decide
  have hslice : slicePositions 3 least greatest greatest = some [0] := by decide +kernel
  obtain ⟨positions, -, -, hpositions, hwide, hitems⟩ :=
    addresses_slice hlength hleast hgreatest hgreatest hpos
  rw [hslice] at hpositions hwide
  obtain rfl : [0] = positions := by
    rcases hpositions with hsome | ⟨hnone, -⟩
    · exact Option.some.inj hsome
    · cases hnone
  obtain ⟨hread, -, hset, hremove⟩ := hitems items rfl
  exact ⟨⟨hlength, hleast, hgreatest, hpos⟩, hwide, hread .null true, hset (.bool true) Store.empty,
    hremove ⟨.null, true, .nothing⟩ Store.empty⟩

end TreeQuery
