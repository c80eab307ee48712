import Mathlib.Data.List.Sort
import TreeQuery.Query.Position

/-!
# Positions in arrays

An index stands for one position at most. A slice is a progression of positions, cut off at the end of the array;
they are in increasing order, so that they and the items there are known once it is known which positions belong
to the slice.
-/

namespace TreeQuery

theorem resolveIndex_eq_some_iff {length position : Nat} {index : Int} :
    resolveIndex length index = some position ↔
      position < length ∧ (position = index ∨ position = index + length) := by
  rw [resolveIndex]
  split
  · split
    · rw [Option.some.injEq]
      omega
    · simp only [reduceCtorEq, false_iff]
      omega
  · split
    · rw [Option.some.injEq]
      omega
    · simp only [reduceCtorEq, false_iff]
      omega

/-! ### Progressions -/

section Progressions

variable {length step fuel position start : Nat} {last : Int}

theorem le_of_mem_progression (hmem : position ∈ progression length last step fuel start) : start ≤ position := by
  induction fuel generalizing start with
  | zero => cases hmem
  | succ fuel ih =>
      rw [progression] at hmem
      split at hmem
      · rcases List.mem_cons.mp hmem with rfl | hmem
        · exact Nat.le_refl _
        · exact Nat.le_trans (Nat.le_add_right _ _) (ih hmem)
      · cases hmem

theorem pairwise_progression (hstep : 0 < step) (length : Nat) (last : Int) (fuel start : Nat) :
    (progression length last step fuel start).Pairwise (· < ·) := by
  induction fuel generalizing start with
  | zero => exact .nil
  | succ fuel ih =>
      rw [progression]
      split
      · refine .cons (fun position hmem => ?_) (ih _)
        have hle := le_of_mem_progression hmem
        omega
      · exact .nil

/-- With fuel for every position up to the end of the array, none is missed. -/
theorem mem_progression (hstep : 0 < step) (hfuel : length ≤ fuel + start) :
    position ∈ progression length last step fuel start ↔
      position < length ∧ start ≤ position ∧ position ≤ last ∧ step ∣ position - start := by
  induction fuel generalizing start with
  | zero =>
      rw [progression]
      simp only [List.not_mem_nil, false_iff]
      omega
  | succ fuel ih =>
      rw [progression]
      split
      · next hinside =>
          have hfuel' : length ≤ fuel + (start + step) := by omega
          rw [List.mem_cons, ih hfuel']
          constructor
          · rintro (rfl | ⟨hlt, hle, hlast, hdvd⟩)
            · exact ⟨hinside.2, Nat.le_refl _, hinside.1, by simp⟩
            · refine ⟨hlt, by omega, hlast, ?_⟩
              have hsum : position - start = position - (start + step) + step := by omega
              exact hsum ▸ Nat.dvd_add hdvd (Nat.dvd_refl step)
          · rintro ⟨hlt, hle, hlast, hdvd⟩
            rcases Nat.eq_or_lt_of_le hle with rfl | hbehind
            · exact .inl rfl
            · have hnext : step ≤ position - start := Nat.le_of_dvd (by omega) hdvd
              have hdiff : position - (start + step) = position - start - step := by omega
              exact .inr ⟨hlt, by omega, hlast, hdiff ▸ Nat.dvd_sub hdvd (Nat.dvd_refl step)⟩
      · next houtside =>
          simp only [List.not_mem_nil, false_iff]
          omega

end Progressions

/-! ### Slices -/

section Slices

variable {length position : Nat} {start last step : Int}

theorem pairwise_slicePositions (hstep : 0 < step) (length : Nat) (start last : Int) :
    ((slicePositions length start last step).getD []).Pairwise (· < ·) := by
  rw [slicePositions]
  split
  · exact .nil
  · exact pairwise_progression (by omega) _ _ _ _

theorem nodup_slicePositions (hstep : 0 < step) (length : Nat) (start last : Int) :
    ((slicePositions length start last step).getD []).Nodup :=
  (pairwise_slicePositions hstep length start last).imp Nat.ne_of_lt

/-- A slice that gives no list at all has its end before its start, so that no position lies between them. -/
theorem mem_slicePositions (hstep : 0 < step) :
    position ∈ (slicePositions length start last step).getD [] ↔
      position < length ∧ sliceBound length start ≤ position ∧ position ≤ sliceBound length last ∧
        step ∣ position - max (sliceBound length start) 0 := by
  rw [slicePositions]
  split
  · next hnone =>
      have hbefore : sliceBound length last < sliceBound length start := by
        by_contra hle
        have hquotient := Int.tdiv_nonneg (Int.sub_nonneg_of_le (Int.not_lt.mp hle)) hstep.le
        omega
      simp only [Option.getD_none, List.not_mem_nil, false_iff]
      omega
  · obtain ⟨stride, rfl⟩ := Int.eq_ofNat_of_zero_le hstep.le
    obtain ⟨first, hfirst⟩ := Int.eq_ofNat_of_zero_le (Int.le_max_right (sliceBound length start) 0)
    rw [Option.getD_some, mem_progression (by omega) (by omega), hfirst]
    simp only [Int.toNat_natCast]
    refine and_congr_right fun _ => ?_
    constructor
    · rintro ⟨hle, hlast, hdvd⟩
      refine ⟨by omega, hlast, ?_⟩
      rw [← Int.natCast_sub hle]
      exact Int.natCast_dvd_natCast.mpr hdvd
    · rintro ⟨hstart, hlast, hdvd⟩
      have hle : first ≤ position := by omega
      rw [← Int.natCast_sub hle] at hdvd
      exact ⟨hle, hlast, Int.natCast_dvd_natCast.mp hdvd⟩

end Slices

/-! ### Items at positions -/

section Items

variable {α : Type} {items : List α} {positions : List Nat} {picks : α × Nat → Bool}

theorem exists_getElem?_iff {position : Nat} : (∃ item, items[position]? = some item) ↔ position < items.length := by
  simp [← Option.isSome_iff_exists]

theorem map_fst_filter_zipIdx (holds : α → Bool) (items : List α) :
    (items.zipIdx.filter fun entry => holds entry.1).map Prod.fst = items.filter holds := by
  have hfilter := List.filter_map (f := Prod.fst) (p := holds) (l := items.zipIdx)
  rw [List.zipIdx_map_fst] at hfilter
  exact hfilter.symm

/-- Increasing positions are known by their members. -/
theorem eq_map_snd_filter_zipIdx (hsorted : positions.Pairwise (· < ·))
    (hmem : ∀ position, position ∈ positions ↔ ∃ item, items[position]? = some item ∧ picks (item, position) = true) :
    positions = (items.zipIdx.filter picks).map Prod.snd := by
  have hpicked : ((items.zipIdx.filter picks).map Prod.snd).Pairwise (· < ·) := by
    have hall : (items.zipIdx.map Prod.snd).Pairwise (· < ·) := by
      rw [List.zipIdx_map_snd]
      exact List.pairwise_lt_range'
    exact hall.sublist (List.filter_sublist.map Prod.snd)
  refine hsorted.eq_of_mem_iff hpicked fun position => ?_
  simp [hmem, List.mem_zipIdx_iff_getElem?]

theorem filterMap_getElem?_eq (hsorted : positions.Pairwise (· < ·))
    (hmem : ∀ position, position ∈ positions ↔ ∃ item, items[position]? = some item ∧ picks (item, position) = true) :
    positions.filterMap (items[·]?) = (items.zipIdx.filter picks).map Prod.fst := by
  rw [eq_map_snd_filter_zipIdx hsorted hmem, List.filterMap_map, ← List.filterMap_eq_map]
  refine List.filterMap_congr fun entry hentry => ?_
  exact List.mem_zipIdx_iff_getElem?.mp (List.mem_of_mem_filter hentry)

end Items

end TreeQuery
