import TreeQuery.Proofs.Query.Plain
import TreeQuery.Proofs.Query.Properties

/-!
# Where plain paths lead nowhere

Where a plain segment finds no child, or null, evaluation still goes on: with null, with the size of a container, or
with a scalar that an index leaves as it is. All of these are scalars, and below a scalar there are only scalars. So
what evaluation finds besides scalars is where the segments lead.
-/

namespace TreeQuery

open TreeQuery.Tree

variable {segment : Segment} {segments : List Segment} {root tree found : Tree} {dropNulls : Bool}

theorem Tree.atIndex_of_isScalar (hscalar : tree.isScalar = true) (index : Int) :
    tree.atIndex index = null ∨ tree.atIndex index = tree := by
  by_cases hindex : index = 0
  · cases tree <;> first | exact .inr (if_pos hindex) | exact .inl rfl | cases hscalar
  · cases tree <;> first | exact .inl (if_neg hindex) | exact .inl rfl | cases hscalar

/-- Besides scalars, a plain segment that maps over nothing is taken from an object, or is an index of an array. -/
theorem Tree.container_cases (hplain : segment.isPlain = true) (hrecordFree : tree.recordFree = true)
    (hmaps : tree.maps segment = false) (hscalar : tree.isScalar = false) :
    (∃ entries, tree = object entries) ∨ ∃ items index, tree = array items ∧ segment = .index index := by
  cases tree with
  | object entries => exact .inl ⟨entries, rfl⟩
  | array items =>
      rcases Segment.exists_of_isPlain hplain with ⟨name, rfl⟩ | ⟨index, rfl⟩
      · cases hmaps
      · exact .inr ⟨items, index, rfl, rfl⟩
  | record handle entries => cases hrecordFree
  | _ => cases hscalar

namespace Segment

theorem exists_apply_of_isScalar (hplain : segment.isPlain = true) (hscalar : tree.isScalar = true)
    (htext : tree.isObjectText = false) :
    ∃ found, segment.apply root dropNulls tree = .ok found ∧ found.isScalar = true ∧ found.isObjectText = false := by
  rcases exists_of_isPlain hplain with ⟨name, rfl⟩ | ⟨index, rfl⟩
  · rw [apply, property_of_isScalar hscalar (objectTextFree_of_isScalar hscalar htext)]
    exact ⟨null, rfl, rfl, rfl⟩
  · rw [apply]
    rcases atIndex_of_isScalar hscalar index with hnull | hself
    · rw [hnull]
      exact ⟨null, rfl, rfl, rfl⟩
    · rw [hself]
      exact ⟨tree, rfl, hscalar, htext⟩

/-- Below a scalar there are only scalars. -/
theorem exists_applyAll_of_isScalar (hplain : ∀ segment ∈ segments, segment.isPlain = true)
    (hscalar : tree.isScalar = true) (htext : tree.isObjectText = false) :
    ∃ found, applyAll root dropNulls segments tree = .ok found ∧ found.isScalar = true := by
  induction segments generalizing tree with
  | nil => exact ⟨tree, by rw [applyAll], hscalar⟩
  | cons segment segments ih =>
      obtain ⟨hsegment, hsegments⟩ := List.forall_mem_cons.mp hplain
      obtain ⟨next, happly, hscalar, htext⟩ := exists_apply_of_isScalar hsegment hscalar htext
      rw [applyAll, happly]
      exact ih hsegments hscalar htext

theorem applyAll_null (hplain : ∀ segment ∈ segments, segment.isPlain = true) :
    applyAll root dropNulls segments null = .ok null := by
  induction segments with
  | nil => rw [applyAll]
  | cons segment segments ih =>
      obtain ⟨hsegment, hsegments⟩ := List.forall_mem_cons.mp hplain
      have happly : segment.apply root dropNulls null = .ok null := by
        rcases exists_of_isPlain hsegment with ⟨name, rfl⟩ | ⟨index, rfl⟩ <;> rw [apply] <;> rfl
      rw [applyAll, happly]
      exact ih hsegments

/-- A property of a scalar is null, and so is all below. -/
theorem applyAll_property_of_isScalar {name : String} (hplain : ∀ segment ∈ segments, segment.isPlain = true)
    (hscalar : tree.isScalar = true) (htext : tree.isObjectText = false) :
    applyAll root dropNulls (property name false :: segments) tree = .ok null := by
  rw [applyAll, apply, property_of_isScalar hscalar (objectTextFree_of_isScalar hscalar htext)]
  exact applyAll_null hplain

/-- What a missing child, or a null one, is read as. -/
theorem exists_apply_of_missing (hplain : segment.isPlain = true) (hrecordFree : tree.recordFree = true)
    (hmaps : tree.maps segment = false) (htext : tree.isObjectText = false)
    (hmissing : (tree.child? segment).getD null = null) :
    ∃ found, segment.apply root dropNulls tree = .ok found ∧ found.isScalar = true ∧ found.isObjectText = false := by
  cases hscalar : tree.isScalar with
  | true => exact exists_apply_of_isScalar hplain hscalar htext
  | false =>
      rcases container_cases hplain hrecordFree hmaps hscalar with ⟨entries, rfl⟩ | ⟨items, index, rfl, rfl⟩
      · rcases exists_of_isPlain hplain with ⟨name, rfl⟩ | ⟨index, rfl⟩
        · have hfind : (Entries.find? entries name).getD null = null := hmissing
          rw [apply, Tree.property, Entries.property, hfind]
          cases isSizeName name with
          | false => exact ⟨null, rfl, rfl, rfl⟩
          | true => exact ⟨integer entries.length, rfl, rfl, rfl⟩
        · exact ⟨null, by rw [apply]; exact congrArg Except.ok hmissing, rfl, rfl⟩
      · exact ⟨null, by rw [apply]; exact congrArg Except.ok hmissing, rfl, rfl⟩

/-- Evaluation finds containers only where the segments lead. -/
theorem descend?_of_applyAll (hplain : ∀ segment ∈ segments, segment.isPlain = true)
    (hrecordFree : tree.recordFree = true) (htext : tree.objectTextFree = true)
    (hnever : tree.neverMaps segments = true) (hfound : applyAll root dropNulls segments tree = .ok found)
    (hscalar : found.isScalar = false) : tree.descend? segments = some found := by
  induction segments generalizing tree with
  | nil =>
      rw [applyAll] at hfound
      exact congrArg some (Except.ok.inj hfound)
  | cons segment segments ih =>
      obtain ⟨hsegment, hsegments⟩ := List.forall_mem_cons.mp hplain
      rw [applyAll] at hfound
      by_cases hmissing : (tree.child? segment).getD null = null
      · obtain ⟨next, happly, hnext, hnextText⟩ := exists_apply_of_missing hsegment hrecordFree
          (maps_of_neverMaps hnever) (isObjectText_of_objectTextFree htext) hmissing
        rw [happly] at hfound
        obtain ⟨below, hbelow, hbelowScalar⟩ := exists_applyAll_of_isScalar hsegments hnext hnextText
        obtain rfl : below = found := Except.ok.inj (hbelow.symm.trans hfound)
        rw [hscalar] at hbelowScalar
        cases hbelowScalar
      · obtain ⟨child, hchild, hpresent⟩ := exists_child?_of_getD_ne hmissing
        rw [apply_of_child? hsegment hchild fun _ _ _ => hpresent] at hfound
        refine descend?_cons_eq_some.mpr ⟨child, hchild, ?_⟩
        exact ih hsegments (everywhere_of_child? hrecordFree hchild) (everywhere_of_child? htext hchild)
          (neverMaps_of_child? hnever hchild) hfound

end Segment

end TreeQuery
