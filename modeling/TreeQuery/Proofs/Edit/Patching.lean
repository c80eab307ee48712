import TreeQuery.Edit.Append
import TreeQuery.Proofs.Edit.Commuting
import TreeQuery.Proofs.Edit.Selections
import TreeQuery.Proofs.Query.Missing

/-!
# Patches

A patch reads the old value in its own way, and builds only the objects that a property needs. Where it succeeds, what
it reads is what evaluation finds, and what it does is what an assignment of the combined value does: what it builds,
the assignment builds too, and in all other cases the way is there.
-/

namespace TreeQuery

open TreeQuery.Tree

variable {segment next last : Segment} {segments : List Segment} {value tree : Tree} {edit : Edit Tree} {store : Store}
  {walk builder : Walk} {replacing : Bool}

/-- Where the edit reports a change, evaluation finds what the segments lead to, or null, and the edit assigns what a
patch makes of that. -/
def Edit.Patches (edit : Edit Tree) (builder : Walk) (segments : List Segment) (value : Tree) (replacing : Bool) : Prop :=
  ∀ (tree : Tree) (store : Store), tree.recordFree = true → tree.neverMaps segments = true →
    (edit tree store).changed = .ok true →
      let old := (tree.descend? segments).getD .null
      tree.isNull = false ∧ (∀ root dropNulls, Segment.applyAll root dropNulls segments tree = .ok old) ∧
        edit tree store = builder.assign (old.patched value replacing) segments tree store

/-! ### The last segment -/

theorem Segment.apply_eq_getD (hplain : last.isPlain = true) (hrecordFree : tree.recordFree = true)
    (hmaps : tree.maps last = false) (hscalar : tree.isScalar = false)
    (hsize : ∀ name, last = .property name false → isSizeName name = false) (root : Tree) (dropNulls : Bool) :
    last.apply root dropNulls tree = .ok ((tree.child? last).getD .null) := by
  rcases container_cases hplain hrecordFree hmaps hscalar with ⟨entries, rfl⟩ | ⟨items, index, rfl, rfl⟩
  · rcases exists_of_isPlain hplain with ⟨name, rfl⟩ | ⟨index, rfl⟩
    · rw [apply, property_object (hsize name rfl)]
      rfl
    · rfl
  · rfl

theorem Edit.patchLast_eq (hplain : last.isPlain = true) (hrecordFree : tree.recordFree = true)
    (hmaps : tree.maps last = false) (hscalar : tree.isScalar = false) :
    patchLast value replacing last tree store =
      setLast (((tree.child? last).getD .null).patched value replacing) last tree store := by
  rcases container_cases hplain hrecordFree hmaps hscalar with ⟨entries, rfl⟩ | ⟨items, index, rfl, rfl⟩
  · rcases Segment.exists_of_isPlain hplain with ⟨name, rfl⟩ | ⟨index, rfl⟩ <;> rfl
  · rfl

theorem Edit.changed_patchLast_of_isScalar (hplain : last.isPlain = true) (hscalar : tree.isScalar = true) :
    (patchLast value replacing last tree store).changed ≠ .ok true := by
  intro hchanged
  rcases Segment.exists_of_isPlain hplain with ⟨name, rfl⟩ | ⟨index, rfl⟩ <;>
    cases tree <;> cases hscalar <;> cases hchanged

theorem Tree.isNull_of_isScalar_eq_false (hscalar : tree.isScalar = false) : tree.isNull = false := by
  cases tree <;> first | rfl | cases hscalar

theorem Edit.patches_patchLast (hplain : last.isPlain = true)
    (hsize : ∀ name, last = .property name false → isSizeName name = false) :
    (patchLast value replacing last).Patches builder [last] value replacing := by
  intro tree store hrecordFree hnever hchanged
  have hmaps := maps_of_neverMaps hnever
  have hscalar : tree.isScalar = false := by
    by_contra hscalar
    exact changed_patchLast_of_isScalar hplain (Bool.not_eq_false _ ▸ hscalar) hchanged
  have hold : tree.descend? [last] = tree.child? last := by
    rw [descend?]
    cases tree.child? last <;> rfl
  rw [hold]
  refine ⟨isNull_of_isScalar_eq_false hscalar, fun root dropNulls => ?_, ?_⟩
  · rw [Segment.applyAll_singleton]
    exact Segment.apply_eq_getD hplain hrecordFree hmaps hscalar hsize root dropNulls
  · exact patchLast_eq hplain hrecordFree hmaps hscalar

/-! ### The segments before -/

theorem Edit.Patches.step_of_child? {child : Tree} (hpatches : edit.Patches builder (next :: segments) value replacing)
    (hplain : segment.isPlain = true) (hrecordFree : tree.recordFree = true)
    (hnever : tree.neverMaps (segment :: next :: segments) = true) (hchild : tree.child? segment = some child)
    (hnull : child.isNull = false)
    (hchanged : (walk.step (some next) edit segment tree store).changed = .ok true) :
    let old := (tree.descend? (segment :: next :: segments)).getD .null
    (∀ root dropNulls, Segment.applyAll root dropNulls (segment :: next :: segments) tree = .ok old) ∧
      walk.step (some next) edit segment tree store =
        builder.assign (old.patched value replacing) (segment :: next :: segments) tree store := by
  rw [Walk.step_of_child? hplain hchild, enter_eq _ hnull] at hchanged ⊢
  obtain ⟨-, hread, hedit⟩ := hpatches child store (everywhere_of_child? hrecordFree hchild)
    (neverMaps_of_child? hnever hchild) hchanged
  rw [descend?, hchild, Option.bind_some]
  refine ⟨fun root dropNulls => ?_, ?_⟩
  · rw [Segment.applyAll, Segment.apply_of_child? hplain hchild fun _ _ _ => hnull]
    exact hread root dropNulls
  · rw [Walk.assign, Walk.step_of_child? hplain hchild, enter_eq _ hnull, hedit]

/-- A child that is missing, or null, becomes an object before a property; evaluation finds null there and below. -/
theorem Edit.Patches.step_of_missing {name : HashedName}
    (hpatches : edit.Patches builder (.property name false :: segments) value replacing)
    (hwalk : walk.building = .objects) (hbuilder : builder.building = .containers)
    (hplain : segment.isPlain = true) (hbelow : ∀ segment ∈ segments, segment.isPlain = true)
    (hrecordFree : tree.recordFree = true) (hmaps : tree.maps segment = false) (hscalar : tree.isScalar = false)
    (hmissing : (tree.child? segment).getD .null = .null)
    (hchanged : (walk.step (some (.property name false)) edit segment tree store).changed = .ok true) :
    let old := (tree.descend? (segment :: .property name false :: segments)).getD .null
    (∀ root dropNulls, Segment.applyAll root dropNulls (segment :: .property name false :: segments) tree = .ok old) ∧
      walk.step (some (.property name false)) edit segment tree store =
        builder.assign (old.patched value replacing) (segment :: .property name false :: segments) tree store := by
  have hcontainer : walk.container? (some (.property name false)) = some (.object []) := by
    simp [Walk.container?, hwalk]
  have hsame : builder.container? (some (.property name false)) = walk.container? (some (.property name false)) := by
    rw [hcontainer, Walk.container?_eq hbuilder rfl]
    rfl
  have hold : tree.descend? (segment :: .property name false :: segments) = none := by
    rw [descend?]
    cases hchild : tree.child? segment with
    | none => rfl
    | some child =>
        obtain rfl : child = .null := by rwa [hchild] at hmissing
        rfl
  have htext : tree.isObjectText = false := by cases tree <;> first | rfl | cases hscalar
  rw [hold, Option.getD_none]
  refine ⟨fun root dropNulls => ?_, ?_⟩
  · obtain ⟨found, happly, hfound, hfoundText⟩ :=
      Segment.exists_apply_of_missing hplain hrecordFree hmaps htext hmissing
    rw [Segment.applyAll, happly]
    exact Segment.applyAll_property_of_isScalar hbelow hfound hfoundText
  · rw [Walk.assign, Walk.step_congr hplain hsame]
    rcases Walk.step_cases hcontainer hplain hrecordFree hmaps with
      ⟨changed, hrefused, hstep⟩ | ⟨rebuild, -, hstep⟩
    · rw [hstep] at hchanged
      exact absurd hchanged hrefused
    · rw [Segment.under?_stepFrom hplain hmaps, hmissing] at hstep
      rw [hstep] at hchanged
      obtain ⟨-, -, hedit⟩ := hpatches (.object []) store rfl (Segment.neverMaps_container rfl segments) hchanged
      rw [hstep, hstep]
      exact congrArg (Change.map rebuild) hedit

theorem Edit.Patches.step (hpatches : edit.Patches builder (next :: segments) value replacing)
    (hwalk : walk.building = .objects) (hbuilder : builder.building = .containers)
    (hplain : segment.isPlain = true) (hsegments : ∀ segment ∈ next :: segments, segment.isPlain = true) :
    (walk.step (some next) edit segment).Patches builder (segment :: next :: segments) value replacing := by
  intro tree store hrecordFree hnever hchanged
  obtain ⟨hnext, hbelow⟩ := List.forall_mem_cons.mp hsegments
  have hmaps := maps_of_neverMaps hnever
  cases hscalar : tree.isScalar with
  | true =>
      rw [Walk.step_of_isScalar hplain hscalar] at hchanged
      cases hchanged
  | false =>
      refine ⟨isNull_of_isScalar_eq_false hscalar, ?_⟩
      by_cases hmissing : (tree.child? segment).getD .null = .null
      · rcases Segment.exists_of_isPlain hnext with ⟨name, rfl⟩ | ⟨index, rfl⟩
        · exact hpatches.step_of_missing hwalk hbuilder hplain hbelow hrecordFree hmaps hscalar hmissing hchanged
        -- Before an index nothing is built, and a null is left alone.
        · have hcontainer : walk.container? (some (.index index)) = none := by simp [Walk.container?, hwalk]
          exfalso
          cases hchild : tree.child? segment with
          | none =>
              rw [Walk.step_of_child?_eq_none hcontainer hplain hrecordFree hmaps hchild] at hchanged
              cases hchanged
          | some child =>
              obtain rfl : child = .null := by rwa [hchild] at hmissing
              rw [Walk.step_of_child? hplain hchild, hcontainer, Walk.enter_none] at hchanged
              obtain ⟨hnull, -⟩ := hpatches .null store rfl (neverMaps_null _) hchanged
              cases hnull
      · obtain ⟨child, hchild, hnull⟩ := exists_child?_of_getD_ne hmissing
        exact hpatches.step_of_child? hplain hrecordFree hnever hchild hnull hchanged

/-- Every step of the walk reads on and writes on, so the whole walk does. -/
theorem Walk.patches_visit (hwalk : walk.building = .objects) (hbuilder : builder.building = .containers)
    (hplain : ∀ segment ∈ segments ++ [last], segment.isPlain = true)
    (hsize : ∀ name, last = .property name false → isSizeName name = false) :
    (walk.visit (some last) (Edit.patchLast value replacing last) segments).Patches builder (segments ++ [last]) value
      replacing := by
  refine visit_induction (motive := fun segments edit =>
    (∀ segment ∈ segments, segment.isPlain = true) → edit.Patches builder segments value replacing) ?_ ?_ segments hplain
  · exact fun hlast => Edit.patches_patchLast (hlast last (by simp)) hsize
  · intro segment next below edit ih hplain
    obtain ⟨hsegment, hbelow⟩ := List.forall_mem_cons.mp hplain
    exact (ih hbelow).step hwalk hbuilder hsegment hbelow

/-! ### The whole path -/

theorem Path.patch_eq {path : Path} {init : List Segment} (hsegments : path.segments = init ++ [last]) {root : Tree}
    (hnull : root.isNull = false) (store : Store) :
    path.patch value replacing root store =
      (path.walk root .objects).visit (some last) (Edit.patchLast value replacing last) init root store := by
  simp [patch, editLast, hnull, hsegments]

/-- **Patches combine the old value with the new one.** Let a plain path end in no size name, and read no property from
an array of the document. Where a patch reports a change, evaluation finds the new value afterwards if the patch
replaces. If it adds, evaluation finds the new value in place of null and of an object, the array with the new value at
its end in place of an array, and the pair of both in place of another scalar; the old value is the one that evaluation
found before. Nothing else is changed but the missing containers, and the nulls that fill up arrays. -/
theorem Path.eval_patch {path : Path} (hnonempty : path.segments ≠ [])
    (hplain : ∀ segment ∈ path.segments, segment.isPlain = true)
    (hsize : ∀ name, path.segments.getLast? = some (.property name false) → isSizeName name = false)
    {root value : Tree} {replacing : Bool} {store : Store} (hrecordFree : root.recordFree = true)
    (hnever : root.neverMaps path.segments = true)
    (hchanged : (path.patch value replacing root store).changed = .ok true) :
    let after := path.patch value replacing root store
    ∃ old new, path.eval root = .ok old ∧
      new = (if replacing then value
        else match old with
          | .array items => .array (items ++ [value])
          | .null | .object _ => value
          | scalar => .array [scalar, value]) ∧
      path.eval after.result = .ok new ∧
      path.eval (after.store.snapshot after.result) = .ok (after.store.snapshot new) ∧
      Assigned (root.addressOf path.segments) new root after.result ∧ after.store = store := by
  obtain ⟨init, last, hsegments⟩ := exists_segments hnonempty
  cases hnull : root.isNull with
  | true =>
      rw [patch, editLast, if_pos hnull] at hchanged
      cases hchanged
  | false =>
      have hlast : ∀ name, last = .property name false → isSizeName name = false := by
        intro name hname
        exact hsize name (by rw [hsegments, List.getLast?_concat, hname])
      have hplain' : ∀ segment ∈ init ++ [last], segment.isPlain = true := hsegments ▸ hplain
      rw [patch_eq hsegments hnull] at hchanged ⊢
      rw [hsegments] at hnever
      have hpatches : Edit.Patches ((path.walk root .objects).visit (some last) (Edit.patchLast value replacing last) init)
          (path.walk root .containers) (init ++ [last]) value replacing := Walk.patches_visit rfl rfl hplain' hlast
      obtain ⟨-, hread, hedit⟩ := hpatches root store hrecordFree hnever hchanged
      generalize (root.descend? (init ++ [last])).getD .null = old at hread hedit
      rw [hedit, ← Walk.visit_eq_assign] at hchanged ⊢
      have hreaches := Walk.reaches_visit rfl hplain' root store hrecordFree hnever hchanged
      obtain ⟨hassigned, hstore⟩ := Walk.assigns_visit rfl hplain' root store hrecordFree hnever hchanged
      rw [← hsegments] at hread hreaches hassigned
      have hshown (name : HashedName) (hname : path.segments.getLast? = some (.property name false))
          (hisSize : isSizeName name = true) : False := by
        rw [hsize name hname] at hisSize
        cases hisSize
      refine ⟨old, old.patched value replacing, hread root path.dropNulls, rfl, ?_, ?_, hassigned, hstore⟩
      · exact Segment.applyAll_of_descend? hplain hreaches fun name hname hisSize => (hshown name hname hisSize).elim
      · exact Segment.applyAll_of_descend? hplain (descend?_showRecords _ hreaches)
          fun name hname hisSize => (hshown name hname hisSize).elim

/-- The name in the last item of a list becomes a list of both names. -/
theorem Path.eval_patch_widened :
    let path := Path.mk "$.list[-1].name" [.property "list" false, .index (-1), .property "name" false] false true
    let root := Tree.object [("list", .array [.bool true, .object [("name", .string "x")]])]
    let after := path.patch (.string "y") false root Store.empty
    let both := Tree.array [.string "x", .string "y"]
    path.segments ≠ [] ∧ root.recordFree = true ∧ root.neverMaps path.segments = true ∧ after.changed = .ok true ∧
      path.eval root = .ok (.string "x") ∧ path.eval after.result = .ok both ∧
      path.eval (after.store.snapshot after.result) = .ok both ∧
      Assigned [.key "list", .position 1, .key "name"] both root
        (.object [("list", .array [.bool true, .object [("name", both)]])]) := by
  intro path root after both
  have hnonempty : path.segments ≠ [] := by simp [path, segments]
  have hplain : ∀ segment ∈ path.segments, segment.isPlain = true := by simp [path, segments, Segment.isPlain]
  have hsize : ∀ name, path.segments.getLast? = some (.property name false) → isSizeName name = false := by
    intro name hname
    obtain rfl : HashedName.ofText "name" = name := by simpa [path, segments] using hname
    decide
  have hchanged : after.changed = .ok true := rfl
  obtain ⟨old, new, hold, hnew, hafter, hsnapshot, hassigned, -⟩ := eval_patch hnonempty hplain hsize rfl rfl hchanged
  obtain rfl : .string "x" = old := Except.ok.inj hold
  obtain rfl : new = both := hnew
  exact ⟨hnonempty, rfl, rfl, hchanged, hold, hafter, hsnapshot, hassigned⟩

end TreeQuery
