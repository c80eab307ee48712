import TreeQuery.Proofs.Edit.Commuting

/-!
# Assigning twice

A second assignment along the same path goes to the same places as the first one: it finds the containers that the
first one built, and replaces what that wrote without looking into it. So it leaves what it would have left alone.
-/

namespace TreeQuery

open TreeQuery.Tree

namespace Edit

/-! ### One edit after another in the same place -/

section Lists

variable {α : Type} {first second : Edit α} {xs : List α}

/-- If the first edit succeeds, then so does the second, alone as well as after the first. It reports the same as the
first, and leaves the same in both cases. -/
def OverwritesAt (first second : Edit α) (x : α) : Prop :=
  ∀ ⦃store s left a⦄, first x store = ⟨left, s, .ok a⟩ →
    s = store ∧ ∃ found, second x store = ⟨found, store, .ok a⟩ ∧ second left store = ⟨found, store, .ok a⟩

theorem OverwritesAt.each (hoverwrites : ∀ x ∈ xs, OverwritesAt first second x) :
    OverwritesAt (each first) (each second) xs := by
  induction xs with
  | nil =>
      intro store s left a hleft
      cases hleft
      exact ⟨rfl, [], rfl, rfl⟩
  | cons x xs ih =>
      obtain ⟨hx, hxs⟩ := List.forall_mem_cons.mp hoverwrites
      intro store s left a hleft
      obtain ⟨y, t, b, ys, c, hy, hys, rfl, rfl⟩ := Change.cons_eq_ok hleft
      obtain ⟨rfl, z, hz, hz'⟩ := hx hy
      obtain ⟨hs, zs, hzs, hzs'⟩ := ih hxs hys
      refine ⟨hs, z :: zs, ?_, ?_⟩
      · rw [Edit.each, hz, Change.cons_eq hzs]
      · rw [Edit.each, hz', Change.cons_eq hzs']

end Lists

variable {first second inner inner' : Edit Tree} {name : String} {built : Tree} {entries : Entries Tree}

/-- On trees without records the second edit undoes the first. -/
def Overwrites (first second : Edit Tree) : Prop :=
  ∀ tree : Tree, tree.recordFree = true → OverwritesAt first second tree

theorem overwrites_replace (value value' : Tree) : Overwrites (replace value) (replace value') := by
  intro tree _ store s left a hleft
  cases hleft
  exact ⟨rfl, value', rfl, rfl⟩

theorem Inserts.overwritesAt (hfirst : first.Inserts name inner) (hsecond : second.Inserts name inner')
    (hoverwrites : inner.Overwrites inner') (hentries : (Tree.object entries).recordFree = true) :
    OverwritesAt first second (.object entries) := by
  intro store s left a hleft
  rw [hfirst] at hleft
  obtain ⟨child, hchild, rfl⟩ := Change.map_eq_ok hleft
  obtain ⟨hs, found, hfound, hfound'⟩ := hoverwrites _ (recordFree_getD_find? hentries name) hchild
  refine ⟨hs, .object (Entries.insert name found entries), ?_, ?_⟩
  · rw [hsecond, hfound]
    rfl
  · rw [hsecond, Entries.find?_insert_self, Option.getD_some, hfound', Change.map, Entries.insert_insert]

/-- Edits that go through arrays meet the same objects there. -/
theorem GoesThrough.overwrites (hfirst : first.GoesThrough name inner) (hsecond : second.GoesThrough name inner')
    (hscalar : ∀ tree : Tree, tree.isScalar = true → first tree = second tree)
    (hoverwrites : inner.Overwrites inner') : first.Overwrites second := by
  intro tree
  induction tree using Tree.induction with
  | scalar tree htree =>
      intro _ store s left a hleft
      obtain ⟨changed, hchanged⟩ := hfirst.scalar tree htree
      have hsame : second tree store = ⟨tree, store, changed⟩ := by rw [← hscalar tree htree, hchanged]
      rw [hchanged] at hleft
      cases hleft
      exact ⟨rfl, tree, hsame, hsame⟩
  | array items ih =>
      intro hrecordFree store s left a hleft
      have hitems := (everywhere_array.mp hrecordFree).2
      rw [hfirst.array] at hleft
      obtain ⟨lefts, hlefts, rfl⟩ := Change.map_eq_ok hleft
      obtain ⟨hs, found, hfound, hfound'⟩ := OverwritesAt.each (fun item hmem => ih item hmem (hitems item hmem)) hlefts
      refine ⟨hs, .array found, ?_, ?_⟩
      · rw [hsecond.array, hfound]
        rfl
      · rw [hsecond.array, hfound']
        rfl
  | object entries _ =>
      intro hentries
      exact hfirst.object.overwritesAt hsecond.object hoverwrites hentries
  | record handle entries _ => exact fun hrecordFree => by cases hrecordFree

/-- The first edit builds the container, and the second finds it. -/
theorem Overwrites.enter (hoverwrites : first.Overwrites second) (hfirst : first.KeepsNull)
    (hnull : built.isNull = false) (hbuilt : built.recordFree = true) :
    Overwrites (Walk.enter (some built) first) (Walk.enter (some built) second) := by
  intro tree hrecordFree store s left a hleft
  obtain ⟨node, hnode, hfree, henter⟩ := exists_enter_eq hnull hbuilt hrecordFree
  rw [henter] at hleft
  have hleftNull : left.isNull = false := by
    have hkept := hfirst node store hfree
    rwa [hleft, hnode] at hkept
  obtain ⟨hs, found, hfound, hfound'⟩ := hoverwrites node hfree hleft
  exact ⟨hs, found, by rw [henter, hfound], by rw [enter_eq second hleftNull, hfound']⟩

/-! ### Indices -/

theorem overwritesAt_atIndex
    (hoverwrites : Overwrites (Walk.enter (some built) first) (Walk.enter (some built) second)) (index : Int)
    {items : List Tree} (hitems : (Tree.array items).recordFree = true) :
    OverwritesAt (Walk.atIndex (some built) index first) (Walk.atIndex (some built) index second) (.array items) := by
  intro store s left a hleft
  rcases Walk.atIndex_cases built index items with ⟨changed, -, hrefused⟩ | ⟨padded, hpad, hresolve, heq⟩
  · rw [hrefused] at hleft
    cases hleft
    exact ⟨rfl, .array items, hrefused _ _, hrefused _ _⟩
  · rw [heq] at hleft
    obtain ⟨child, hchild, rfl⟩ := Change.map_eq_ok hleft
    obtain ⟨hs, found, hfound, hfound'⟩ := hoverwrites _ (recordFree_getElem? hitems _) hchild
    refine ⟨hs, .array (padded.set (arrayPosition items.length index) found), ?_, ?_⟩
    · rw [heq, hfound]
      rfl
    · rw [atIndex_set hpad hresolve, hfound']
      rfl

theorem Overwrites.atIndex (hoverwrites : Overwrites (Walk.enter (some built) first) (Walk.enter (some built) second))
    (index : Int) : Overwrites (Walk.atIndex (some built) index first) (Walk.atIndex (some built) index second) := by
  intro tree hrecordFree
  rcases shape_of_recordFree hrecordFree with hscalar | ⟨items, rfl⟩ | ⟨entries, rfl⟩
  · intro store s left a hleft
    rw [atIndex_of_isScalar hscalar] at hleft
    cases hleft
    exact ⟨rfl, tree, atIndex_of_isScalar hscalar _ _ _ _, atIndex_of_isScalar hscalar _ _ _ _⟩
  · exact overwritesAt_atIndex hoverwrites index hrecordFree
  · exact (inserts_atIndex built index first).overwritesAt (inserts_atIndex built index second) hoverwrites hrecordFree

theorem exists_result_atIndex (built : Tree) (index : Int) (edit : Edit Tree) (items : List Tree) (store : Store) :
    ∃ items', (Walk.atIndex (some built) index edit (.array items) store).result = .array items' := by
  rcases Walk.atIndex_cases built index items with ⟨changed, -, hrefused⟩ | ⟨padded, -, -, heq⟩
  · exact ⟨items, by rw [hrefused]⟩
  · exact ⟨_, by rw [heq]; rfl⟩

/-- In an array, assigning at an index is replacing what a walk finds there. -/
theorem setIndex_array (index : Int) (value : Tree) (items : List Tree) :
    setIndex index value (.array items) = Walk.atIndex (some .null) index (replace value) (.array items) := by
  funext store
  simp only [setIndex, Walk.atIndex, Option.isSome_some, and_true]
  cases hresolve : resolveIndex items.length index with
  | some position =>
      have hlt := lt_of_resolveIndex hresolve
      simp only [atPosition_eq_set _ store (List.getElem?_eq_getElem hlt)]
      split
      · next hnonneg =>
          obtain rfl := eq_toNat_of_resolveIndex hnonneg hresolve
          rw [padTo_of_lt hlt]
          rfl
      · rfl
  | none =>
      split
      · next hnonneg =>
          have hle := length_le_of_resolveIndex_eq_none hnonneg hresolve
          cases hpad : padTo items index.toNat with
          | error fault => rfl
          | ok padded =>
              simp only [atPosition_eq_set _ store (getElem?_of_padTo hpad hle)]
              rfl
      · rfl

theorem overwrites_setIndex (index : Int) (value value' : Tree) :
    Overwrites (setIndex index value) (setIndex index value') := by
  intro tree hrecordFree
  rcases shape_of_recordFree hrecordFree with hscalar | ⟨items, rfl⟩ | ⟨entries, rfl⟩
  · intro store s left a hleft
    -- Null has no index, and every other scalar refuses one.
    cases tree with
    | null =>
        cases hleft
        exact ⟨rfl, .null, rfl, rfl⟩
    | array items => cases hscalar
    | object entries => cases hscalar
    | record handle entries => cases hscalar
    | _ => cases hleft
  · intro store s left a hleft
    rw [setIndex_array] at hleft
    have hreplace : Overwrites (Walk.enter (some .null) (replace value)) (Walk.enter (some .null) (replace value')) :=
      overwrites_replace value value'
    obtain ⟨hs, found, hfound, hfound'⟩ := overwritesAt_atIndex hreplace index hrecordFree hleft
    obtain ⟨items', hitems'⟩ := exists_result_atIndex .null index (replace value) items store
    rw [hleft] at hitems'
    obtain rfl : left = .array items' := hitems'
    exact ⟨hs, found, by rw [setIndex_array, hfound], by rw [setIndex_array, hfound']⟩
  · exact Inserts.overwritesAt (fun _ _ => rfl) (fun _ _ => rfl) (overwrites_replace value value') hrecordFree

end Edit

/-! ### Along a path -/

section Whole

variable {walk : Walk} {segments : List Segment}

/-- Every step of the second walk goes where the first one went. -/
theorem Walk.overwrites_assign (hbuilding : walk.building = .containers)
    (hplain : ∀ segment ∈ segments, segment.isPlain = true) (value value' : Tree) :
    (walk.assign value segments).Overwrites (walk.assign value' segments) := by
  induction segments with
  | nil => exact Edit.overwrites_replace value value'
  | cons segment segments ih =>
      obtain ⟨hsegment, hsegments⟩ := List.forall_mem_cons.mp hplain
      have hbelow := ih hsegments
      cases segments with
      | nil =>
          rcases Segment.exists_of_isPlain hsegment with ⟨name, rfl⟩ | ⟨index, rfl⟩
          · refine (Edit.goesThrough_setProperty name value).overwrites (Edit.goesThrough_setProperty name value') ?_
              (Edit.overwrites_replace value value')
            intro tree hscalar
            cases tree <;> first | rfl | cases hscalar
          · exact Edit.overwrites_setIndex index value value'
      | cons next segments =>
          have hnext := hsegments next List.mem_cons_self
          have hkeeps := (assign_keeps hbuilding hsegments value).2 (List.cons_ne_nil _ _)
          have henter := hbelow.enter hkeeps next.isNull_container next.recordFree_container
          rcases Segment.exists_of_isPlain hsegment with ⟨name, rfl⟩ | ⟨index, rfl⟩
          · refine (goesThrough_step hbuilding hnext _ name).overwrites (goesThrough_step hbuilding hnext _ name) ?_
              henter
            intro tree hscalar
            exact funext fun store => (step_of_isScalar hsegment hscalar).trans (step_of_isScalar hsegment hscalar).symm
          · rw [assign, assign, step, step, container?_eq hbuilding hnext]
            exact henter.atIndex index

/-- **The last assignment wins.** If a value can be assigned along a plain path, which may map over arrays and build
what is missing, then any other value can be assigned along it, afterwards as well as in its place. Both times the
assignment reports what the first one did and leaves the same tree. -/
theorem Path.set_set {path : Path} (hplain : ∀ segment ∈ path.segments, segment.isPlain = true) {root : Tree}
    (hrecordFree : root.recordFree = true) (first second : Tree) (store : Store) {a : Bool}
    (hchanged : (path.set first root store).changed = .ok a) :
    path.set second (path.set first root store).result (path.set first root store).store =
        path.set second root store ∧
      (path.set second root store).changed = .ok a ∧ (path.set second root store).store = store := by
  cases hnull : root.isNull with
  | true =>
      have hskip (value : Tree) : path.set value root store = ⟨root, store, .ok false⟩ := set_of_isNull hnull store
      simp only [hskip] at hchanged ⊢
      exact ⟨trivial, hchanged, trivial⟩
  | false =>
      by_cases hnonempty : path.segments = []
      · simp [set, editLast, hnull, hnonempty, Edit.fail] at hchanged
      · let walk : Walk := ⟨.null, path.dropNulls, .containers⟩
        have hbuilding : walk.building = .containers := rfl
        have hset {tree : Tree} (htree : tree.isNull = false) (value : Tree) (store : Store) :
            path.set value tree store = walk.assign value path.segments tree store :=
          set_eq_assign hnonempty hplain htree store
        have hkept := (Walk.assign_keeps hbuilding hplain first).2 hnonempty root store hrecordFree
        rw [hset hnull] at hchanged
        rcases hfirst : walk.assign first path.segments root store with ⟨left, s, changed⟩
        rw [hfirst] at hchanged hkept
        obtain rfl : changed = .ok a := hchanged
        obtain ⟨rfl, found, hfound, hfound'⟩ :=
          Walk.overwrites_assign hbuilding hplain first second root hrecordFree hfirst
        rw [hset hnull, hset hnull, hfirst, hset (hkept.trans hnull), hfound, hfound']
        exact ⟨rfl, rfl, rfl⟩

/-- The first value has the names of the path itself, which the second assignment does not follow. -/
theorem Path.set_set_listed :
    let path := Path.mk "$.list.a[1]" [.property "list" false, .property "a" false, .index 1] false true
    let root := Tree.object [("list", .array [.object [("b", .null)], .null, .array [.object [("a", .array [])]]])]
    let first := Tree.object [("a", .array [.integer 1, .integer 2])]
    let grown (value : Tree) := Tree.object [("list", .array [
      .object [("b", .null), ("a", .array [.null, value])], .null,
      .array [.object [("a", .array [.null, value])]]])]
    let left := path.set first root Store.empty
    let again := path.set (.integer 7) left.result left.store
    let alone := path.set (.integer 7) root Store.empty
    root.recordFree = true ∧ left.changed = .ok true ∧ left.result = grown first ∧ again = alone ∧
      alone.changed = .ok true ∧ alone.store = Store.empty ∧ alone.result = grown (.integer 7) := by
  intro path root first grown left again alone
  have hplain : ∀ segment ∈ path.segments, segment.isPlain = true := by simp [path, segments, Segment.isPlain]
  have hrecordFree : root.recordFree = true := rfl
  have hleft : left.changed = .ok true := rfl
  obtain ⟨hagain, halone, hstore⟩ := set_set hplain hrecordFree first (.integer 7) Store.empty hleft
  exact ⟨hrecordFree, hleft, rfl, hagain, halone, hstore, rfl⟩

end Whole

end TreeQuery
