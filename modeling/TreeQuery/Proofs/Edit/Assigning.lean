import TreeQuery.Proofs.Edit.Places

/-!
# Assigning and evaluating

What is assigned along a plain path is found there: the containers that are built on the way are the ones that
evaluation walks through.
-/

namespace TreeQuery

variable {segment last : Segment} {segments : List Segment} {value : Tree}

/-- Where the edit reports a change, the segments lead to the value afterwards. -/
def Edit.Reaches (edit : Edit Tree) (segments : List Segment) (value : Tree) : Prop :=
  ∀ (tree : Tree) (store : Store), tree.recordFree = true → tree.neverMaps segments = true →
    (edit tree store).changed = .ok true → (edit tree store).result.descend? segments = some value

/-! ### The last segment -/

theorem Edit.reaches_setLast (hplain : last.isPlain = true) : (Edit.setLast value last).Reaches [last] value := by
  intro tree store hrecordFree hnever hchanged
  rcases Segment.exists_of_isPlain hplain with ⟨name, rfl⟩ | ⟨index, rfl⟩
  · cases tree with
    | object entries =>
        simp [setLast, setProperty, throughArrays, writeProperty, Tree.descend?, Tree.child?,
          Entries.find?_insert_self]
    | array items => cases hnever
    | record handle entries => cases hrecordFree
    | _ => cases hchanged
  · cases tree with
    | object entries =>
        simp [setLast, setIndex, writeProperty, Tree.descend?, Tree.child?, Entries.find?_insert_self]
    | array items =>
        simp only [setLast, setIndex] at hchanged ⊢
        split at hchanged
        · next hnonneg =>
            cases hpad : padTo items index.toNat with
            | error fault => simp [hpad] at hchanged
            | ok padded =>
                have hlt := lt_length_of_padTo hpad
                simp [hnonneg, Tree.descend?, Tree.child?, resolveIndex_of_nonneg, hlt]
        · next hnegative =>
            cases hresolve : resolveIndex items.length index with
            | none => simp [hresolve] at hchanged
            | some position =>
                have hlt := lt_of_resolveIndex hresolve
                simp [hnegative, hresolve, Tree.descend?, Tree.child?, hlt]
    | record handle entries => cases hrecordFree
    | _ => cases hchanged

/-! ### The segments before -/

theorem Edit.Reaches.enter {edit : Edit Tree} (hreaches : edit.Reaches segments value) {built : Tree}
    (hrecordFree : built.recordFree = true) (hnever : built.neverMaps segments = true) :
    (Walk.enter (some built) edit).Reaches segments value := by
  intro tree store htree hnever' hchanged
  cases hnull : tree.isNull with
  | true =>
      simp only [Walk.enter, hnull, if_true, Option.getD_some] at hchanged ⊢
      exact hreaches _ _ hrecordFree hnever hchanged
  | false =>
      simp only [Walk.enter, hnull, Bool.false_eq_true, if_false] at hchanged ⊢
      exact hreaches _ _ htree hnever' hchanged

def Segment.container : Segment → Tree
  | property _ _ => .object []
  | _ => .array []

theorem Walk.container?_eq {walk : Walk} (hbuilding : walk.building = .containers) (hplain : segment.isPlain = true) :
    walk.container? (some segment) = some segment.container := by
  rcases Segment.exists_of_isPlain hplain with ⟨name, rfl⟩ | ⟨index, rfl⟩ <;>
    simp [container?, hbuilding, Segment.container]

theorem Segment.recordFree_container (segment : Segment) : segment.container.recordFree = true := by
  cases segment <;> rfl

theorem Segment.neverMaps_container (hplain : segment.isPlain = true) (segments : List Segment) :
    segment.container.neverMaps (segment :: segments) = true := by
  rcases exists_of_isPlain hplain with ⟨name, rfl⟩ | ⟨index, rfl⟩
  · rfl
  · have hchild : (Tree.array []).child? (.index index) = none := by simp [Tree.child?]
    simp [container, Tree.neverMaps, Tree.maps, hchild]

section Step

variable {edit : Edit Tree} {built : Tree} {entries : Entries Tree} {name : String} {store : Store}

theorem Edit.Reaches.atProperty (hreaches : edit.Reaches segments value) (hrecordFree : built.recordFree = true)
    (hnever : built.neverMaps segments = true) (hentries : (Tree.object entries).recordFree = true)
    (hchild : ∀ child, Entries.find? entries name = some child → child.neverMaps segments = true)
    (hchanged : (Walk.atProperty (some built) name edit (.object entries) store).changed = .ok true) :
    ∃ entries' child, (Walk.atProperty (some built) name edit (.object entries) store).result = .object entries' ∧
      Entries.find? entries' name = some child ∧ child.descend? segments = some value := by
  have henters := hreaches.enter hrecordFree hnever
  have hvalues := (Tree.everywhere_object.mp hentries).2
  cases hfind : Entries.find? entries name with
  | some child =>
      have hcontains : Entries.contains entries name = true := by rw [Entries.contains, hfind]; rfl
      obtain ⟨hchanged', hresult⟩ := Edit.atKey_of_find? (Walk.enter (some built) edit) store hfind
      simp only [Walk.atProperty, hcontains, if_true] at hchanged ⊢
      exact ⟨_, _, rfl, hresult, henters child store (hvalues _ (Entries.mem_of_find? hfind)) (hchild child hfind)
        (hchanged' ▸ hchanged)⟩
  | none =>
      have hcontains : Entries.contains entries name = false := by rw [Entries.contains, hfind]; rfl
      obtain ⟨hchanged', hresult⟩ :=
        Edit.atKey_of_find? edit store (Entries.find?_insert_self name built entries)
      simp only [Walk.atProperty, hcontains, Bool.false_eq_true, if_false] at hchanged ⊢
      exact ⟨_, _, rfl, hresult, hreaches built store hrecordFree hnever (hchanged' ▸ hchanged)⟩

/-- At an index of an array, which grows where the index lies past its end. -/
theorem Edit.Reaches.atIndex (hreaches : edit.Reaches segments value) (hrecordFree : built.recordFree = true)
    (hnever : built.neverMaps segments = true) {items : List Tree} {index : Int}
    (hitems : (Tree.array items).recordFree = true)
    (hitem : (Tree.array items).neverMaps (.index index :: segments) = true)
    (hchanged : (Walk.atIndex (some built) index edit (.array items) store).changed = .ok true) :
    (Walk.atIndex (some built) index edit (.array items) store).result.descend? (.index index :: segments) =
      some value := by
  have henters := hreaches.enter hrecordFree hnever
  cases hresolve : resolveIndex items.length index with
  | some position =>
      obtain ⟨item, hget⟩ : ∃ item, items[position]? = some item := ⟨_, List.getElem?_eq_getElem (lt_of_resolveIndex hresolve)⟩
      have hnever' : item.neverMaps segments = true :=
        Tree.neverMaps_of_child? hitem (by simp [Tree.child?, hresolve, hget])
      have hfree : item.recordFree = true := (Tree.everywhere_array.mp hitems).2 item (List.mem_of_getElem? hget)
      obtain ⟨hchanged', hresult, hlength⟩ := Edit.atPosition_of_getElem? (Walk.enter (some built) edit) store hget
      simp only [Walk.atIndex, hresolve] at hchanged ⊢
      have hvalue := henters item store hfree hnever' (hchanged' ▸ hchanged)
      simp [Change.map, Tree.descend?, Tree.child?, hlength, hresolve, hresult, hvalue]
  | none =>
      simp only [Walk.atIndex, hresolve, Option.isSome_some, and_true] at hchanged ⊢
      split at hchanged
      -- The array grows, and the walk goes on from the null that is now its last item.
      · next hnonneg =>
          have hle := length_le_of_resolveIndex_eq_none hnonneg hresolve
          cases hpad : padTo items index.toNat with
          | error fault => simp [hpad] at hchanged
          | ok padded =>
              have hget := getElem?_of_padTo hpad hle
              obtain ⟨hchanged', hresult, hlength⟩ :=
                Edit.atPosition_of_getElem? (Walk.enter (some built) edit) store hget
              have hresolve' := resolveIndex_of_nonneg hnonneg (hlength ▸ lt_length_of_padTo hpad)
              simp only [hpad] at hchanged
              have hvalue := henters .null store rfl (Tree.neverMaps_null segments) (hchanged' ▸ hchanged)
              simp [hnonneg, Change.map, Tree.descend?, Tree.child?, hresolve', hresult, hvalue]
      · cases hchanged

theorem Edit.Reaches.step {walk : Walk} (hbuilding : walk.building = .containers) {next : Segment}
    (hreaches : edit.Reaches (next :: segments) value) (hplain : segment.isPlain = true)
    (hnext : next.isPlain = true) :
    (walk.step (some next) edit segment).Reaches (segment :: next :: segments) value := by
  have hcontainer := Walk.container?_eq hbuilding hnext
  have hfree := next.recordFree_container
  have hnever := Segment.neverMaps_container hnext segments
  intro tree store hrecordFree hnever' hchanged
  rcases Segment.exists_of_isPlain hplain with ⟨name, rfl⟩ | ⟨index, rfl⟩
  · cases tree with
    | object entries =>
        have hchild : ∀ child, Entries.find? entries name = some child → child.neverMaps (next :: segments) = true :=
          fun _ => Tree.neverMaps_of_child? hnever'
        simp only [Walk.step, hcontainer, throughArrays] at hchanged ⊢
        obtain ⟨entries', child, hresult, hfind, hvalue⟩ :=
          hreaches.atProperty hfree hnever hrecordFree hchild hchanged
        rw [hresult]
        exact Tree.descend?_cons_eq_some.mpr ⟨child, hfind, hvalue⟩
    | array items => cases hnever'
    | record handle entries => cases hrecordFree
    | _ => cases hchanged
  -- On an object an index is the property of its digits.
  · cases tree with
    | object entries =>
        have hchild : ∀ child, Entries.find? entries (toString index) = some child →
            child.neverMaps (next :: segments) = true :=
          fun _ => Tree.neverMaps_of_child? hnever'
        simp only [Walk.step, hcontainer, Walk.atIndex] at hchanged ⊢
        obtain ⟨entries', child, hresult, hfind, hvalue⟩ :=
          hreaches.atProperty hfree hnever hrecordFree hchild hchanged
        rw [hresult]
        exact Tree.descend?_cons_eq_some.mpr ⟨child, hfind, hvalue⟩
    | array items =>
        simp only [Walk.step, hcontainer] at hchanged ⊢
        exact hreaches.atIndex hfree hnever hrecordFree hnever' hchanged
    | record handle entries => cases hrecordFree
    | _ => cases hchanged

end Step

/-- What holds of an edit at the last segment, and is carried over every segment before it, holds of the whole walk. -/
theorem Walk.visit_induction {walk : Walk} {edit : Edit Tree} {motive : List Segment → Edit Tree → Prop}
    (hlast : motive [last] edit)
    (hstep : ∀ segment next below edit, motive (next :: below) edit →
      motive (segment :: next :: below) (walk.step (some next) edit segment)) (segments : List Segment) :
    motive (segments ++ [last]) (walk.visit (some last) edit segments) := by
  -- Each step looks one segment ahead for the container to build, so the rest is split once more.
  induction segments with
  | nil => exact hlast
  | cons segment segments ih =>
      cases segments with
      | nil => exact hstep segment last [] _ ih
      | cons next segments => exact hstep segment next (segments ++ [last]) _ ih

/-- Every step of the walk leads on, so the whole walk does. -/
theorem Walk.reaches_visit {walk : Walk} (hbuilding : walk.building = .containers)
    (hplain : ∀ segment ∈ segments ++ [last], segment.isPlain = true) :
    (walk.visit (some last) (Edit.setLast value last) segments).Reaches (segments ++ [last]) value := by
  refine visit_induction (motive := fun segments edit =>
    (∀ segment ∈ segments, segment.isPlain = true) → edit.Reaches segments value) ?_ ?_ segments hplain
  · exact fun hlast => Edit.reaches_setLast (hlast last (by simp))
  · intro segment next below edit ih hplain
    obtain ⟨hsegment, hbelow⟩ := List.forall_mem_cons.mp hplain
    exact (ih hbelow).step hbuilding hsegment (hbelow next List.mem_cons_self)

/-! ### From an empty document -/

section Starting

variable {edit : Edit Tree} {next : Segment} {store : Store} {walk : Walk}

theorem Walk.changed_atProperty_nil {built : Tree} {name : String} (hedit : (edit built store).changed = .ok true) :
    (atProperty (some built) name edit (.object []) store).changed = .ok true := by
  obtain ⟨hchanged, -⟩ := Edit.atKey_of_find? edit store (Entries.find?_insert_self name built [])
  have hcontains : Entries.contains ([] : Entries Tree) name = false := rfl
  simp only [atProperty, hcontains, Bool.false_eq_true, if_false]
  exact hchanged.trans hedit

theorem Walk.changed_step_object (hbuilding : walk.building = .containers) (hplain : segment.isPlain = true)
    (hnext : next.isPlain = true) (hedit : (edit next.container store).changed = .ok true) :
    (walk.step (some next) edit segment (.object []) store).changed = .ok true := by
  rcases Segment.exists_of_isPlain hplain with ⟨name, rfl⟩ | ⟨index, rfl⟩
  · simp only [step, container?_eq hbuilding hnext, Edit.throughArrays]
    exact changed_atProperty_nil hedit
  · simp only [step, container?_eq hbuilding hnext, atIndex]
    exact changed_atProperty_nil hedit

/-- A plain segment leads on from an empty container of its kind, unless its index is too far. -/
theorem Walk.changed_step (hbuilding : walk.building = .containers) (hplain : segment.isPlain = true)
    (hnext : next.isPlain = true) (hindex : ∀ index, segment = .index index → 0 ≤ index ∧ index < maxPadding)
    (hedit : (edit next.container store).changed = .ok true) :
    (walk.step (some next) edit segment segment.container store).changed = .ok true := by
  rcases Segment.exists_of_isPlain hplain with ⟨name, rfl⟩ | ⟨index, rfl⟩
  · exact changed_step_object hbuilding hplain hnext hedit
  · obtain ⟨hnonneg, hlt⟩ := hindex index rfl
    have hresolve : resolveIndex ([] : List Tree).length index = none := by
      rw [resolveIndex, if_pos hnonneg, if_neg (by simpa using hnonneg)]
    have hposition : index.toNat < maxPadding := by omega
    obtain ⟨padded, hpad⟩ := exists_padTo_nil hposition
    obtain ⟨hchanged, -⟩ :=
      Edit.atPosition_of_getElem? (enter (some next.container) edit) store (getElem?_of_padTo hpad (Nat.zero_le _))
    simp only [step, container?_eq hbuilding hnext, Segment.container, atIndex, hresolve, Option.isSome_some, and_true,
      if_pos hnonneg, hpad]
    exact hchanged.trans hedit

theorem Edit.changed_setLast_object (hplain : last.isPlain = true) :
    (Edit.setLast value last (.object []) store).changed = .ok true := by
  rcases Segment.exists_of_isPlain hplain with ⟨name, rfl⟩ | ⟨index, rfl⟩ <;> rfl

theorem Edit.changed_setLast (hplain : last.isPlain = true)
    (hindex : ∀ index, last = .index index → 0 ≤ index ∧ index < maxPadding) :
    (Edit.setLast value last last.container store).changed = .ok true := by
  rcases Segment.exists_of_isPlain hplain with ⟨name, rfl⟩ | ⟨index, rfl⟩
  · rfl
  · obtain ⟨hnonneg, hlt⟩ := hindex index rfl
    have hposition : index.toNat < maxPadding := by omega
    obtain ⟨padded, hpad⟩ := exists_padTo_nil hposition
    simp [setLast, setIndex, Segment.container, hnonneg, hpad]

/-- The walk changes the empty container that its first segment leads into. -/
theorem Walk.changed_visit (hbuilding : walk.building = .containers)
    (hplain : ∀ segment ∈ segments ++ [last], segment.isPlain = true)
    (hindices : ∀ index : Int, .index index ∈ segments ++ [last] → 0 ≤ index ∧ index < maxPadding) :
    ∀ first, (segments ++ [last]).head? = some first →
      (walk.visit (some last) (Edit.setLast value last) segments first.container store).changed = .ok true := by
  induction segments with
  | nil =>
      intro first hfirst
      obtain rfl : last = first := Option.some.inj hfirst
      exact Edit.changed_setLast (hplain last (by simp)) fun index hlast => hindices index (by simp [hlast])
  | cons segment segments ih =>
      intro first hfirst
      obtain rfl : segment = first := Option.some.inj hfirst
      obtain ⟨hsegment, hsegments⟩ := List.forall_mem_cons.mp hplain
      have hedit := ih hsegments fun index hmem => hindices index (List.mem_cons_of_mem _ hmem)
      have hindex : ∀ index, segment = .index index → 0 ≤ index ∧ index < maxPadding :=
        fun index heq => hindices index (by simp [heq])
      cases segments with
      | nil => exact changed_step hbuilding hsegment (hsegments last (by simp)) hindex (hedit last rfl)
      | cons next segments => exact changed_step hbuilding hsegment (hsegments next (by simp)) hindex (hedit next rfl)

end Starting

theorem Path.set_eq {path : Path} {init : List Segment} (hsegments : path.segments = init ++ [last]) {root : Tree}
    (hnull : root.isNull = false) (store : Store) :
    path.set value root store =
      (path.walk root .containers).visit (some last) (Edit.setLast value last) init root store := by
  simp [set, editLast, hnull, hsegments]

theorem Path.exists_segments {path : Path} (hnonempty : path.segments ≠ []) :
    ∃ init last, path.segments = init ++ [last] :=
  ⟨_, _, (List.dropLast_concat_getLast hnonempty).symm⟩

/-- **Assigned values are found.** Along a plain path, unless it reads a property from an array of the document,
evaluation gives the value that was assigned; and from an empty object every value can be assigned, unless an
index after the first segment is negative or too far. -/
theorem Path.eval_set {path : Path} (hnonempty : path.segments ≠ [])
    (hplain : ∀ segment ∈ path.segments, segment.isPlain = true) (value : Tree) :
    (∀ (root : Tree) (store : Store), root.recordFree = true → root.neverMaps path.segments = true →
      (∀ name, path.segments.getLast? = some (.property name false) → isSizeName name = true → value.isNull = false) →
      (path.set value root store).changed = .ok true →
      path.eval (path.set value root store).result = .ok value ∧
        path.eval ((path.set value root store).store.snapshot (path.set value root store).result) =
          .ok ((path.set value root store).store.snapshot value)) ∧
    ((∀ index : Int, .index index ∈ path.segments.tail → 0 ≤ index ∧ index < twoTo 20) →
      ∀ store, (path.set value (.object []) store).changed = .ok true) := by
  obtain ⟨init, last, hsegments⟩ := exists_segments hnonempty
  have hplain' : ∀ segment ∈ init ++ [last], segment.isPlain = true := hsegments ▸ hplain
  constructor
  · intro root store hrecordFree hnever hsize hchanged
    cases hnull : root.isNull with
    | true =>
        have hset : path.set value root store = Edit.skip root store := by rw [set, editLast, if_pos hnull]
        rw [hset] at hchanged
        cases hchanged
    | false =>
        rw [set_eq hsegments hnull] at hchanged ⊢
        rw [hsegments] at hnever
        have hreaches := Walk.reaches_visit rfl hplain' root store hrecordFree hnever hchanged
        rw [← hsegments] at hreaches
        refine ⟨Segment.applyAll_of_descend? hplain hreaches hsize, ?_⟩
        refine Segment.applyAll_of_descend? hplain (Tree.descend?_showRecords _ hreaches) ?_
        simpa only [Store.snapshot, Tree.isNull_showRecords] using hsize
  · intro hindices store
    rw [set_eq hsegments rfl]
    rw [hsegments] at hindices
    cases init with
    | nil => exact Edit.changed_setLast_object (hplain' last (by simp))
    | cons segment init =>
        obtain ⟨hsegment, hrest⟩ := List.forall_mem_cons.mp hplain'
        have hedit : ∀ first, (init ++ [last]).head? = some first →
            ((path.walk (.object []) .containers).visit (some last) (Edit.setLast value last) init first.container
              store).changed = .ok true := Walk.changed_visit rfl hrest hindices
        cases init with
        | nil => exact Walk.changed_step_object rfl hsegment (hrest last (by simp)) (hedit last rfl)
        | cons next init => exact Walk.changed_step_object rfl hsegment (hrest next (by simp)) (hedit next rfl)

/-- An array grows up to the index, and the null there becomes an object. -/
theorem Path.eval_set_listed :
    let path := Path.mk "$.list[-1].rows[2]"
      [.property "list" false, .index (-1), .property "rows" false, .index 2] false true
    let root := Tree.object [("list", .array [.bool true, .null])]
    (path.eval (path.set (.integer 7) root Store.empty).result = .ok (.integer 7) ∧
      path.eval (Store.empty.snapshot (path.set (.integer 7) root Store.empty).result) = .ok (.integer 7)) ∧
    (Path.set (.mk "$[-3].rows[2]" [.index (-3), .property "rows" false, .index 2] false true) (.integer 7) (.object [])
      Store.empty).changed = .ok true := by
  intro path root
  constructor
  · have hplain : ∀ segment ∈ path.segments, segment.isPlain = true := by simp [path, segments, Segment.isPlain]
    exact (eval_set (by simp [path, segments]) hplain _).1 root Store.empty rfl rfl (fun _ _ _ => rfl) rfl
  · refine (eval_set (by simp [segments]) (by simp [segments, Segment.isPlain]) _).2 ?_ Store.empty
    intro index hmem
    obtain rfl : index = 2 := by simpa [segments] using hmem
    decide

end TreeQuery
