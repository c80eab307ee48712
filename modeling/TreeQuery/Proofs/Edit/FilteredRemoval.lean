import TreeQuery.Proofs.Edit.Selections

/-!
# Removing through a filter after properties

A filter that follows properties is asked about what the last property gives: the items of an array there, or what
else stands there. Its removal takes items out of arrays, and objects with or from their holders. It does not ask about
scalars that stand directly under the property, and it does not look for the property in an array within an array, so
that is all that the path may still give.
-/

namespace TreeQuery

open TreeQuery.Tree

namespace Tree

def scalarUnder (dropNulls : Bool) (name : String) (tree : Tree) : List Tree :=
  if (tree.property dropNulls name).isScalar then (tree.property dropNulls name).spliced dropNulls else []

/-- What is not looked at in an item of an array; an item that is an array is passed over. -/
def leftUnderItem (dropNulls : Bool) (name : String) (item : Tree) : List Tree :=
  if item.isArray then (item.property dropNulls name).spliced dropNulls else item.scalarUnder dropNulls name

/-- What a filtered removal under a property does not look at. -/
def leftUnder (dropNulls : Bool) (name : String) : Tree → List Tree
  | array items => items.flatMap (leftUnderItem dropNulls name)
  | tree => tree.scalarUnder dropNulls name

/-- What the properties give fails the test, or is not looked at under the last of them. -/
def Cleared (test : Tree → Except Fault Bool) (dropNulls : Bool) (last : String) (names : List String)
    (tree : Tree) : Prop :=
  ∀ found ∈ (tree.readAll dropNulls (names ++ [last])).spliced dropNulls,
    test found = .ok false ∨ found ∈ (tree.readAll dropNulls names).leftUnder dropNulls last

variable {test : Tree → Except Fault Bool} {dropNulls : Bool} {last name : String} {names : List String}
  {tree : Tree} {items : List Tree} {entries : Entries Tree}

theorem exists_items_of_isArray (harray : tree.isArray = true) : ∃ items, tree = array items := by
  cases tree with
  | array items => exact ⟨items, rfl⟩
  | _ => cases harray

theorem leftUnder_of_isArray_eq_false (harray : tree.isArray = false) :
    tree.leftUnder dropNulls name = tree.scalarUnder dropNulls name := by
  cases tree <;> first | rfl | cases harray

theorem leftUnder_of_isScalar (hscalar : tree.isScalar = true) (htext : tree.objectTextFree = true) :
    tree.leftUnder dropNulls name = null.spliced dropNulls := by
  have harray : tree.isArray = false := by cases tree <;> first | rfl | cases hscalar
  rw [leftUnder_of_isArray_eq_false harray, scalarUnder, property_of_isScalar hscalar htext]
  rfl

theorem leftUnder_spliced (tree : Tree) :
    (tree.spliced dropNulls).flatMap (leftUnderItem dropNulls last) = tree.leftUnder dropNulls last := by
  cases tree with
  | array items => rfl
  | null => cases dropNulls <;> rfl
  | _ => exact List.flatMap_singleton ..

/-- A property of an array is read from its items, so that what is left there is left under their values. -/
theorem leftUnder_readAll_array (hnames : ∀ key ∈ name :: names, isSizeName key = false) (items : List Tree) :
    ((array items).readAll dropNulls (name :: names)).leftUnder dropNulls last =
      items.flatMap fun item => (item.readAll dropNulls (name :: names)).leftUnder dropNulls last := by
  rw [readAll_array (List.cons_ne_nil _ _) hnames, leftUnder, List.flatMap_assoc]
  simp only [leftUnder_spliced]

theorem mem_spliced_of_mem_leftUnder {found : Tree} (hname : isSizeName name = false)
    (hmem : found ∈ tree.leftUnder dropNulls name) : found ∈ (tree.property dropNulls name).spliced dropNulls := by
  have hscalar (tree : Tree) (hmem : found ∈ tree.scalarUnder dropNulls name) :
      found ∈ (tree.property dropNulls name).spliced dropNulls := by
    rw [scalarUnder] at hmem
    split at hmem
    · exact hmem
    · cases hmem
  cases harray : tree.isArray with
  | true =>
      obtain ⟨items, rfl⟩ := exists_items_of_isArray harray
      obtain ⟨item, hitem, hmem⟩ := List.mem_flatMap.mp hmem
      rw [property_array hname]
      refine List.mem_flatMap.mpr ⟨item, hitem, ?_⟩
      rw [leftUnderItem] at hmem
      split at hmem
      · exact hmem
      · exact hscalar item hmem
  | false => exact hscalar tree (leftUnder_of_isArray_eq_false harray ▸ hmem)

/-! ### From parts to the whole -/

theorem cleared_null (names : List String) : null.Cleared test dropNulls last names := by
  intro found hfound
  rw [readAll_null] at hfound
  rw [readAll_null, leftUnder_of_isScalar rfl rfl]
  exact .inr hfound

theorem cleared_of_isScalar (hscalar : tree.isScalar = true) (htext : tree.objectTextFree = true)
    (names : List String) : tree.Cleared test dropNulls last names := by
  have hproperty (name : String) : tree.property dropNulls name = null := property_of_isScalar hscalar htext
  cases names with
  | nil =>
      intro found hfound
      rw [List.nil_append, readAll, hproperty] at hfound
      rw [readAll, leftUnder_of_isScalar hscalar htext]
      exact .inr hfound
  | cons name names =>
      intro found hfound
      rw [List.cons_append, readAll, hproperty] at hfound
      rw [readAll, hproperty]
      exact cleared_null names found hfound

theorem Cleared.array (hnames : ∀ key ∈ name :: names ++ [last], isSizeName key = false)
    (hitems : ∀ item ∈ items, item.Cleared test dropNulls last (name :: names)) :
    (Tree.array items).Cleared test dropNulls last (name :: names) := by
  intro found hfound
  rw [readAll_array (by simp) hnames] at hfound
  obtain ⟨item, hitem, hfound⟩ := List.mem_flatMap.mp hfound
  rw [leftUnder_readAll_array fun key hmem => hnames key (List.mem_append_left _ hmem)]
  exact (hitems item hitem found hfound).imp_right fun hleft => List.mem_flatMap.mpr ⟨item, hitem, hleft⟩

/-- Where the last property is read from an array, only the items that are no arrays are to be cleared. -/
theorem cleared_array (hlast : isSizeName last = false)
    (hitems : ∀ item ∈ items, item.isArray = false → item.Cleared test dropNulls last []) :
    (Tree.array items).Cleared test dropNulls last [] := by
  intro found hfound
  rw [readAll_array (by simp) (by simpa using hlast)] at hfound
  obtain ⟨item, hitem, hfound⟩ := List.mem_flatMap.mp hfound
  have hleft : found ∈ item.leftUnderItem dropNulls last →
      found ∈ ((Tree.array items).readAll dropNulls []).leftUnder dropNulls last :=
    fun hmem => List.mem_flatMap.mpr ⟨item, hitem, hmem⟩
  cases harray : item.isArray with
  | true => exact .inr (hleft (by rwa [leftUnderItem, if_pos harray]))
  | false =>
      refine (hitems item hitem harray found hfound).imp_right fun hmem => hleft ?_
      rw [readAll, leftUnder_of_isArray_eq_false harray] at hmem
      rwa [leftUnderItem, harray, if_neg Bool.false_ne_true]

theorem Cleared.object (hname : isSizeName name = false)
    (hchild : ((Entries.find? entries name).getD null).Cleared test dropNulls last names) :
    (Tree.object entries).Cleared test dropNulls last (name :: names) := by
  intro found hfound
  rw [List.cons_append, readAll, property_object hname] at hfound
  rw [readAll, property_object hname]
  exact hchild found hfound

theorem cleared_object (hlast : isSizeName last = false)
    (htest : ((Entries.find? entries last).getD null).isScalar = true ∨
      ∀ found ∈ ((Entries.find? entries last).getD null).spliced dropNulls, test found = .ok false) :
    (object entries).Cleared test dropNulls last [] := by
  intro found hfound
  rw [List.nil_append, readAll, readAll, property_object hlast] at hfound
  rcases htest with hscalar | htest
  · rw [readAll, leftUnder_of_isArray_eq_false rfl, scalarUnder, property_object hlast, if_pos hscalar]
    exact .inr hfound
  · exact .inl (htest found hfound)

end Tree

/-! ### The removal -/

section Removal

variable {walk : Walk} {condition : Filter} {test : Tree → Except Fault Bool} {dropNulls : Bool} {last : String}
  {names : List String} {entries entries' : Entries Tree} {items items' : List Tree} {store s : Store} {a : Bool}
  {start : Nat} {doomed : List Nat}

theorem Walk.cleared_removeUnder (hlast : isSizeName last = false)
    (htest : ∀ item store, item.recordFree = true → walk.accepts condition item store = test item)
    (hentries : (Tree.object entries).recordFree = true)
    (hunder : walk.removeUnder condition last entries store = (⟨entries', s, .ok a⟩, false)) :
    (Tree.object entries').Cleared test dropNulls last [] := by
  have hvalues := (everywhere_object.mp hentries).2
  cases hfind : Entries.find? entries last with
  | none =>
      simp only [removeUnder, hfind] at hunder
      cases hunder
      exact cleared_object hlast (.inl (by rw [hfind]; rfl))
  | some child =>
      have hchild := hvalues _ (Entries.mem_of_find? hfind)
      cases child with
      | array children =>
          have hitems := (everywhere_array.mp hchild).2
          have hremove := removeMatches_items fun item hitem => htest item store (hitems item hitem)
          simp only [removeUnder, hfind, hremove] at hunder
          cases hfault : firstFault? test children with
          | some fault => rw [hfault] at hunder; cases hunder
          | none =>
              rw [hfault] at hunder
              cases hunder
              refine cleared_object hlast (.inr fun found hfound => ?_)
              rw [Entries.find?_insert_self] at hfound
              obtain ⟨hmem, hpasses⟩ := List.mem_filter.mp hfound
              exact eq_ok_false_of_firstFault? hfault hmem (by simpa using hpasses)
      | object children =>
          simp only [removeUnder, hfind, htest _ store hchild] at hunder
          cases hfound : test (.object children) with
          | error fault => rw [hfound] at hunder; cases hunder
          | ok found =>
              rw [hfound] at hunder
              cases hunder
              refine cleared_object hlast (.inr fun found hmem => ?_)
              rw [hfind] at hmem
              rwa [List.mem_singleton.mp hmem]
      | record handle children => cases hchild
      | _ =>
          simp only [removeUnder, hfind] at hunder
          cases hunder
          exact cleared_object hlast (.inl (by rw [hfind]; rfl))

theorem Walk.removeUnderItems_cons_eq_ok {first : Tree}
    (hunder : walk.removeUnderItems condition last start (first :: items) store = (⟨items', s, .ok a⟩, doomed)) :
    ∃ first' tail t u b positions, items' = first' :: tail ∧ positions ⊆ doomed ∧
      walk.removeUnderItems condition last (start + 1) items t = (⟨tail, u, .ok b⟩, positions) ∧
      ((first' = first ∧ ∀ entries, first ≠ .object entries) ∨
        ∃ entries entries' c goes, first = .object entries ∧ first' = .object entries' ∧
          walk.removeUnder condition last entries store = (⟨entries', t, .ok c⟩, goes) ∧
          (goes = true → start ∈ doomed)) := by
  by_cases hobject : ∃ entries, first = .object entries
  · obtain ⟨entries, rfl⟩ := hobject
    rw [removeUnderItems] at hunder
    rcases hentries : walk.removeUnder condition last entries store with ⟨⟨entries', t, changed⟩, goes⟩
    rw [hentries] at hunder
    cases changed with
    | error fault => cases hunder
    | ok c =>
        rcases hrest : walk.removeUnderItems condition last (start + 1) items t with ⟨⟨tail, u, changed⟩, positions⟩
        simp only [Change.map, hrest] at hunder
        cases changed with
        | error fault => cases hunder
        | ok b =>
            cases hunder
            refine ⟨_, tail, t, u, b, positions, rfl, ?_, hrest,
              .inr ⟨entries, entries', c, goes, rfl, rfl, hentries, ?_⟩⟩
            · cases goes <;> simp
            · rintro rfl
              simp
  · have hother : ∀ entries, first ≠ .object entries := fun entries heq => hobject ⟨entries, heq⟩
    rw [removeUnderItems.eq_3 _ _ _ _ _ _ _ hother] at hunder
    rcases hrest : walk.removeUnderItems condition last (start + 1) items store with ⟨⟨tail, u, changed⟩, positions⟩
    rw [hrest] at hunder
    cases hunder
    exact ⟨first, tail, store, _, _, _, rfl, List.Subset.refl _, hrest, .inl ⟨rfl, hother⟩⟩

/-- In an array every object is treated by itself. Scalars hold nothing to clear, and arrays are left. -/
theorem Walk.cleared_removeUnderItems (hlast : isSizeName last = false)
    (htest : ∀ item store, item.recordFree = true → walk.accepts condition item store = test item)
    (hrecordFree : ∀ item ∈ items, item.recordFree = true) (htext : ∀ item ∈ items, item.objectTextFree = true)
    (hunder : walk.removeUnderItems condition last start items store = (⟨items', s, .ok a⟩, doomed)) :
    ∀ index item, items'[index]? = some item → start + index ∉ doomed → item.isArray = false →
      item.Cleared test dropNulls last [] := by
  induction items generalizing start store items' s a doomed with
  | nil =>
      cases hunder
      intro index item hitem
      simp at hitem
  | cons first items ih =>
      obtain ⟨hfirst, hrecordFree⟩ := List.forall_mem_cons.mp hrecordFree
      obtain ⟨hfirstText, htext⟩ := List.forall_mem_cons.mp htext
      obtain ⟨first', tail, t, u, b, positions, rfl, hsubset, hrest, hhead⟩ := removeUnderItems_cons_eq_ok hunder
      rintro (_ | index) item hitem hkept harray
      · obtain rfl : first' = item := by simpa using hitem
        rcases hhead with ⟨rfl, hother⟩ | ⟨entries, entries', c, goes, rfl, rfl, hentries, hgoes⟩
        · rcases Edit.shape_of_recordFree hfirst with hscalar | ⟨nested, rfl⟩ | ⟨entries, rfl⟩
          · exact cleared_of_isScalar hscalar hfirstText []
          · cases harray
          · exact absurd rfl (hother entries)
        · cases goes with
          | true => exact absurd (hgoes rfl) hkept
          | false => exact cleared_removeUnder hlast htest hfirst hentries
      · refine ih hrecordFree htext hrest index item (by simpa using hitem) (fun hmem => hkept (hsubset ?_)) harray
        rwa [Nat.add_assoc, Nat.add_comm 1 index] at hmem

def Edit.Clears (edit : Edit Tree) (test : Tree → Except Fault Bool) (dropNulls : Bool) (last : String)
    (names : List String) : Prop :=
  ∀ tree : Tree, tree.recordFree = true → tree.objectTextFree = true →
    ∀ ⦃result⦄, edit.Gives tree result → result.Cleared test dropNulls last names

theorem Walk.clears_removeChildren (hlast : isSizeName last = false)
    (htest : ∀ item store, item.recordFree = true → walk.accepts condition item store = test item) :
    (walk.removeChildren condition last).Clears test dropNulls last [] := by
  intro tree hrecordFree htext result hgives
  obtain ⟨store, s, a, hedit⟩ := hgives
  rcases Edit.shape_of_recordFree hrecordFree with hscalar | ⟨items, rfl⟩ | ⟨entries, rfl⟩
  · have hskip : walk.removeChildren condition last tree store = Edit.skip tree store := by
      cases tree <;> first | rfl | cases hscalar
    rw [hskip] at hedit
    cases hedit
    exact cleared_of_isScalar hscalar htext []
  · rw [removeChildren] at hedit
    rcases hunder : walk.removeUnderItems condition last 0 items store with ⟨⟨items', t, changed⟩, doomed⟩
    rw [hunder] at hedit
    cases changed with
    | error fault => cases hedit
    | ok changed =>
        cases hedit
        have hcleared : ∀ index item, items'[index]? = some item → 0 + index ∉ doomed → item.isArray = false →
            item.Cleared test dropNulls last [] :=
          cleared_removeUnderItems hlast htest (everywhere_array.mp hrecordFree).2 (everywhere_array.mp htext).2 hunder
        refine cleared_array hlast fun item hitem harray => ?_
        obtain ⟨⟨_, index⟩, hmem, rfl⟩ := List.mem_map.mp hitem
        obtain ⟨hentry, hkept⟩ := List.mem_filter.mp hmem
        refine hcleared index _ (List.mem_zipIdx_iff_getElem?.mp hentry) ?_ harray
        simpa using hkept
  · rw [removeChildren] at hedit
    rcases hunder : walk.removeUnder condition last entries store with ⟨⟨entries', t, changed⟩, goes⟩
    rw [hunder] at hedit
    cases goes with
    | true =>
        cases hedit
        exact cleared_object hlast (.inl (by rw [Entries.find?_erase]; rfl))
    | false =>
        obtain ⟨entries'', hentries, rfl⟩ := Change.map_eq_ok hedit
        cases hentries
        exact cleared_removeUnder hlast htest hrecordFree hunder

theorem Edit.exists_gives_of_mem {α : Type} {edit : Edit α} {xs ys : List α} {y : α}
    (heach : each edit xs store = ⟨ys, s, .ok a⟩) (hy : y ∈ ys) : ∃ x ∈ xs, edit.Gives x y := by
  induction xs generalizing store s a ys with
  | nil =>
      cases heach
      exact absurd hy List.not_mem_nil
  | cons first xs ih =>
      obtain ⟨z, t, b, zs, c, hz, hzs, rfl, -⟩ := Change.cons_eq_ok heach
      rcases List.mem_cons.mp hy with rfl | hy
      · exact ⟨first, List.mem_cons_self, store, t, b, hz⟩
      · obtain ⟨x, hx, hgives⟩ := ih hzs hy
        exact ⟨x, List.mem_cons_of_mem _ hx, hgives⟩

theorem Edit.Clears.atProperty {edit : Edit Tree} {name : String} (hclears : edit.Clears test dropNulls last names)
    (hnames : ∀ key ∈ name :: names ++ [last], isSizeName key = false) :
    Edit.Clears (throughArrays (Walk.atProperty none name edit)) test dropNulls last (name :: names) := by
  intro tree
  have hname := hnames name (by simp)
  induction tree using Tree.induction with
  | scalar tree hscalar =>
      rintro - htext result ⟨store, s, a, hedit⟩
      have hskip : throughArrays (Walk.atProperty none name edit) tree store = skip tree store := by
        cases tree <;> first | rfl | cases hscalar
      rw [hskip] at hedit
      cases hedit
      exact cleared_of_isScalar hscalar htext _
  | array items ih =>
      rintro hrecordFree htext result ⟨store, s, a, hedit⟩
      rw [throughArrays, throughItems_eq] at hedit
      obtain ⟨items', hitems, rfl⟩ := Change.map_eq_ok hedit
      refine Cleared.array hnames fun item' hitem' => ?_
      obtain ⟨item, hitem, hgives⟩ := exists_gives_of_mem hitems hitem'
      exact ih item hitem ((everywhere_array.mp hrecordFree).2 item hitem) ((everywhere_array.mp htext).2 item hitem)
        hgives
  | object entries _ =>
      rintro hrecordFree htext result ⟨store, s, a, hedit⟩
      replace hedit : Walk.atProperty none name edit (.object entries) store = ⟨result, s, .ok a⟩ := hedit
      cases hfind : Entries.find? entries name with
      | none =>
          simp only [Walk.atProperty, Entries.contains, hfind] at hedit
          cases hedit
          refine Cleared.object hname ?_
          rw [hfind]
          exact cleared_null names
      | some child =>
          rw [Walk.atProperty_of_find? hfind, Walk.enter_none] at hedit
          obtain ⟨child', hchild, rfl⟩ := Change.map_eq_ok hedit
          have hmem := Entries.mem_of_find? hfind
          rw [putAt_key hfind]
          refine Cleared.object hname ?_
          rw [Entries.find?_insert_self]
          exact hclears child ((everywhere_object.mp hrecordFree).2 _ hmem) ((everywhere_object.mp htext).2 _ hmem)
            ⟨store, s, a, hchild⟩
  | record handle entries _ =>
      intro hrecordFree
      cases hrecordFree

theorem Walk.clears_visit (hbuilding : walk.building = .nothing) (next : Option Segment)
    (hnames : ∀ name ∈ names ++ [last], isSizeName name = false)
    (htest : ∀ item store, item.recordFree = true → walk.accepts condition item store = test item) :
    (walk.visit next (walk.removeChildren condition last) (Segment.ofNames names)).Clears test dropNulls
      last names := by
  induction names with
  | nil => exact clears_removeChildren (hnames last (by simp)) htest
  | cons name names ih =>
      rw [Segment.ofNames_cons, visit, step, container?_eq_none hbuilding]
      exact (ih fun name hmem => hnames name (List.mem_cons_of_mem _ hmem)).atProperty hnames

theorem filterTree_of_single {tree : Tree} (hnull : tree.isNull = false) (harray : tree.isArray = false) :
    filterTree test tree = (test tree).map fun found => if found then tree else .null := by
  cases tree with
  | null => cases hnull
  | array items => cases harray
  | _ => rfl

/-- A filter selects what passes it, and where all that is not left fails, it selects from what is left. -/
theorem filterTree_cases {tree : Tree} {left : List Tree}
    (hcleared : ∀ found ∈ tree.spliced dropNulls, test found = .ok false ∨ found ∈ left)
    (hleft : ∀ found ∈ left, found ∈ tree.spliced dropNulls) :
    (∃ answer, filterTree test tree = .ok answer ∧
        (∀ found ∈ answer.spliced true, found ∈ left ∧ test found = .ok true) ∧
        ∀ found ∈ left, found.isNull = false → test found = .ok true → found ∈ answer.spliced true) ∨
      ∃ fault, filterTree test tree = .error fault ∧ ∃ found ∈ left, test found = .error fault := by
  have hkept : ∀ found ∈ tree.spliced dropNulls, test found ≠ .ok false → found ∈ left :=
    fun found hmem hne => (hcleared found hmem).resolve_left hne
  cases hnull : tree.isNull with
  | true =>
      obtain rfl : tree = .null := eq_null_of_isNull hnull
      refine .inl ⟨.null, rfl, List.forall_mem_nil _, fun found hmem hfound _ => ?_⟩
      have hnulls : ∀ found ∈ null.spliced dropNulls, found = .null := by cases dropNulls <;> simp [spliced]
      rw [hnulls found (hleft found hmem)] at hfound
      cases hfound
  | false =>
      cases harray : tree.isArray with
      | true =>
          obtain ⟨items, rfl⟩ := exists_items_of_isArray harray
          rw [filterTree, selectItems_eq]
          cases hfault : firstFault? test items with
          | some fault =>
              obtain ⟨found, hmem, htest⟩ := exists_error_of_firstFault? hfault
              exact .inr ⟨fault, rfl, found, hkept found hmem (by simp [htest]), htest⟩
          | none =>
              refine .inl ⟨_, rfl, fun found hfound => ?_, fun found hmem _ htest => ?_⟩
              · obtain ⟨hmem, hpasses⟩ := List.mem_filter.mp hfound
                have htest := eq_ok_true_of_passes hpasses
                exact ⟨hkept found hmem (by simp [htest]), htest⟩
              · exact List.mem_filter.mpr ⟨hleft found hmem, by simp [passes, htest]⟩
      | false =>
          rw [spliced_of_single hnull harray] at hkept hleft
          rw [filterTree_of_single hnull harray]
          cases htest : test tree with
          | error fault =>
              exact .inr ⟨fault, rfl, tree, hkept tree (List.mem_singleton_self tree) (by simp [htest]), htest⟩
          | ok passed =>
              cases passed with
              | true =>
                  refine .inl ⟨tree, rfl, fun found hfound => ?_, fun found hmem _ _ => ?_⟩
                  · rw [spliced_of_single hnull harray] at hfound
                    obtain rfl := List.mem_singleton.mp hfound
                    exact ⟨hkept found hfound (by simp [htest]), htest⟩
                  · exact (spliced_of_single hnull harray true).symm ▸ hleft found hmem
              | false =>
                  refine .inl ⟨.null, rfl, List.forall_mem_nil _, fun found hmem _ hpasses => ?_⟩
                  rw [List.mem_singleton.mp (hleft found hmem), htest] at hpasses
                  cases hpasses

/-- **What a filtered removal leaves.** Let a path of properties end in a filter that refers to nothing else, and let the
removal succeed. What the path gives afterwards is what passes the filter among that at which the removal does not look:
scalars that stand directly under the last property (a null that is kept for a missing property is one of them), and all
that the property gives from an array within an array. Evaluation can fail on one of these alone. -/
theorem Path.eval_remove_filtered {path : Path} {condition : Filter} {root : Tree}
    (hsegments : path.segments = Segment.ofNames (names ++ [last]) ++ [.filter condition])
    (hnames : ∀ name ∈ names ++ [last], isSizeName name = false) (hrefers : condition.refers = false)
    (hrecordFree : root.recordFree = true) (htext : root.objectTextFree = true)
    (hchanged : (path.remove root store).changed = .ok a) :
    let result := (path.remove root store).result
    let left := (result.readAll path.dropNulls names).leftUnder path.dropNulls last
    (∃ answer, path.eval result = .ok answer ∧
        (∀ found ∈ answer.spliced true, found ∈ left ∧ condition.holds result path.dropNulls found = .ok true) ∧
        ∀ found ∈ left, found.isNull = false → condition.holds result path.dropNulls found = .ok true →
          found ∈ answer.spliced true) ∨
      ∃ fault, path.eval result = .error fault ∧
        ∃ found ∈ left, condition.holds result path.dropNulls found = .error fault := by
  intro result left
  have htest : ∀ item store, item.recordFree = true → (path.walk root .nothing).accepts condition item store =
      condition.holds root path.dropNulls item :=
    fun item store hitem => accepts_walk (by simp [hrefers]) hrecordFree .nothing hitem store
  have hreverse : path.segments.reverse =
      .filter condition :: .property last false :: (Segment.ofNames names).reverse := by
    simp [hsegments, Segment.ofNames_concat]
  have hcleared : result.Cleared (condition.holds root path.dropNulls ·) path.dropNulls last names := by
    cases hnull : root.isNull with
    | true =>
        obtain rfl : root = .null := eq_null_of_isNull hnull
        have hresult : result = .null := by simp only [result, remove, hreverse]; rfl
        rw [hresult]
        exact cleared_null names
    | false =>
        have hbuilding : (path.walk root .nothing).building = .nothing := rfl
        refine Walk.clears_visit hbuilding (some (.property last false)) hnames htest root hrecordFree htext
          ⟨store, (path.remove root store).store, a, ?_⟩
        rw [← hchanged]
        simp only [result, remove, hreverse, hnull, List.reverse_reverse]
        rfl
  have heval : path.eval result = filterTree (condition.holds result path.dropNulls ·)
      (result.readAll path.dropNulls (names ++ [last])) := by
    rw [eval, hsegments, Segment.applyAll_append, Segment.applyAll_ofNames]
    refine (Segment.applyAll_singleton _ _).trans ?_
    rw [Segment.apply]
  have hholds : (condition.holds result path.dropNulls ·) = (condition.holds root path.dropNulls ·) :=
    funext fun item => Filter.holds_of_refers_eq_false hrefers item
  rw [← hholds] at hcleared
  rw [heval]
  refine filterTree_cases hcleared fun found hmem => ?_
  rw [readAll_concat]
  exact mem_spliced_of_mem_leftUnder (hnames last (by simp)) hmem

/-- The number in the list goes. The one that stands by itself stays, and so does the list within the list. -/
theorem Path.eval_remove_filtered_rows :
    let condition := Filter.string .kind .eq "number"
    let path := Path.mk "$.rows.a[?(type() == 'number')]"
      [.property "rows" false, .property "a" false, .filter condition] false true
    let nested := Tree.array [.object [("a", .array [.integer 7, .string "y"])]]
    let root := Tree.object [("rows", .array [.object [("a", .integer 5)],
      .object [("a", .array [.integer 6, .string "x"])], nested])]
    root.recordFree = true ∧ root.objectTextFree = true ∧
      path.remove root Store.empty = ⟨.object [("rows", .array [.object [("a", .integer 5)],
        .object [("a", .array [.string "x"])], nested])], Store.empty, .ok true⟩ ∧
      ∃ answer, path.eval (path.remove root Store.empty).result = .ok answer ∧
        (∀ found ∈ answer.spliced true, found ∈ [Tree.integer 5, .integer 7, .string "y"]) ∧
        Tree.integer 5 ∈ answer.spliced true ∧ Tree.integer 7 ∈ answer.spliced true := by
  intro condition path nested root
  have hsegments : path.segments = Segment.ofNames (["rows"] ++ ["a"]) ++ [.filter condition] := rfl
  have hnames : ∀ name ∈ ["rows"] ++ ["a"], isSizeName name = false := by decide
  have htext : root.objectTextFree = true := by decide
  have hchanged : (path.remove root Store.empty).changed = .ok true := rfl
  refine ⟨rfl, htext, rfl, ?_⟩
  have hfive : Tree.integer 5 ∈ [Tree.integer 5, .integer 7, .string "y"] := by simp
  have hseven : Tree.integer 7 ∈ [Tree.integer 5, .integer 7, .string "y"] := by simp
  rcases eval_remove_filtered hsegments hnames rfl rfl htext hchanged with
    ⟨answer, hanswer, honly, hall⟩ | ⟨fault, hfault, -⟩
  · exact ⟨answer, hanswer, fun found hmem => (honly found hmem).1, hall _ hfive rfl rfl, hall _ hseven rfl rfl⟩
  · cases hfault

/-- An object in an array within an array passes the filter, and is not removed. -/
theorem Path.remove_filtered_nested :
    let condition := Filter.integer (.property "x") .eq 1
    let path := Path.mk "$.a[?(@.x == 1)]" [.property "a" false, .filter condition] false true
    let root := Tree.array [.array [.object [("a", .object [("x", .integer 1)])]]]
    path.segments = Segment.ofNames ["a"] ++ [.filter condition] ∧ isSizeName "a" = false ∧
      condition.refers = false ∧ root.recordFree = true ∧ root.objectTextFree = true ∧
      path.remove root Store.empty = ⟨root, Store.empty, .ok false⟩ ∧
      path.eval root = .ok (.array [.object [("x", .integer 1)]]) := by
  intro condition path root
  exact ⟨rfl, by decide, rfl, rfl, by decide, rfl, rfl⟩

end Removal

end TreeQuery
