import TreeQuery.Proofs.Edit.Commuting
import TreeQuery.Proofs.Edit.Objects
import TreeQuery.Proofs.Edit.Obstacles
import TreeQuery.Proofs.Query.Records

/-!
# Assignments that spread over arrays

Names lead through arrays to all the objects in them. An assignment along names writes its value in each of these
objects and builds what is missing on the way, and evaluation collects the value from each of them again. What is
skipped by the assignment is skipped by evaluation too.
-/

namespace TreeQuery

open TreeQuery.Tree

/-! ### What an assignment leaves -/

namespace Tree

def orObject (tree : Tree) : Tree := if tree.isNull then object [] else tree

/-- A value put at the end of the names in every object that they lead to. -/
def spread (value : Tree) : List String → Tree → Tree
  | [], _ => value
  | name :: names, tree => tree.mapObjects fun entries =>
    Entries.insert name (spread value names ((Entries.find? entries name).getD null).orObject) entries

/-- Whether the names lead to some object that takes a value at their end. -/
def takes : List String → Tree → Bool
  | [], _ => true
  | name :: names, tree => tree.anyObject fun entries => takes names ((Entries.find? entries name).getD null).orObject

variable {tree value : Tree} {names : List String} {name : String}

theorem everywhere_orObject {test : Tree → Bool} (hempty : test (object []) = true)
    (htest : tree.everywhere test = true) : tree.orObject.everywhere test = true := by
  rw [orObject]
  split
  · simpa [everywhere, everywhereInEntries] using hempty
  · exact htest

theorem everywhere_below {test : Tree → Bool} {entries : Entries Tree} (hnull : test null = true)
    (hempty : test (object []) = true) (htest : (object entries).everywhere test = true) (name : String) :
    ((Entries.find? entries name).getD null).orObject.everywhere test = true :=
  everywhere_orObject hempty (Entries.everywhere_getD_find? hnull (everywhere_object.mp htest).2 name)

theorem spread_of_isScalar (hscalar : tree.isScalar = true) : value.spread (name :: names) tree = tree :=
  mapObjects_of_isScalar hscalar

theorem spread_array (items : List Tree) :
    value.spread (name :: names) (array items) = array (items.map (value.spread (name :: names))) :=
  mapObjects_array items

theorem spread_object (entries : Entries Tree) :
    value.spread (name :: names) (object entries) =
      object (Entries.insert name (value.spread names ((Entries.find? entries name).getD null).orObject) entries) := rfl

end Tree

/-! ### What an assignment does -/

namespace Edit

variable {edit inner : Edit Tree} {f : Tree → Tree} {test : Tree → Bool} {name : String} {tree : Tree}

def YieldsAt (edit : Edit Tree) (f : Tree → Tree) (test : Tree → Bool) (tree : Tree) : Prop :=
  ∀ ⦃store s result a⦄, edit tree store = ⟨result, s, .ok a⟩ → result = f tree ∧ s = store ∧ a = test tree

def Yields (edit : Edit Tree) (f : Tree → Tree) (test : Tree → Bool) : Prop :=
  ∀ tree : Tree, tree.recordFree = true → edit.YieldsAt f test tree

theorem each_eq_ok {items results : List Tree} {store s : Store} {a : Bool}
    (hitems : ∀ item ∈ items, edit.YieldsAt f test item) (heach : each edit items store = ⟨results, s, .ok a⟩) :
    results = items.map f ∧ s = store ∧ a = items.any test := by
  induction items generalizing store s results a with
  | nil =>
      cases heach
      exact ⟨rfl, rfl, rfl⟩
  | cons item items ih =>
      obtain ⟨hitem, hitems⟩ := List.forall_mem_cons.mp hitems
      obtain ⟨result, t, b, others, c, hfirst, hrest, rfl, rfl⟩ := Change.cons_eq_ok heach
      obtain ⟨rfl, rfl, rfl⟩ := hitem hfirst
      obtain ⟨rfl, rfl, rfl⟩ := ih hitems hrest
      exact ⟨rfl, rfl, rfl⟩

/-- An edit of one entry that goes through arrays changes all objects there, and reports no change for scalars. -/
theorem GoesThrough.yields (hedit : edit.GoesThrough name inner) (hinner : inner.Yields f test)
    (hkept : ∀ (tree : Tree) (store : Store), tree.isScalar = true → (edit tree store).changed ≠ .ok true) :
    edit.Yields (mapObjects fun entries => Entries.insert name (f ((Entries.find? entries name).getD .null)) entries)
      (anyObject fun entries => test ((Entries.find? entries name).getD .null)) := by
  intro tree
  induction tree using Tree.induction with
  | scalar tree hscalar =>
      intro _ store s result a hresult
      have hne := hkept tree store hscalar
      obtain ⟨changed, hchanged⟩ := hedit.scalar tree hscalar
      rw [hchanged] at hresult hne
      cases hresult
      rw [mapObjects_of_isScalar hscalar, anyObject_of_isScalar hscalar]
      exact ⟨rfl, rfl, Bool.eq_false_iff.mpr fun ha => hne (congrArg Except.ok ha)⟩
  | array items ih =>
      intro hrecordFree store s result a hresult
      have hitems := (everywhere_array.mp hrecordFree).2
      rw [hedit.array] at hresult
      obtain ⟨results, hresults, rfl⟩ := Change.map_eq_ok hresult
      obtain ⟨rfl, rfl, rfl⟩ := each_eq_ok (fun item hitem => ih item hitem (hitems item hitem)) hresults
      rw [mapObjects_array, anyObject_array]
      exact ⟨rfl, rfl, rfl⟩
  | object entries _ =>
      intro hrecordFree store s result a hresult
      rw [hedit.object] at hresult
      obtain ⟨child, hchild, rfl⟩ := Change.map_eq_ok hresult
      obtain ⟨rfl, rfl, rfl⟩ := hinner _ (recordFree_getD_find? hrecordFree name) hchild
      exact ⟨rfl, rfl, rfl⟩
  | record handle entries _ => exact fun hrecordFree => by cases hrecordFree

theorem Yields.enter (hedit : edit.Yields f test) :
    Yields (Walk.enter (some (.object [])) edit) (fun tree => f tree.orObject) (fun tree => test tree.orObject) :=
  fun tree hrecordFree _ _ _ _ hresult => hedit tree.orObject (everywhere_orObject rfl hrecordFree) hresult

end Edit

theorem Edit.changed_setProperty_of_isScalar {tree : Tree} (hscalar : tree.isScalar = true) (name : String) (value : Tree)
    (store : Store) : (setProperty name value tree store).changed ≠ .ok true := by
  intro hchanged
  cases tree <;> cases hscalar <;> cases hchanged

theorem Walk.yields_assign {walk : Walk} (hbuilding : walk.building = .containers) (value : Tree) (names : List String) :
    (walk.assign value (Segment.ofNames names)).Yields (spread value names) (takes names) := by
  induction names with
  | nil =>
      intro tree _ store s result a hresult
      cases hresult
      exact ⟨rfl, rfl, rfl⟩
  | cons name names ih =>
      cases names with
      | nil =>
          have hreplace : (Edit.replace value).Yields (fun tree => spread value [] tree.orObject)
              (fun tree => takes [] tree.orObject) := ih
          exact (Edit.goesThrough_setProperty name value).yields hreplace fun tree store hscalar =>
            Edit.changed_setProperty_of_isScalar hscalar name value store
      | cons next names =>
          have hthrough : Edit.GoesThrough (walk.assign value (Segment.ofNames (name :: next :: names))) name
              (enter (some (.object [])) (walk.assign value (Segment.ofNames (next :: names)))) :=
            goesThrough_step hbuilding rfl _ name
          refine hthrough.yields ih.enter fun tree store hscalar => ?_
          rw [Segment.ofNames_cons, Segment.ofNames_cons, assign, step_of_isScalar rfl hscalar]
          simp

/-! ### What evaluation finds -/

theorem exists_flatMap_eq_replicate {α β : Type} {items : List α} {test : α → Bool} {found : β → α → List β}
    {expected : β → Prop}
    (hitems : ∀ item ∈ items, ∃ count, (0 < count ↔ test item = true) ∧
      ∀ value, expected value → found value item = List.replicate count value) :
    ∃ count, (0 < count ↔ items.any test = true) ∧
      ∀ value, expected value → items.flatMap (found value) = List.replicate count value := by
  induction items with
  | nil => exact ⟨0, by simp, fun _ _ => rfl⟩
  | cons item items ih =>
      obtain ⟨hitem, hitems⟩ := List.forall_mem_cons.mp hitems
      obtain ⟨count, htest, hcount⟩ := hitem
      obtain ⟨others, htests, hothers⟩ := ih hitems
      refine ⟨count + others, ?_, fun value hvalue => ?_⟩
      · rw [List.any_cons, Bool.or_eq_true, ← htest, ← htests]
        omega
      · rw [List.flatMap_cons, hcount value hvalue, hothers value hvalue, List.replicate_append_replicate]

namespace Tree

variable {tree value : Tree} {names : List String} {name : String} {dropNulls : Bool}

theorem eq_of_spliced {count : Nat} (hspliced : tree.spliced true = List.replicate (count + 1) value)
    (harray : tree.isArray = false) : tree = value := by
  cases tree with
  | null => cases hspliced
  | array items => cases harray
  | _ => exact (List.cons.inj hspliced).1

theorem eq_array_of_spliced {items : List Tree} (hspliced : tree.spliced dropNulls = items)
    (harray : tree.isArray = true) : tree = array items := by
  cases tree with
  | array found => exact congrArg array hspliced
  | _ => cases harray

/-- From every object that took the value evaluation collects it once, and nothing else. -/
theorem exists_spliced_readAll_spread (hnames : ∀ name ∈ names, isSizeName name = false)
    (hrecordFree : tree.recordFree = true) (htext : tree.objectTextFree = true) :
    ∃ count, (0 < count ↔ tree.takes names = true) ∧ ∀ value : Tree, value.isNull = false ∧ value.isArray = false →
      ((value.spread names tree).readAll true names).spliced true = List.replicate count value := by
  induction names generalizing tree with
  | nil =>
      exact ⟨1, by simp [takes], fun value hvalue => spliced_of_single hvalue.1 hvalue.2 true⟩
  | cons name names ih =>
      obtain ⟨hname, hbelow⟩ := List.forall_mem_cons.mp hnames
      induction tree using Tree.induction with
      | scalar tree hscalar =>
          refine ⟨0, by simp [takes, anyObject_of_isScalar hscalar], fun value _ => ?_⟩
          rw [spread_of_isScalar hscalar, readAll, property_of_isScalar hscalar htext, readAll_null]
          rfl
      | array items ihItems =>
          obtain ⟨count, htakes, hcount⟩ := exists_flatMap_eq_replicate fun item hitem =>
            ihItems item hitem ((everywhere_array.mp hrecordFree).2 item hitem) ((everywhere_array.mp htext).2 item hitem)
          refine ⟨count, by rwa [takes, anyObject_array], fun value hvalue => ?_⟩
          rw [spread_array, readAll_array (List.cons_ne_nil name names) hnames, List.flatMap_map]
          exact hcount value hvalue
      | object entries _ =>
          have hchild := everywhere_below rfl rfl hrecordFree name
          have hchildText := everywhere_below rfl rfl htext name
          obtain ⟨count, htakes, hcount⟩ := ih hbelow hchild hchildText
          refine ⟨count, htakes, fun value hvalue => ?_⟩
          rw [spread_object, readAll, property_object hname, Entries.find?_insert_self, Option.getD_some]
          exact hcount value hvalue
      | record handle entries _ => cases hrecordFree

theorem neverMaps_orObject (tree : Tree) :
    tree.orObject.neverMaps (Segment.ofNames names) = tree.neverMaps (Segment.ofNames names) := by
  rw [orObject]
  split
  · next hnull =>
      obtain rfl : tree = null := eq_null_of_isNull hnull
      rw [neverMaps_null, neverMaps_empty]
  · rfl

theorem neverMaps_object (entries : Entries Tree) :
    (object entries).neverMaps (Segment.ofNames (name :: names)) =
      ((Entries.find? entries name).getD null).neverMaps (Segment.ofNames names) := by
  have hchild : (object entries).neverMaps (Segment.ofNames (name :: names)) =
      (Entries.find? entries name).all (neverMaps (Segment.ofNames names)) := rfl
  rw [hchild]
  cases Entries.find? entries name with
  | none => exact (neverMaps_null _).symm
  | some child => rfl

theorem neverMaps_of_isScalar (hscalar : tree.isScalar = true) :
    tree.neverMaps (Segment.ofNames names) = true := by
  cases names with
  | nil => rfl
  | cons name names => cases tree <;> first | rfl | cases hscalar

theorem isArray_readAll_spread (hnames : ∀ name ∈ names, isSizeName name = false)
    (hrecordFree : tree.recordFree = true) (htext : tree.objectTextFree = true) (harray : value.isArray = false) :
    ((value.spread names tree).readAll true names).isArray = !tree.neverMaps (Segment.ofNames names) := by
  induction names generalizing tree with
  | nil => exact harray
  | cons name names ih =>
      obtain ⟨hname, hbelow⟩ := List.forall_mem_cons.mp hnames
      rcases Edit.shape_of_recordFree hrecordFree with hscalar | ⟨items, rfl⟩ | ⟨entries, rfl⟩
      · rw [spread_of_isScalar hscalar, readAll, property_of_isScalar hscalar htext, readAll_null,
          neverMaps_of_isScalar hscalar]
        rfl
      · rw [spread_array, readAll_array (List.cons_ne_nil name names) hnames]
        rfl
      · have hchild := everywhere_below rfl rfl hrecordFree name
        have hchildText := everywhere_below rfl rfl htext name
        rw [neverMaps_object, ← neverMaps_orObject, spread_object, readAll, property_object hname, Entries.find?_insert_self,
          Option.getD_some]
        exact ih hbelow hchild hchildText

/-- Evaluation finds the value itself, or as many copies as there are objects that took it. -/
theorem exists_readAll_spread (hnames : ∀ name ∈ names, isSizeName name = false) (hrecordFree : tree.recordFree = true)
    (htext : tree.objectTextFree = true) (htakes : tree.takes names = true) :
    ∃ count, ∀ value : Tree, value.isNull = false → value.isArray = false →
      (value.spread names tree).readAll true names =
        if tree.neverMaps (Segment.ofNames names) then value else array (List.replicate (count + 1) value) := by
  obtain ⟨count, hcount, hspliced⟩ := exists_spliced_readAll_spread hnames hrecordFree htext
  obtain ⟨count, rfl⟩ := Nat.exists_eq_succ_of_ne_zero (Nat.pos_iff_ne_zero.mp (hcount.mpr htakes))
  refine ⟨count, fun value hnull harray => ?_⟩
  have hlisted := hspliced value ⟨hnull, harray⟩
  have hkind := isArray_readAll_spread hnames hrecordFree htext harray
  cases hnever : tree.neverMaps (Segment.ofNames names) with
  | true =>
      rw [hnever] at hkind
      exact eq_of_spliced hlisted hkind
  | false =>
      rw [hnever] at hkind
      exact eq_array_of_spliced hlisted hkind

theorem neverMaps_spread (hrecordFree : tree.recordFree = true) (value : Tree) :
    (value.spread names tree).neverMaps (Segment.ofNames names) = tree.neverMaps (Segment.ofNames names) := by
  induction names generalizing tree with
  | nil => rfl
  | cons name names ih =>
      rcases Edit.shape_of_recordFree hrecordFree with hscalar | ⟨items, rfl⟩ | ⟨entries, rfl⟩
      · rw [spread_of_isScalar hscalar]
      · rfl
      · have hchild := everywhere_below rfl rfl hrecordFree name
        rw [spread_object, neverMaps_object, neverMaps_object, Entries.find?_insert_self, Option.getD_some, ih hchild,
          neverMaps_orObject]

theorem showRecords_spread (look : Nat → Entries Tree) (hrecordFree : tree.recordFree = true) (value : Tree) :
    (value.spread names tree).showRecords look = (value.showRecords look).spread names tree := by
  induction names generalizing tree with
  | nil => rfl
  | cons name names ih =>
      induction tree using Tree.induction with
      | scalar tree hscalar =>
          rw [spread_of_isScalar hscalar, spread_of_isScalar hscalar, showRecords_of_recordFree look hrecordFree]
      | array items ihItems =>
          have hitems := (everywhere_array.mp hrecordFree).2
          rw [spread_array, spread_array, showRecords, showItems_eq_map, List.map_map]
          exact congrArg array (List.map_congr_left fun item hitem => ihItems item hitem (hitems item hitem))
      | object entries _ =>
          have hentries : entries.map (fun entry => (entry.1, showRecords look entry.2)) = entries := by
            have hshown := showRecords_of_recordFree look hrecordFree
            rw [showRecords, showEntries_eq_map] at hshown
            exact Tree.object.inj hshown
          have hchild := everywhere_below rfl rfl hrecordFree name
          rw [spread_object, spread_object, showRecords, showEntries_eq_map, Entries.map_insert, hentries, ih hchild]
      | record handle entries _ => cases hrecordFree

end Tree

/-! ### The whole path -/

/-- **What is assigned everywhere is found everywhere.** Let names, none of which stands for a size, be read with nulls
dropped, and let the document hold no text of an object. Where a value that is neither null nor an array is assigned
along the names, evaluation finds the value afterwards if the names read no property from an array, and otherwise an
array of copies of the value, of which there is at least one. -/
theorem Path.eval_set_spread {path : Path} {names : List String} (hpath : path.segments = Segment.ofNames names)
    (hnonempty : names ≠ []) (hnames : ∀ name ∈ names, isSizeName name = false) (hdrop : path.dropNulls = true)
    {root value : Tree} (hrecordFree : root.recordFree = true) (htext : root.objectTextFree = true)
    (hnull : value.isNull = false) (harray : value.isArray = false) {store : Store}
    (hchanged : (path.set value root store).changed = .ok true) :
    let after := path.set value root store
    after.store = store ∧ after.result.neverMaps path.segments = root.neverMaps path.segments ∧
      (root.neverMaps path.segments = true →
        path.eval after.result = .ok value ∧
          path.eval (store.snapshot after.result) = .ok (store.snapshot value)) ∧
      (root.neverMaps path.segments = false →
        ∃ count, path.eval after.result = .ok (.array (List.replicate (count + 1) value)) ∧
          path.eval (store.snapshot after.result) = .ok (.array (List.replicate (count + 1) (store.snapshot value)))) := by
  cases hroot : root.isNull with
  | true =>
      rw [set_of_isNull hroot] at hchanged
      cases hchanged
  | false =>
      have hsegments : path.segments ≠ [] := by
        rw [hpath]
        simpa [Segment.ofNames] using hnonempty
      have hplain : ∀ segment ∈ path.segments, segment.isPlain = true := by
        rw [hpath]
        exact fun _ => Segment.isPlain_of_mem_ofNames
      have heval (tree : Tree) : path.eval tree = .ok (tree.readAll true names) := by
        rw [eval_ofNames hpath, hdrop]
      rcases hset : path.set value root store with ⟨result, s, changed⟩
      rw [hset] at hchanged
      obtain rfl : changed = .ok true := hchanged
      rw [set_eq_assign hsegments hplain hroot, hpath] at hset
      obtain ⟨rfl, rfl, htakes⟩ := Walk.yields_assign rfl value names root hrecordFree hset
      obtain ⟨count, hread⟩ := exists_readAll_spread hnames hrecordFree htext htakes.symm
      have hsnapshot : s.snapshot (value.spread names root) = (s.snapshot value).spread names root :=
        showRecords_spread _ hrecordFree value
      have hshownNull : (s.snapshot value).isNull = false := by rwa [Store.snapshot, isNull_showRecords]
      have hshownArray : (s.snapshot value).isArray = false := by rwa [Store.snapshot, isArray_showRecords]
      have hshown := hread (s.snapshot value) hshownNull hshownArray
      have hplainly := hread value hnull harray
      rw [← hpath] at hplainly hshown
      simp only [heval, hsnapshot]
      refine ⟨trivial, hpath ▸ neverMaps_spread hrecordFree value, fun hnever => ?_, fun hnever => ⟨count, ?_⟩⟩
      · rw [hplainly, hshown, if_pos hnever, if_pos hnever]
        exact ⟨rfl, rfl⟩
      · rw [hplainly, hshown, hnever, if_neg Bool.false_ne_true, if_neg Bool.false_ne_true]
        exact ⟨rfl, rfl⟩

/-- Objects in inner lists count, and those that lack the property do; null and numbers are passed over. -/
theorem Path.eval_set_spread_listed :
    let path := Path.mk "$.list.a.b" (Segment.ofNames ["list", "a", "b"]) false true
    let root := Tree.object [("list", .array [.object [("a", .null)], .null, .array [.object []], .integer 3])]
    let after := path.set (.string "x") root Store.empty
    let both := Tree.array [.string "x", .string "x"]
    root.recordFree = true ∧ root.objectTextFree = true ∧ after.changed = .ok true ∧
      root.neverMaps path.segments = false ∧ path.eval after.result = .ok both ∧
      path.eval (Store.empty.snapshot after.result) = .ok both := by
  intro path root after both
  have hpath : path.segments = Segment.ofNames ["list", "a", "b"] := rfl
  have htext : root.objectTextFree = true := rfl
  have hchanged : after.changed = .ok true := rfl
  have hboth : path.eval after.result = .ok both := rfl
  obtain ⟨-, -, -, hmapped⟩ := eval_set_spread hpath (by decide) (by decide) rfl rfl htext rfl rfl hchanged
  obtain ⟨count, hafter, hsnapshot⟩ := hmapped rfl
  have hcopies : List.replicate (count + 1) (Tree.string "x") = [.string "x", .string "x"] :=
    Tree.array.inj (Except.ok.inj (hafter.symm.trans hboth))
  refine ⟨rfl, htext, hchanged, rfl, hboth, hsnapshot.trans ?_⟩
  exact congrArg (fun items => Except.ok (Tree.array items)) hcopies

end TreeQuery
