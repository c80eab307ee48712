import TreeQuery.Proofs.Edit.Assigning
import TreeQuery.Proofs.Edit.Objects
import TreeQuery.Proofs.Query.Properties

/-!
# Removing and evaluating

What is removed along properties is not found again. Removal edits the tree in place, through arrays at any depth,
while evaluation collects what it reads from arrays into new ones; that the removal reaches all that evaluation sees
is an exchange of the two, one property at a time.
-/

namespace TreeQuery

/-- The value under a name replaced by a function of it. -/
def Entries.modify {α : Type} (name : String) (f : α → α) (entries : Entries α) : Entries α :=
  match entries.find? name with
  | some value => insert name (f value) entries
  | none => entries

theorem Entries.find?_erase {α : Type} (name : String) (entries : Entries α) :
    find? (erase entries name) name = none := by
  refine List.lookup_eq_none_iff.mpr fun entry hmem => ?_
  have hne : (entry.1 != name) = true := (List.mem_filter.mp hmem).2
  exact bne_iff_ne.mpr (Ne.symm (bne_iff_ne.mp hne))

theorem Entries.find?_erase_of_ne {α : Type} {name other : String} (hne : other ≠ name) (entries : Entries α) :
    find? (erase entries name) other = find? entries other := by
  induction entries with
  | nil => rfl
  | cons entry entries ih =>
      obtain ⟨key, found⟩ := entry
      rw [erase] at ih ⊢
      by_cases hkey : key = name
      · rw [List.filter_cons_of_neg (by simp [hkey]), ih, find?_cons, if_neg (hkey ▸ Ne.symm hne)]
      · rw [List.filter_cons_of_pos (by simp [hkey]), find?_cons, find?_cons, ih]

theorem Entries.find?_modify_self {α : Type} (name : String) (f : α → α) (entries : Entries α) :
    find? (modify name f entries) name = (find? entries name).map f := by
  rw [modify]
  cases hfind : find? entries name with
  | none => exact hfind
  | some found => exact find?_insert_self name (f found) entries

theorem Entries.find?_modify_of_ne {α : Type} {name other : String} (hne : other ≠ name) (f : α → α)
    (entries : Entries α) : find? (modify name f entries) other = find? entries other := by
  rw [modify]
  split
  · exact find?_insert_of_ne hne _ entries
  · rfl

namespace Tree

/-- The tree without the property that further properties lead to. -/
def without (last : String) : List String → Tree → Tree
  | [] => mapObjects fun entries => Entries.erase entries last
  | name :: names => mapObjects (Entries.modify name (without last names))

/-- Whether the properties lead to something other than null in some place. -/
def reaches (last : String) : List String → Tree → Bool
  | [] => anyObject fun entries => !((Entries.find? entries last).getD null).isNull
  | name :: names => anyObject fun entries => (Entries.find? entries name).any (reaches last names)

theorem without_eq_mapObjects (last : String) (names : List String) : ∃ f, without last names = mapObjects f := by
  cases names with
  | nil => exact ⟨_, rfl⟩
  | cons name names => exact ⟨_, rfl⟩

theorem reaches_eq_anyObject (last : String) (names : List String) : ∃ test, reaches last names = anyObject test := by
  cases names with
  | nil => exact ⟨_, rfl⟩
  | cons name names => exact ⟨_, rfl⟩

section Exchange

variable {f : Entries Tree → Entries Tree} {test : Entries Tree → Bool} {name last : String} {names : List String}
  {tree : Tree} {dropNulls : Bool}

theorem spliced_mapObjects (tree : Tree) :
    (mapObjects f tree).spliced dropNulls = (tree.spliced dropNulls).map (mapObjects f) := by
  cases tree with
  | array items => rw [mapObjects_array, spliced, spliced]
  | null => cases dropNulls <;> rfl
  | _ => rfl

/-- Reading a property of the changed tree is changing what the property gives. -/
theorem property_mapObjects_modify (hrecordFree : tree.recordFree = true) (htext : tree.objectTextFree = true) :
    (mapObjects (Entries.modify name (mapObjects f)) tree).property dropNulls name =
      mapObjects f (tree.property dropNulls name) := by
  induction tree using Tree.induction with
  | scalar tree hscalar => rw [mapObjects_of_isScalar hscalar, property_of_isScalar hscalar htext]; rfl
  | array items ih =>
      rw [mapObjects_array]
      cases hname : isSizeName name with
      | true => rw [property_array_size hname, property_array_size hname, List.length_map]; rfl
      | false =>
          rw [property_array hname, property_array hname, mapObjects_array, List.flatMap_map, List.map_flatMap,
            List.flatMap_def, List.flatMap_def]
          congr 2
          refine List.map_congr_left fun item hitem => ?_
          rw [ih item hitem ((everywhere_array.mp hrecordFree).2 item hitem)
            ((everywhere_array.mp htext).2 item hitem), spliced_mapObjects]
  | object entries _ =>
      rw [mapObjects, property, property, Entries.modify]
      cases hfind : Entries.find? entries name with
      | none =>
          simp only [Entries.property, hfind, Option.getD_none]
          split <;> rfl
      | some value =>
          have hpresent : name ∈ Entries.keys entries := List.mem_map_of_mem (Entries.mem_of_find? hfind)
          simp only [Entries.property, Entries.find?_insert_self, hfind, Option.getD_some, isNull_mapObjects,
            Entries.length_insert_of_mem hpresent]
          split <;> rfl
  | record handle entries _ => cases hrecordFree

theorem anyObject_of_mem_spliced {found : Tree} (hmem : found ∈ tree.spliced dropNulls)
    (hfound : anyObject test found = true) : anyObject test tree = true := by
  cases tree with
  | array items => exact anyObject_array items ▸ List.any_eq_true.mpr ⟨found, hmem, hfound⟩
  | null =>
      obtain ⟨-, rfl⟩ : dropNulls = false ∧ found = null := by simpa [spliced] using hmem
      cases hfound
  | _ =>
      obtain rfl := List.mem_singleton.mp hmem
      exact hfound

theorem anyObject_of_property (hrecordFree : tree.recordFree = true) (htext : tree.objectTextFree = true)
    (hfound : anyObject test (tree.property dropNulls name) = true) :
    anyObject (fun entries => (Entries.find? entries name).any (anyObject test)) tree = true := by
  induction tree using Tree.induction with
  | scalar tree hscalar =>
      rw [property_of_isScalar hscalar htext] at hfound
      cases hfound
  | array items ih =>
      cases hname : isSizeName name with
      | true =>
          rw [property_array_size hname] at hfound
          cases hfound
      | false =>
          rw [property_array hname, anyObject_array, List.any_eq_true] at hfound
          obtain ⟨found, hmem, hfound⟩ := hfound
          obtain ⟨item, hitem, hmem⟩ := List.mem_flatMap.mp hmem
          rw [anyObject_array, List.any_eq_true]
          exact ⟨item, hitem, ih item hitem ((everywhere_array.mp hrecordFree).2 item hitem)
            ((everywhere_array.mp htext).2 item hitem) (anyObject_of_mem_spliced hmem hfound)⟩
  | object entries _ =>
      rw [property, Entries.property] at hfound
      cases hfind : Entries.find? entries name with
      | none =>
          simp only [hfind, Option.getD_none] at hfound
          split at hfound <;> cases hfound
      | some value =>
          simp only [hfind, Option.getD_some] at hfound
          rw [anyObject, hfind, Option.any_some]
          split at hfound
          · cases hfound
          · exact hfound
  | record handle entries _ => cases hrecordFree

theorem isNothing_property_erase (hlast : isSizeName last = false) (hrecordFree : tree.recordFree = true)
    (htext : tree.objectTextFree = true) :
    ((mapObjects (Entries.erase · last) tree).property true last).isNothing = true := by
  induction tree using Tree.induction with
  | scalar tree hscalar => rw [mapObjects_of_isScalar hscalar, property_of_isScalar hscalar htext]; rfl
  | array items ih =>
      rw [mapObjects_array, property_array hlast, List.flatMap_map]
      refine List.isEmpty_iff.mpr (List.flatMap_eq_nil_iff.mpr fun item hitem => ?_)
      exact spliced_of_isNothing (ih item hitem ((everywhere_array.mp hrecordFree).2 item hitem)
        ((everywhere_array.mp htext).2 item hitem))
  | object entries _ =>
      rw [mapObjects, property_object hlast, Entries.find?_erase]
      rfl
  | record handle entries _ => cases hrecordFree

theorem anyObject_of_property_last (hlast : isSizeName last = false) (hrecordFree : tree.recordFree = true)
    (htext : tree.objectTextFree = true) (hfound : (tree.property true last).isNothing = false) :
    anyObject (fun entries => !((Entries.find? entries last).getD null).isNull) tree = true := by
  induction tree using Tree.induction with
  | scalar tree hscalar =>
      rw [property_of_isScalar hscalar htext] at hfound
      cases hfound
  | array items ih =>
      rw [property_array hlast, isNothing, List.isEmpty_eq_false_iff] at hfound
      obtain ⟨found, hmem⟩ := List.exists_mem_of_ne_nil _ hfound
      obtain ⟨item, hitem, hmem⟩ := List.mem_flatMap.mp hmem
      have hitemFound : (item.property true last).isNothing = false := by
        refine Bool.eq_false_iff.mpr fun hnothing => ?_
        rw [spliced_of_isNothing hnothing] at hmem
        exact List.not_mem_nil hmem
      rw [anyObject_array, List.any_eq_true]
      exact ⟨item, hitem, ih item hitem ((everywhere_array.mp hrecordFree).2 item hitem)
        ((everywhere_array.mp htext).2 item hitem) hitemFound⟩
  | object entries _ =>
      rw [property_object hlast] at hfound
      rw [anyObject]
      cases hvalue : (Entries.find? entries last).getD null with
      | null =>
          rw [hvalue] at hfound
          cases hfound
      | _ => rfl
  | record handle entries _ => cases hrecordFree

/-! ### All properties -/

theorem objectTextFree_property (hrecordFree : tree.recordFree = true) (htext : tree.objectTextFree = true) :
    (tree.property dropNulls name).objectTextFree = true :=
  everywhere_property (fun _ => rfl) rfl (fun _ => rfl) hrecordFree htext htext

theorem isNothing_readAll_without (hlast : isSizeName last = false) (hrecordFree : tree.recordFree = true)
    (htext : tree.objectTextFree = true) :
    ((tree.without last names).readAll true (names ++ [last])).isNothing = true := by
  induction names generalizing tree with
  | nil => exact isNothing_property_erase hlast hrecordFree htext
  | cons name names ih =>
      obtain ⟨f, hf⟩ := without_eq_mapObjects last names
      rw [List.cons_append, readAll, without, hf, property_mapObjects_modify hrecordFree htext, ← hf]
      exact ih (recordFree_property hrecordFree) (objectTextFree_property hrecordFree htext)

theorem reaches_of_readAll (hlast : isSizeName last = false) (hrecordFree : tree.recordFree = true)
    (htext : tree.objectTextFree = true) (hfound : (tree.readAll true (names ++ [last])).isNothing = false) :
    tree.reaches last names = true := by
  induction names generalizing tree with
  | nil => exact anyObject_of_property_last hlast hrecordFree htext hfound
  | cons name names ih =>
      obtain ⟨test, htest⟩ := reaches_eq_anyObject last names
      have hrest := ih (recordFree_property hrecordFree) (objectTextFree_property hrecordFree htext) hfound
      rw [htest] at hrest
      rw [reaches, htest]
      exact anyObject_of_property hrecordFree htext hrest

end Exchange

end Tree

/-! ### The walk -/

section Walking

variable {last : String} {names : List String}

theorem Edit.isFunction_removeProperty (last : String) :
    (removeProperty last).IsFunction (Tree.without last []) (Tree.reaches last []) :=
  isFunction_throughArrays (fun _ _ _ => rfl) fun tree _ hscalar => by cases tree <;> first | rfl | cases hscalar

theorem Edit.IsFunction.atProperty {edit : Edit Tree} {f : Tree → Tree} {test : Tree → Bool}
    (hedit : edit.IsFunction f test) (name : String) :
    IsFunction (throughArrays (Walk.atProperty none name edit)) (Tree.mapObjects (Entries.modify name f))
      (Tree.anyObject fun entries => (Entries.find? entries name).any test) := by
  refine isFunction_throughArrays (fun entries store hrecordFree => ?_) fun tree _ hscalar => by
    cases tree <;> first | rfl | cases hscalar
  cases hfind : Entries.find? entries name with
  | none => simp [Walk.atProperty, Entries.contains, Entries.modify, hfind]
  | some value =>
      have hvalue : value.recordFree = true := (Tree.everywhere_object.mp hrecordFree).2 _ (Entries.mem_of_find? hfind)
      simp [Walk.atProperty, Entries.contains, Entries.modify, hfind, atKey_eq_insert _ store hfind, Walk.enter_none,
        hedit value store hvalue, Change.map]

theorem Walk.isFunction_visit {walk : Walk} (hbuilding : walk.building = .nothing) (next : Option Segment)
    (last : String) (names : List String) :
    (walk.visit next (Edit.removeProperty last) (Segment.ofNames names)).IsFunction
      (Tree.without last names) (Tree.reaches last names) := by
  induction names with
  | nil => exact Edit.isFunction_removeProperty last
  | cons name names ih =>
      rw [Segment.ofNames_cons, visit, step, container?_eq_none hbuilding]
      exact ih.atProperty name

theorem Path.remove_eq {path : Path} {root : Tree} {store : Store}
    (hsegments : path.segments = Segment.ofNames (names ++ [last])) (hrecordFree : root.recordFree = true) :
    path.remove root store = ⟨root.without last names, store, .ok (root.reaches last names)⟩ := by
  rw [Segment.ofNames_concat] at hsegments
  have hlast : path.segments.getLast? = some (.property last false) := by simp [hsegments]
  have hinit : path.segments.dropLast = Segment.ofNames names := by simp [hsegments]
  have hremove : path.remove root store = path.editLast .nothing .removeRoot Walk.removeLast root store := by
    rw [remove, hsegments, List.reverse_concat]
  rw [hremove, editLast, hlast, hinit]
  split
  · next hnull =>
      obtain rfl : root = .null := Tree.eq_null_of_isNull hnull
      cases names <;> rfl
  · exact Walk.isFunction_visit rfl _ last names root store hrecordFree

end Walking

/-- **What is removed is not found again.** A path of properties can be removed from any document without records
and without texts that read as objects; afterwards it selects nothing, and if it selected something before then
the removal reports a change. Arrays on the way are searched at every depth. -/
theorem Path.remove_contains {path : Path} {names : List String} {last : String}
    (hsegments : path.segments = Segment.ofNames (names ++ [last])) (hlast : isSizeName last = false)
    (hdropNulls : path.dropNulls = true) {root : Tree} (hrecordFree : root.recordFree = true)
    (htext : root.objectTextFree = true) (store : Store) :
    ∃ changed, (path.remove root store).changed = .ok changed ∧ (path.remove root store).store = store ∧
      path.contains (path.remove root store).result = .ok false ∧
      (path.contains root = .ok true → changed = true) := by
  have hcontains (tree : Tree) : path.contains tree = .ok !(tree.readAll true (names ++ [last])).isNothing := by
    rw [contains_eq, eval, hsegments, Segment.applyAll_ofNames, hdropNulls]
    rfl
  rw [remove_eq hsegments hrecordFree]
  refine ⟨_, rfl, rfl, ?_, fun hfound => ?_⟩
  · rw [hcontains, Tree.isNothing_readAll_without hlast hrecordFree htext]
    rfl
  · rw [hcontains, Except.ok.injEq, Bool.not_eq_true'] at hfound
    exact Tree.reaches_of_readAll hlast hrecordFree htext hfound

/-- Prices are removed from a list within a list, and from an object beside it. -/
theorem Path.remove_contains_prices :
    let path := Path.mk "$.rows.price" [.property "rows" false, .property "price" false] false true
    let root := Tree.object [("rows", .array [.array [.object [("price", .integer 3)], .string "\x7bprice"],
      .object [("price", .null), ("size", .integer 1)]])]
    path.segments = Segment.ofNames (["rows"] ++ ["price"]) ∧ isSizeName "price" = false ∧
      root.recordFree = true ∧ root.objectTextFree = true ∧ path.contains root = .ok true ∧
      ∃ changed, (path.remove root Store.empty).changed = .ok changed ∧
        (path.remove root Store.empty).store = Store.empty ∧
        path.contains (path.remove root Store.empty).result = .ok false ∧
        (path.contains root = .ok true → changed = true) := by
  intro path root
  have hsegments : path.segments = Segment.ofNames (["rows"] ++ ["price"]) := rfl
  have hsize : isSizeName "price" = false := by decide
  have htext : root.objectTextFree = true := by decide
  exact ⟨hsegments, hsize, rfl, htext, rfl, remove_contains hsegments hsize rfl rfl htext Store.empty⟩

end TreeQuery
