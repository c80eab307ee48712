import TreeQuery.Edit.Remove
import TreeQuery.Proofs.Edit.Places
import TreeQuery.Proofs.Tree.Slots

/-!
# Slots that deep properties read, write and remove

Evaluation, assignment and removal of a deep property each search the tree in a way of their own. All three find the
slots of the name: they read what is in them, write into them, or remove them.
-/

namespace TreeQuery

open TreeQuery.Tree

variable {name : String} {tree value : Tree} {items : List Tree} {entries : Entries Tree} {chosen : Address → Bool}
  {new : Option Tree} {test : Tree → Bool} {edit : Edit Tree} {store : Store}

/-! ### Reading -/

section Reading

theorem Tree.deepEntryMatches_append (front back : Entries Tree) :
    deepEntryMatches name (front ++ back) = deepEntryMatches name front ++ deepEntryMatches name back := by
  induction front with
  | nil => rfl
  | cons entry front ih =>
      obtain ⟨key, old⟩ := entry
      rw [List.cons_append, deepEntryMatches, ih, deepEntryMatches, List.append_assoc]

theorem Tree.deepItemMatches_rewriteInItems {position : Nat} (hitems : ∀ index item, items[index]? = some item →
      (item.rewriteEntries (fun address => chosen (.position (position + index) :: address)) new).deepMatches name =
        (slots name item).flatMap fun _ => new.toList.flatMap matchItems) :
    deepItemMatches name (rewriteInItems chosen new position items) =
      (slotsOfItems name position items).flatMap fun _ => new.toList.flatMap matchItems := by
  induction items generalizing position with
  | nil => rfl
  | cons item items ih =>
      have hrest : deepItemMatches name (rewriteInItems chosen new (position + 1) items) =
          (slotsOfItems name (position + 1) items).flatMap fun _ => new.toList.flatMap matchItems := by
        refine ih fun index item hitem => ?_
        rw [Nat.add_assoc, Nat.add_comm 1 index]
        exact hitems (index + 1) item hitem
      have hitem := hitems 0 item rfl
      rw [Nat.add_zero] at hitem
      rw [rewriteInItems, deepItemMatches, slotsOfItems, List.flatMap_append, hrest, hitem, List.flatMap_map]

theorem Tree.deepEntryMatches_rewriteInEntries
    (hentries : ∀ entry ∈ entries, chosen [.key entry.1] = decide (entry.1 = name) ∧
      (entry.1 ≠ name →
        (entry.2.rewriteEntries (fun address => chosen (.key entry.1 :: address)) new).deepMatches name =
          (slots name entry.2).flatMap fun _ => new.toList.flatMap matchItems)) :
    deepEntryMatches name (rewriteInEntries chosen new entries) =
      (slotsOfEntries name entries).flatMap fun _ => new.toList.flatMap matchItems := by
  induction entries with
  | nil => rfl
  | cons entry entries ih =>
      obtain ⟨key, old⟩ := entry
      obtain ⟨⟨hchosen, hwithin⟩, hentries⟩ := List.forall_mem_cons.mp hentries
      rw [rewriteInEntries, hchosen, deepEntryMatches_append, ih hentries, slotsOfEntries, List.flatMap_append]
      by_cases hkey : key = name
      · cases new <;> simp [hkey, deepEntryMatches]
      · simp [hkey, hwithin hkey, deepEntryMatches, List.flatMap_map]

/-- After the slots were rewritten, the deep property gives what was put into them. -/
theorem Tree.deepMatches_rewriteEntries (hrecordFree : tree.recordFree = true) (hdistinct : tree.keysDistinct = true)
    (hfits : Fits name chosen tree) :
    (tree.rewriteEntries chosen new).deepMatches name =
      (slots name tree).flatMap fun _ => new.toList.flatMap matchItems := by
  induction tree using Tree.induction generalizing chosen with
  | scalar tree hscalar => cases tree <;> first | rfl | cases hscalar
  | array items ih =>
      refine deepItemMatches_rewriteInItems fun index item hitem => ?_
      have hmem := List.mem_of_getElem? hitem
      rw [Nat.zero_add]
      exact ih item hmem ((everywhere_array.mp hrecordFree).2 item hmem) (keysDistinct_array.mp hdistinct item hmem)
        (hfits.item hitem)
  | object entries ih =>
      obtain ⟨hnodup, hvalues⟩ := keysDistinct_object.mp hdistinct
      refine deepEntryMatches_rewriteInEntries fun entry hmem => ?_
      obtain ⟨hchosen, hbelow⟩ := hfits.member hnodup hmem
      exact ⟨hchosen, fun hkey => ih entry hmem ((everywhere_object.mp hrecordFree).2 entry hmem)
        (hvalues entry hmem) (hbelow hkey)⟩
  | record handle entries _ => cases hrecordFree

theorem Tree.showRecords_rewriteEntries (look : Nat → Entries Tree) (hrecordFree : tree.recordFree = true) :
    (tree.rewriteEntries chosen new).showRecords look = tree.rewriteEntries chosen (new.map (showRecords look)) := by
  induction tree using Tree.induction generalizing chosen with
  | scalar tree hscalar => cases tree <;> first | rfl | cases hscalar
  | array items ih =>
      have hfree := (everywhere_array.mp hrecordFree).2
      have hitems : ∀ position, showItems look (rewriteInItems chosen new position items) =
          rewriteInItems chosen (new.map (showRecords look)) position items := by
        clear hrecordFree
        induction items with
        | nil => intro position; rfl
        | cons item items hrest =>
            intro position
            obtain ⟨ihItem, ihItems⟩ := List.forall_mem_cons.mp ih
            obtain ⟨hitem, hitems⟩ := List.forall_mem_cons.mp hfree
            rw [rewriteInItems, showItems, ihItem hitem, hrest ihItems hitems, rewriteInItems]
      rw [rewriteEntries, showRecords, hitems, rewriteEntries]
  | object entries ih =>
      have hfree := (everywhere_object.mp hrecordFree).2
      have hentries : showEntries look (rewriteInEntries chosen new entries) =
          rewriteInEntries chosen (new.map (showRecords look)) entries := by
        clear hrecordFree
        rw [showEntries_eq_map]
        induction entries with
        | nil => rfl
        | cons entry entries hrest =>
            obtain ⟨key, old⟩ := entry
            obtain ⟨ihEntry, ihEntries⟩ := List.forall_mem_cons.mp ih
            obtain ⟨hentry, hentries⟩ := List.forall_mem_cons.mp hfree
            rw [rewriteInEntries, List.map_append, hrest ihEntries hentries, rewriteInEntries, ← ihEntry hentry]
            cases new <;> split <;> rfl
      rw [rewriteEntries, showRecords, hentries, rewriteEntries]
  | record handle entries _ => cases hrecordFree

end Reading

/-! ### Edits of the slots -/

/-- The edit rewrites the slots of the name, and reports whether what some of them held passes the test. -/
def Edit.RewritesAt (edit : Edit Tree) (name : String) (new : Option Tree) (test : Tree → Bool) (tree : Tree) : Prop :=
  ∀ (chosen : Address → Bool) (store : Store), tree.recordFree = true → tree.keysDistinct = true →
    Fits name chosen tree →
      edit tree store = ⟨tree.rewriteEntries chosen new, store, .ok ((slots name tree).any fun slot => test slot.2)⟩

theorem Tree.any_inside (test : Tree → Bool) (step : Step) (found : List (Address × Tree)) :
    (found.map (inside step)).any (fun slot => test slot.2) = found.any fun slot => test slot.2 := by
  rw [List.any_map]
  rfl

theorem Edit.each_eq {position : Nat} (hitems : ∀ index item, items[index]? = some item →
      edit item store = ⟨item.rewriteEntries (fun address => chosen (.position (position + index) :: address)) new,
        store, .ok ((slots name item).any fun slot => test slot.2)⟩) :
    each edit items store = ⟨rewriteInItems chosen new position items, store,
      .ok ((slotsOfItems name position items).any fun slot => test slot.2)⟩ := by
  induction items generalizing position with
  | nil => rfl
  | cons item items ih =>
      have hrest : each edit items store = ⟨rewriteInItems chosen new (position + 1) items, store,
          .ok ((slotsOfItems name (position + 1) items).any fun slot => test slot.2)⟩ := by
        refine ih fun index item hitem => ?_
        rw [hitems (index + 1) item hitem, Nat.add_assoc, Nat.add_comm 1 index]
      rw [each, hitems 0 item rfl, Change.cons_eq hrest, slotsOfItems, List.any_append, any_inside]
      rfl

theorem Edit.rewritesAt_array (hitems : ∀ item ∈ items, edit.RewritesAt name new test item)
    (hrecordFree : (array items).recordFree = true) (hdistinct : (array items).keysDistinct = true)
    (hfits : Fits name chosen (array items)) :
    (each edit items store).map array = ⟨(array items).rewriteEntries chosen new, store,
      .ok ((slots name (array items)).any fun slot => test slot.2)⟩ := by
  have hall : each edit items store = ⟨rewriteInItems chosen new 0 items, store,
      .ok ((slotsOfItems name 0 items).any fun slot => test slot.2)⟩ := by
    refine each_eq fun index item hitem => ?_
    have hmem := List.mem_of_getElem? hitem
    rw [Nat.zero_add]
    exact hitems item hmem _ store ((everywhere_array.mp hrecordFree).2 item hmem)
      (keysDistinct_array.mp hdistinct item hmem) (hfits.item hitem)
  rw [hall]
  rfl

/-- What the two edits of entries start from: the entries of the name are chosen, and the others are edited within. -/
theorem Edit.RewritesAt.entry (hentries : ∀ entry ∈ entries, edit.RewritesAt name new test entry.2)
    (hrecordFree : (object entries).recordFree = true) (hdistinct : (object entries).keysDistinct = true)
    (hfits : Fits name chosen (object entries)) (store : Store) (entry : String × Tree) (hmem : entry ∈ entries) :
    chosen [.key entry.1] = decide (entry.1 = name) ∧
      (entry.1 ≠ name → edit entry.2 store =
        ⟨entry.2.rewriteEntries (fun address => chosen (.key entry.1 :: address)) new, store,
          .ok ((slots name entry.2).any fun slot => test slot.2)⟩) := by
  obtain ⟨hnodup, hvalues⟩ := keysDistinct_object.mp hdistinct
  obtain ⟨hchosen, hbelow⟩ := hfits.member hnodup hmem
  exact ⟨hchosen, fun hkey => hentries entry hmem _ store ((everywhere_object.mp hrecordFree).2 entry hmem)
    (hvalues entry hmem) (hbelow hkey)⟩

section Writing

variable {record : Nat → Store → Change Unit}

theorem Walk.deepWithinItems_eq (items : List Tree) (store : Store) :
    deepWithinItems name edit record items store = Edit.each (deepWithin name edit record) items store := by
  induction items generalizing store with
  | nil => rfl
  | cons item items ih =>
      rw [deepWithinItems, Edit.each, funext ih]

theorem Walk.deepWithinEntries_eq (hentries : ∀ entry ∈ entries, chosen [.key entry.1] = decide (entry.1 = name) ∧
      (entry.1 ≠ name → deepWithin name (Edit.replace value) record entry.2 store =
        ⟨entry.2.rewriteEntries (fun address => chosen (.key entry.1 :: address)) (some value), store,
          .ok ((slots name entry.2).any fun _ => true)⟩)) :
    deepWithinEntries name (Edit.replace value) record entries store =
      ⟨rewriteInEntries chosen (some value) entries, store, .ok ((slotsOfEntries name entries).any fun _ => true)⟩ := by
  induction entries with
  | nil => rfl
  | cons entry entries ih =>
      obtain ⟨key, old⟩ := entry
      obtain ⟨⟨hchosen, hwithin⟩, hentries⟩ := List.forall_mem_cons.mp hentries
      rw [deepWithinEntries, rewriteInEntries, slotsOfEntries, hchosen]
      by_cases hkey : key = name
      · simp only [hkey, decide_true, if_true, Edit.replace, Change.map]
        exact Change.cons_eq (ih hentries)
      · simp only [hkey, hwithin hkey, decide_false, Bool.false_eq_true, if_false, Change.map, List.any_append]
        rw [Change.cons_eq (ih hentries), any_inside fun _ => true]
        rfl

theorem Walk.rewritesAt_deepWithin (name : String) (value : Tree) (record : Nat → Store → Change Unit) (tree : Tree) :
    Edit.RewritesAt (deepWithin name (Edit.replace value) record) name (some value) (fun _ => true) tree := by
  induction tree using Tree.induction with
  | scalar tree hscalar => intro chosen store _ _ _; cases tree <;> first | rfl | cases hscalar
  | array items ih =>
      intro chosen store hrecordFree hdistinct hfits
      rw [deepWithin, deepWithinItems_eq]
      exact Edit.rewritesAt_array ih hrecordFree hdistinct hfits
  | object entries ih =>
      intro chosen store hrecordFree hdistinct hfits
      rw [deepWithin, deepWithinEntries_eq (Edit.RewritesAt.entry ih hrecordFree hdistinct hfits store)]
      rfl
  | record handle entries _ => intro chosen store hrecordFree; cases hrecordFree

end Writing

section Removing

variable {record : Nat → Store → Change Unit}

theorem Edit.removeWithinItems_eq (items : List Tree) (store : Store) :
    removeWithinItems name record items store = each (removeWithin name record) items store := by
  induction items generalizing store with
  | nil => rfl
  | cons item items ih => rw [removeWithinItems, each, funext ih]

theorem Edit.removeWithinEntries_eq (hentries : ∀ entry ∈ entries, chosen [.key entry.1] = decide (entry.1 = name) ∧
      (entry.1 ≠ name → removeWithin name record entry.2 store =
        ⟨entry.2.rewriteEntries (fun address => chosen (.key entry.1 :: address)) none, store,
          .ok ((slots name entry.2).any fun slot => !slot.2.isNull)⟩)) :
    removeWithinEntries name record entries store =
      ⟨rewriteInEntries chosen none entries, store,
        .ok ((slotsOfEntries name entries).any fun slot => !slot.2.isNull)⟩ := by
  induction entries with
  | nil => rfl
  | cons entry entries ih =>
      obtain ⟨key, old⟩ := entry
      obtain ⟨⟨hchosen, hwithin⟩, hentries⟩ := List.forall_mem_cons.mp hentries
      rw [removeWithinEntries, rewriteInEntries, slotsOfEntries, hchosen]
      by_cases hkey : key = name
      · simp only [hkey, decide_true, if_true, ih hentries]
        rfl
      · simp only [hkey, hwithin hkey, decide_false, Bool.false_eq_true, if_false, Change.map, List.any_append]
        rw [Change.cons_eq (ih hentries), any_inside (!·.isNull)]
        rfl

theorem Edit.rewritesAt_removeWithin (name : String) (record : Nat → Store → Change Unit) (tree : Tree) :
    RewritesAt (removeWithin name record) name none (!·.isNull) tree := by
  induction tree using Tree.induction with
  | scalar tree hscalar => intro chosen store _ _ _; cases tree <;> first | rfl | cases hscalar
  | array items ih =>
      intro chosen store hrecordFree hdistinct hfits
      rw [removeWithin, removeWithinItems_eq]
      exact rewritesAt_array ih hrecordFree hdistinct hfits
  | object entries ih =>
      intro chosen store hrecordFree hdistinct hfits
      rw [removeWithin, removeWithinEntries_eq (RewritesAt.entry ih hrecordFree hdistinct hfits store)]
      rfl
  | record handle entries _ => intro chosen store hrecordFree; cases hrecordFree

end Removing

/-! ### The path of a deep property -/

theorem Walk.exists_atDeepProperty_eq (name : String) (edit : Edit Tree) (depth : Nat) :
    ∃ record, atDeepProperty name edit depth = deepWithin name edit record := by
  cases depth with
  | zero => exact ⟨_, rfl⟩
  | succ depth => exact ⟨_, rfl⟩

theorem Edit.exists_removeDeep_eq (name : String) (depth : Nat) :
    ∃ record, removeDeep name depth = removeWithin name record := by
  cases depth with
  | zero => exact ⟨_, rfl⟩
  | succ depth => exact ⟨_, rfl⟩

section Whole

variable {path : Path} {root : Tree}

theorem Path.eval_deep (hpath : path.segments = [.property name true]) (root : Tree) :
    path.eval root = .ok (.array (root.deepMatches name)) := by
  rw [eval, hpath, Segment.applyAll, Segment.apply]
  rfl

theorem Path.set_deep (hpath : path.segments = [.property name true]) (hrecordFree : root.recordFree = true)
    (hdistinct : root.keysDistinct = true) (hfits : Fits name chosen root) (value : Tree) (store : Store) :
    path.set value root store =
      ⟨root.rewriteEntries chosen (some value), store, .ok ((slots name root).any fun _ => true)⟩ := by
  obtain ⟨record, hrecord⟩ := Walk.exists_atDeepProperty_eq name (Edit.replace value) store.records.length
  cases hnull : root.isNull with
  | true =>
      obtain rfl : root = .null := eq_null_of_isNull hnull
      rfl
  | false =>
      have hset : path.set value root store = Walk.deepWithin name (Edit.replace value) record root store := by
        rw [set, editLast, hnull, hpath, ← hrecord]
        rfl
      rw [hset]
      exact Walk.rewritesAt_deepWithin name value record root chosen store hrecordFree hdistinct hfits

theorem Path.remove_deep (hpath : path.segments = [.property name true]) (hrecordFree : root.recordFree = true)
    (hdistinct : root.keysDistinct = true) (hfits : Fits name chosen root) (store : Store) :
    path.remove root store =
      ⟨root.rewriteEntries chosen none, store, .ok ((slots name root).any fun slot => !slot.2.isNull)⟩ := by
  obtain ⟨record, hrecord⟩ := Edit.exists_removeDeep_eq name store.records.length
  have hremove : path.remove root store = path.editLast .nothing .removeRoot Walk.removeLast root store := by
    rw [remove, hpath]
    rfl
  cases hnull : root.isNull with
  | true =>
      obtain rfl : root = .null := eq_null_of_isNull hnull
      rw [hremove]
      rfl
  | false =>
      have hwithin : path.remove root store = Edit.removeWithin name record root store := by
        rw [hremove, editLast, hnull, hpath, ← hrecord]
        rfl
      rw [hwithin]
      exact Edit.rewritesAt_removeWithin name record root chosen store hrecordFree hdistinct hfits

theorem Tree.matchItems_of_isArray (harray : value.isArray = false) : value.matchItems = [value] := by
  cases value <;> first | rfl | cases harray

theorem Path.eval_rewriteEntries (hpath : path.segments = [.property name true]) (hrecordFree : root.recordFree = true)
    (hdistinct : root.keysDistinct = true) (hfits : Fits name chosen root) (harray : value.isArray = false) :
    path.eval (root.rewriteEntries chosen (some value)) =
      .ok (.array (List.replicate (slots name root).length value)) := by
  have hcopies : ((slots name root).flatMap fun _ => (some value).toList.flatMap matchItems) =
      List.replicate (slots name root).length value := by
    rw [Option.toList_some, List.flatMap_singleton, matchItems_of_isArray harray, ← List.map_eq_flatMap,
      List.map_const']
  rw [eval_deep hpath, deepMatches_rewriteEntries hrecordFree hdistinct hfits, hcopies]

/-- **Deep properties share their slots.** In a tree without records, the entries of a name that lie in no other entry
of the name are what evaluating the deep property reads, what assigning to it overwrites and what removing it deletes;
everything else stays as and where it is. An assignment reports whether there are such entries, and a removal whether
one of them was not null. -/
theorem Path.deep_slots (hpath : path.segments = [.property name true]) (hrecordFree : root.recordFree = true)
    (hdistinct : root.keysDistinct = true) (store : Store) :
    let slots := root.slots name
    ((slots.map Prod.fst).Nodup ∧ ∀ address value, (address, value) ∈ slots ↔ IsSlot name root address value) ∧
      path.eval root = .ok (.array (slots.flatMap fun slot => slot.2.matchItems)) ∧
      (∀ value,
        path.set value root store =
            ⟨root.rewriteEntries (root.atSlot name) (some value), store, .ok (decide (0 < slots.length))⟩ ∧
          (slots.length = 0 → (path.set value root store).result = root) ∧
          (value.isArray = false →
            path.eval (path.set value root store).result = .ok (.array (List.replicate slots.length value)) ∧
              path.eval (store.snapshot (path.set value root store).result) =
                .ok (.array (List.replicate slots.length (store.snapshot value))))) ∧
      path.remove root store =
        ⟨root.rewriteEntries (root.atSlot name) none, store, .ok (slots.any fun slot => !slot.2.isNull)⟩ ∧
      path.eval (path.remove root store).result = .ok (.array []) := by
  intro slots
  have hfits : Fits name (root.atSlot name) root := fits_atSlot name hdistinct
  have hset (value : Tree) : path.set value root store =
      ⟨root.rewriteEntries (root.atSlot name) (some value), store, .ok (decide (0 < slots.length))⟩ := by
    have hany : (slots.any fun _ => true) = decide (0 < slots.length) := by
      cases slots <;> simp
    rw [set_deep hpath hrecordFree hdistinct hfits, hany]
  have hremove := remove_deep hpath hrecordFree hdistinct hfits store
  have hmem : ∀ address value, (address, value) ∈ slots ↔ IsSlot name root address value := fun _ _ =>
    mem_slots hdistinct
  refine ⟨⟨nodup_slots name hdistinct, hmem⟩, ?_, fun value => ⟨hset value, ?_, ?_⟩, hremove, ?_⟩
  · rw [eval_deep hpath, deepMatches_eq hrecordFree]
  · intro hnone
    rw [hset value]
    exact rewriteEntries_of_slots_eq_nil (List.length_eq_zero_iff.mp hnone) _
  · intro harray
    rw [hset value, Store.snapshot, showRecords_rewriteEntries _ hrecordFree]
    have hshown : (store.snapshot value).isArray = false := (isArray_showRecords _ value).trans harray
    exact ⟨eval_rewriteEntries hpath hrecordFree hdistinct hfits harray,
      eval_rewriteEntries hpath hrecordFree hdistinct hfits hshown⟩
  · rw [hremove, eval_deep hpath, deepMatches_rewriteEntries hrecordFree hdistinct hfits]
    simp

/-- Three slots, one of them null and one with an entry of the same name inside. -/
theorem Path.deep_slots_nested :
    let path := Path.mk "$..n" [.property "n" true] false true
    let first := Tree.object [("n", .null), ("x", .object [("n", .integer 1)])]
    let root := Tree.object [("a", .array [first, .object [("n", .object [("n", .integer 2)])]])]
    root.recordFree = true ∧ root.keysDistinct = true ∧ (root.slots "n").length = 3 ∧
      path.set (.integer 7) root Store.empty = ⟨.object [("a", .array [.object [("n", .integer 7),
        ("x", .object [("n", .integer 7)])], .object [("n", .integer 7)]])], Store.empty, .ok true⟩ ∧
      path.eval (path.set (.integer 7) root Store.empty).result =
        .ok (.array [.integer 7, .integer 7, .integer 7]) ∧
      path.remove root Store.empty =
        ⟨.object [("a", .array [.object [("x", .object [])], .object []])], Store.empty, .ok true⟩ ∧
      path.eval (path.remove root Store.empty).result = .ok (.array []) := by
  intro path first root
  have hpath : path.segments = [.property "n" true] := rfl
  have hdistinct : root.keysDistinct = true := by decide
  obtain ⟨-, -, hset, hremove, hnothing⟩ := deep_slots hpath rfl hdistinct Store.empty
  obtain ⟨hwritten, -, hcopies⟩ := hset (.integer 7)
  exact ⟨rfl, hdistinct, rfl, hwritten, (hcopies rfl).1, hremove, hnothing⟩

end Whole

end TreeQuery
