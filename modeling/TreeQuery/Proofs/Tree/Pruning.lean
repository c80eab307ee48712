import TreeQuery.Proofs.Tree.Everywhere

/-!
# Pruned trees

A tree is pruned by deleting items from its arrays and entries from its objects, at any depth. Nothing else changes:
what stays keeps its order, and a scalar that stays is the scalar it was. Deletions compose, which is what carries a
fact about single deletions over to a whole walk.
-/

namespace TreeQuery.Tree

/-- The second tree is what deletions leave of the first. Unless `valued`, only entries that are null are deleted. -/
inductive Pruned (valued : Bool) : Tree → Tree → Prop
  | same (tree : Tree) : Pruned valued tree tree
  | keepItem {item left : Tree} {items rest : List Tree} (hitem : Pruned valued item left)
      (hitems : Pruned valued (array items) (array rest)) : Pruned valued (array (item :: items)) (array (left :: rest))
  | dropItem (item : Tree) {items rest : List Tree} (hvalued : valued = true)
      (hitems : Pruned valued (array items) (array rest)) : Pruned valued (array (item :: items)) (array rest)
  | keepEntry (key : String) {value left : Tree} {entries rest : Entries Tree} (hvalue : Pruned valued value left)
      (hentries : Pruned valued (object entries) (object rest)) :
      Pruned valued (object ((key, value) :: entries)) (object ((key, left) :: rest))
  | dropEntry (key : String) {value : Tree} {entries rest : Entries Tree}
      (hvalue : valued = true ∨ value.isNull = true) (hentries : Pruned valued (object entries) (object rest)) :
      Pruned valued (object ((key, value) :: entries)) (object rest)

variable {valued valued' : Bool} {tree left rest item : Tree} {items : List Tree} {entries : Entries Tree}

theorem Pruned.mono (hpruned : Pruned valued tree left) (hvalued : valued = true → valued' = true) :
    Pruned valued' tree left := by
  induction hpruned with
  | same tree => exact .same tree
  | keepItem _ _ ihItem ihItems => exact .keepItem ihItem ihItems
  | dropItem item hany _ ihItems => exact .dropItem item (hvalued hany) ihItems
  | keepEntry key _ _ ihValue ihEntries => exact .keepEntry key ihValue ihEntries
  | dropEntry key hvalue _ ihEntries => exact .dropEntry key (hvalue.imp_left hvalued) ihEntries

theorem Pruned.orLeft (hpruned : Pruned valued tree left) : Pruned (valued || valued') tree left :=
  hpruned.mono fun hvalued => by rw [hvalued, Bool.true_or]

theorem Pruned.orRight (hpruned : Pruned valued' tree left) : Pruned (valued || valued') tree left :=
  hpruned.mono fun hvalued => by rw [hvalued, Bool.or_true]

theorem Pruned.isNull (hpruned : Pruned valued tree left) : left.isNull = tree.isNull := by
  cases hpruned <;> rfl

theorem Pruned.exists_items (hpruned : Pruned valued (array items) left) : ∃ kept, left = array kept := by
  cases hpruned <;> exact ⟨_, rfl⟩

theorem Pruned.exists_entries (hpruned : Pruned valued (object entries) left) : ∃ kept, left = object kept := by
  cases hpruned <;> exact ⟨_, rfl⟩

/-- Deletions compose: an entry that is null later was null from the beginning. -/
theorem Pruned.trans (hfirst : Pruned valued tree left) (hsecond : Pruned valued left rest) :
    Pruned valued tree rest := by
  induction hfirst generalizing rest with
  | same tree => exact hsecond
  | keepItem hitem hitems ihItem ihItems =>
      cases hsecond with
      | same => exact .keepItem hitem hitems
      | keepItem hitem' hitems' => exact .keepItem (ihItem hitem') (ihItems hitems')
      | dropItem _ hvalued hitems' => exact .dropItem _ hvalued (ihItems hitems')
  | dropItem item hvalued _ ihItems =>
      obtain ⟨kept, rfl⟩ := hsecond.exists_items
      exact .dropItem item hvalued (ihItems hsecond)
  | keepEntry key hvalue hentries ihValue ihEntries =>
      cases hsecond with
      | same => exact .keepEntry key hvalue hentries
      | keepEntry _ hvalue' hentries' => exact .keepEntry key (ihValue hvalue') (ihEntries hentries')
      | dropEntry _ hvalue' hentries' =>
          rw [hvalue.isNull] at hvalue'
          exact .dropEntry key hvalue' (ihEntries hentries')
  | dropEntry key hvalue _ ihEntries =>
      obtain ⟨kept, rfl⟩ := hsecond.exists_entries
      exact .dropEntry key hvalue (ihEntries hsecond)

/-! ### Documents -/

/-- A tree of plain data: it holds no records, and no object in it repeats a key. -/
structure IsData (tree : Tree) : Prop where
  recordFree : tree.recordFree = true
  keysDistinct : tree.keysDistinct = true

theorem isData_array : (array items).IsData ↔ ∀ item ∈ items, item.IsData := by
  constructor
  · rintro ⟨hrecordFree, hdistinct⟩ item hmem
    exact ⟨(everywhere_array.mp hrecordFree).2 item hmem, keysDistinct_array.mp hdistinct item hmem⟩
  · intro hitems
    exact ⟨everywhere_array.mpr ⟨rfl, fun item hmem => (hitems item hmem).recordFree⟩,
      keysDistinct_array.mpr fun item hmem => (hitems item hmem).keysDistinct⟩

theorem isData_object : (object entries).IsData ↔ entries.keys.Nodup ∧ ∀ entry ∈ entries, entry.2.IsData := by
  constructor
  · rintro ⟨hrecordFree, hdistinct⟩
    obtain ⟨hnodup, hvalues⟩ := keysDistinct_object.mp hdistinct
    exact ⟨hnodup, fun entry hmem => ⟨(everywhere_object.mp hrecordFree).2 entry hmem, hvalues entry hmem⟩⟩
  · rintro ⟨hnodup, hentries⟩
    exact ⟨everywhere_object.mpr ⟨rfl, fun entry hmem => (hentries entry hmem).recordFree⟩,
      keysDistinct_object.mpr ⟨hnodup, fun entry hmem => (hentries entry hmem).keysDistinct⟩⟩

theorem isData_array_cons : (array (item :: items)).IsData ↔ item.IsData ∧ (array items).IsData := by
  rw [isData_array, isData_array, List.forall_mem_cons]

theorem isData_object_cons {key : String} {value : Tree} :
    (object ((key, value) :: entries)).IsData ↔ key ∉ entries.keys ∧ value.IsData ∧ (object entries).IsData := by
  rw [isData_object, isData_object, List.forall_mem_cons, Entries.keys, List.map_cons, List.nodup_cons, and_assoc,
    and_left_comm (c := ∀ entry ∈ entries, entry.2.IsData)]
  rfl

theorem Pruned.keys_subset {entries' : Entries Tree} (hpruned : Pruned valued (object entries) (object entries')) :
    entries'.keys ⊆ entries.keys := by
  generalize hbefore : object entries = before at hpruned
  generalize hafter : object entries' = after at hpruned
  induction hpruned generalizing entries entries' with
  | same tree =>
      cases hbefore
      cases hafter
      exact List.Subset.refl _
  | keepItem => cases hbefore
  | dropItem => cases hbefore
  | keepEntry key _ _ _ ih =>
      cases hbefore
      cases hafter
      exact List.cons_subset_cons key (ih rfl rfl)
  | dropEntry key _ _ ih =>
      cases hbefore
      cases hafter
      exact List.subset_cons_of_subset key (ih rfl rfl)

theorem IsData.pruned (hdata : tree.IsData) (hpruned : Pruned valued tree left) : left.IsData := by
  induction hpruned with
  | same tree => exact hdata
  | keepItem _ _ ihItem ihItems =>
      obtain ⟨hitem, hitems⟩ := isData_array_cons.mp hdata
      exact isData_array_cons.mpr ⟨ihItem hitem, ihItems hitems⟩
  | dropItem item _ _ ihItems => exact ihItems (isData_array_cons.mp hdata).2
  | keepEntry key _ hentries ihValue ihEntries =>
      obtain ⟨hnew, hvalue, hothers⟩ := isData_object_cons.mp hdata
      exact isData_object_cons.mpr ⟨fun hmem => hnew (hentries.keys_subset hmem), ihValue hvalue, ihEntries hothers⟩
  | dropEntry key _ _ ihEntries => exact ihEntries (isData_object_cons.mp hdata).2.2

/-! ### Single deletions -/

theorem pruned_of_sublist {kept : List Tree} (hsublist : kept.Sublist items) : Pruned true (array items) (array kept) := by
  induction hsublist with
  | slnil => exact .same _
  | cons item _ ih => exact .dropItem item rfl ih
  | cons_cons item _ ih => exact .keepItem (.same item) ih

theorem pruned_filter {keep : String × Tree → Bool}
    (hdropped : ∀ entry ∈ entries, keep entry = false → valued = true ∨ entry.2.isNull = true) :
    Pruned valued (object entries) (object (entries.filter keep)) := by
  induction entries with
  | nil => exact .same _
  | cons entry entries ih =>
      obtain ⟨hentry, hentries⟩ := List.forall_mem_cons.mp hdropped
      cases hkeep : keep entry with
      | true =>
          rw [List.filter_cons_of_pos hkeep]
          exact .keepEntry entry.1 (.same entry.2) (ih hentries)
      | false =>
          rw [List.filter_cons_of_neg (by simp [hkeep])]
          exact .dropEntry entry.1 (hentry hkeep) (ih hentries)

/-- Erasing a key deletes a value exactly if one is found under it. -/
theorem pruned_erase (hnodup : entries.keys.Nodup) (name : String) :
    Pruned (!((Entries.find? entries name).getD null).isNull) (object entries) (object (Entries.erase entries name)) := by
  refine pruned_filter fun entry hmem hkey => ?_
  obtain rfl : entry.1 = name := by simpa using hkey
  rw [Entries.find?_of_mem hnodup hmem, Option.getD_some]
  cases entry.2.isNull <;> simp

theorem Pruned.insert {name : String} {value : Tree} (hfind : Entries.find? entries name = some value)
    (hpruned : Pruned valued value left) : Pruned valued (object entries) (object (Entries.insert name left entries)) := by
  induction entries with
  | nil => cases hfind
  | cons entry entries ih =>
      obtain ⟨key, old⟩ := entry
      rw [Entries.find?_cons] at hfind
      rw [Entries.insert]
      split at hfind
      · next hkey =>
          obtain rfl := Option.some.inj hfind
          rw [if_pos hkey]
          exact .keepEntry key hpruned (.same _)
      · next hkey =>
          rw [if_neg hkey]
          exact .keepEntry key (.same old) (ih hfind)

end TreeQuery.Tree
