import TreeQuery.Proofs.Edit.Commuting
import TreeQuery.Proofs.Edit.DeepSlots
import TreeQuery.Proofs.Tree.Pruning

/-!
# Removal only deletes

A removal leaves a pruned tree, whichever nodes the path leads to, and also where a fault ends it early. Its answer
keeps in step with what it did: as long as nothing but null was deleted it is `false`, and one deletion of something
else settles it for all that follow.
-/

namespace TreeQuery

open TreeQuery.Tree

variable {α : Type} {build : α → Tree} {x : α} {store : Store}

/-- Whether something other than null may be gone: a change was reported, or a fault kept it from being reported. -/
def losesValues : Except Fault Bool → Bool
  | .ok changed => changed
  | .error _ => true

theorem losesValues_map_or (before : Bool) (changed : Except Fault Bool) :
    losesValues (changed.map (before || ·)) = (before || losesValues changed) := by
  cases changed with
  | ok after => rfl
  | error fault => exact (Bool.or_true before).symm

/-- The change deletes from the tree that is built from the part it changes. -/
structure Change.Prunes (build : α → Tree) (x : α) (store : Store) (change : Change α) : Prop where
  store : change.store = store
  pruned : (build x).Pruned (losesValues change.changed) (build change.result)

namespace Edit

def PrunesAt (build : α → Tree) (edit : Edit α) (x : α) : Prop :=
  (build x).IsData → ∀ store, (edit x store).Prunes build x store

def Prunes (build : α → Tree) (edit : Edit α) : Prop := ∀ x, edit.PrunesAt build x

end Edit

/-! ### Changes one after another -/

section Changes

variable {first : Change α} {next : Edit α} {edits : List (Edit α)}

theorem Change.Prunes.map {β : Type} {join : β → Tree} {f : α → β} {y : β} (hfirst : first.Prunes build x store)
    (hbuild : ∀ {valued}, (build x).Pruned valued (build first.result) → (join y).Pruned valued (join (f first.result))) :
    (first.map f).Prunes join y store :=
  ⟨hfirst.store, hbuild hfirst.pruned⟩

/-- Deleting from a part is deleting from the tree that is built from it. -/
theorem Change.Prunes.whole (hfirst : first.Prunes build x store) : (first.map build).Prunes id (build x) store :=
  ⟨hfirst.store, hfirst.pruned⟩

theorem Change.Prunes.andThen (hfirst : first.Prunes build x store) (hnext : next.Prunes build)
    (hdata : (build x).IsData) : (first.andThen next).Prunes build x store := by
  obtain ⟨left, store', changed⟩ := first
  obtain ⟨rfl, hpruned⟩ := hfirst
  cases changed with
  | error fault => exact ⟨rfl, hpruned⟩
  | ok before =>
      obtain ⟨hstore, hrest⟩ := hnext left (hdata.pruned hpruned) store'
      refine ⟨hstore, ?_⟩
      change (build x).Pruned (losesValues ((next left store').changed.map (before || ·))) _
      rw [losesValues_map_or]
      exact hpruned.orLeft.trans hrest.orRight

theorem Edit.prunes_skip (build : α → Tree) : (Edit.skip : Edit α).Prunes build := fun _ _ _ => ⟨rfl, .same _⟩

theorem Edit.prunes_fail (build : α → Tree) (fault : Fault) : (Edit.fail fault : Edit α).Prunes build :=
  fun _ _ _ => ⟨rfl, .same _⟩

theorem Edit.prunes_sequence (hedits : ∀ edit ∈ edits, Edit.Prunes build edit) : (Edit.sequence edits).Prunes build := by
  induction edits with
  | nil => exact prunes_skip build
  | cons edit edits ih =>
      obtain ⟨hedit, hothers⟩ := List.forall_mem_cons.mp hedits
      intro x hdata store
      exact (hedit x hdata store).andThen (ih hothers) hdata

theorem Edit.prunes_sequence_map {β : Type} {edit : β → Edit α} (hedit : ∀ b, (edit b).Prunes build) (values : List β) :
    (Edit.sequence (values.map edit)).Prunes build :=
  prunes_sequence (List.forall_mem_map.mpr fun b _ => hedit b)

/-! ### Items and entries -/

theorem Change.Prunes.cons {head : Change Tree} {item : Tree} {items : List Tree} {tail : Store → Change (List Tree)}
    (hhead : head.Prunes id item store) (htail : (tail store).Prunes Tree.array items store) :
    (head.cons items tail).Prunes Tree.array (item :: items) store := by
  obtain ⟨left, store', changed⟩ := head
  obtain ⟨rfl, hpruned⟩ := hhead
  cases changed with
  | error fault => exact ⟨rfl, .keepItem hpruned (.same _)⟩
  | ok before =>
      refine ⟨htail.store, ?_⟩
      change Tree.Pruned (losesValues ((tail store').changed.map (before || ·))) _ _
      rw [losesValues_map_or]
      exact .keepItem hpruned.orLeft htail.pruned.orRight

theorem Change.Prunes.consEntry {head : Change Tree} {key : String} {value : Tree} {entries : Entries Tree}
    {tail : Store → Change (Entries Tree)} (hhead : head.Prunes id value store)
    (htail : (tail store).Prunes Tree.object entries store) :
    ((head.map fun left => (key, left)).cons entries tail).Prunes Tree.object ((key, value) :: entries) store := by
  obtain ⟨left, store', changed⟩ := head
  obtain ⟨rfl, hpruned⟩ := hhead
  cases changed with
  | error fault => exact ⟨rfl, .keepEntry key hpruned (.same _)⟩
  | ok before =>
      refine ⟨htail.store, ?_⟩
      change Tree.Pruned (losesValues ((tail store').changed.map (before || ·))) _ _
      rw [losesValues_map_or]
      exact .keepEntry key hpruned.orLeft htail.pruned.orRight

end Changes

namespace Edit

variable {edit : Edit Tree} {items : List Tree}

theorem PrunesAt.each (hedit : ∀ item ∈ items, edit.PrunesAt id item) : (each edit).PrunesAt Tree.array items := by
  induction items with
  | nil => exact fun _ _ => ⟨rfl, .same _⟩
  | cons item items ih =>
      obtain ⟨hitem, hothers⟩ := List.forall_mem_cons.mp hedit
      intro hdata store
      obtain ⟨hfirst, hrest⟩ := isData_array_cons.mp hdata
      exact (hitem hfirst store).cons (ih hothers hrest store)

theorem prunes_each_value (hedit : edit.Prunes id) : (each edit.value).Prunes Tree.object := by
  intro entries
  induction entries with
  | nil => exact fun _ _ => ⟨rfl, .same _⟩
  | cons entry entries ih =>
      obtain ⟨key, value⟩ := entry
      intro hdata store
      obtain ⟨-, hvalue, hrest⟩ := isData_object_cons.mp hdata
      exact (hedit value hvalue store).consEntry (ih hrest store)

theorem prunes_atPosition (hedit : edit.Prunes id) (position : Nat) : (atPosition edit position).Prunes Tree.array := by
  intro items
  induction items generalizing position with
  | nil => cases position <;> exact fun _ _ => ⟨rfl, .same _⟩
  | cons item items ih =>
      intro hdata store
      obtain ⟨hitem, hitems⟩ := isData_array_cons.mp hdata
      cases position with
      | zero => exact (hedit item hitem store).map fun hpruned => .keepItem hpruned (.same _)
      | succ position => exact (ih position hitems store).map fun hpruned => .keepItem (.same item) hpruned

theorem prunes_atKey (hedit : edit.Prunes id) (name : String) : (atKey name edit).Prunes Tree.object := by
  intro entries
  induction entries with
  | nil => exact fun _ _ => ⟨rfl, .same _⟩
  | cons entry entries ih =>
      obtain ⟨key, value⟩ := entry
      intro hdata store
      obtain ⟨-, hvalue, hentries⟩ := isData_object_cons.mp hdata
      rw [atKey]
      split
      · exact (hedit value hvalue store).map fun hpruned => .keepEntry key hpruned (.same _)
      · exact (ih hentries store).map fun hpruned => .keepEntry key (.same value) hpruned

/-- Arrays pass the edit on to their items. -/
theorem prunes_throughArrays (hedit : ∀ tree : Tree, tree.isArray = false → edit.PrunesAt id tree) :
    Prunes id (throughArrays edit) := by
  intro tree
  induction tree using Tree.induction with
  | scalar tree hscalar =>
      have hsame : throughArrays edit tree = edit tree := by cases tree <;> first | rfl | cases hscalar
      rw [PrunesAt, hsame]
      exact hedit tree (by cases tree <;> first | rfl | cases hscalar)
  | array items ih =>
      intro hdata store
      rw [throughArrays, throughItems_eq]
      exact (PrunesAt.each ih hdata store).whole
  | object entries _ => exact hedit (.object entries) rfl
  | record handle entries _ => exact fun hdata => by cases hdata.recordFree

end Edit

/-! ### Steps of a walk that builds nothing -/

namespace Walk

variable {walk : Walk} {edit : Edit Tree}

theorem prunes_atProperty (hedit : edit.Prunes id) (name : String) : Edit.Prunes id (atProperty none name edit) := by
  intro tree hdata store
  cases tree with
  | object entries =>
      rw [atProperty, enter_none]
      split
      · exact (Edit.prunes_atKey hedit name entries hdata store).whole
      · exact ⟨rfl, .same _⟩
  | record handle entries => cases hdata.recordFree
  | _ => exact ⟨rfl, .same _⟩

theorem prunes_atIndex (hedit : edit.Prunes id) (index : Int) : Edit.Prunes id (atIndex none index edit) := by
  intro tree hdata store
  cases tree with
  | array items =>
      simp only [atIndex, enter_none, Option.isSome_none, Bool.false_eq_true, and_false, if_false]
      split
      · next position _ =>
          exact (Edit.prunes_atPosition hedit position items hdata store).whole
      · exact ⟨rfl, .same _⟩
  | _ => exact prunes_atProperty hedit (toString index) _ hdata store

theorem prunes_atPositions (hedit : edit.Prunes id) (positions : List Nat) :
    (atPositions positions edit).Prunes Tree.array :=
  Edit.prunes_sequence_map (Edit.prunes_atPosition hedit) positions

theorem prunes_atSlice (hedit : edit.Prunes id) (start last step : Int) :
    Edit.Prunes id (atSlice none start last step edit) := by
  intro tree hdata store
  cases tree with
  | array items =>
      rw [atSlice, enter_none]
      exact (prunes_atPositions hedit _ items hdata store).whole
  | _ => exact ⟨rfl, .same _⟩

theorem prunes_atChildren (hedit : edit.Prunes id) : Edit.Prunes id (atChildren edit) := by
  intro tree hdata store
  cases tree with
  | array items =>
      exact (Edit.PrunesAt.each (fun item _ => hedit item) hdata store).whole
  | object entries => exact (Edit.prunes_each_value hedit entries hdata store).whole
  | record handle entries => cases hdata.recordFree
  | _ => exact ⟨rfl, .same _⟩

theorem prunes_deepWithin (hedit : edit.Prunes id) (name : String) (record : Nat → Store → Change Unit) :
    Edit.Prunes id (deepWithin name edit record) := by
  intro tree
  induction tree using Tree.induction with
  | scalar tree hscalar => cases tree <;> first | exact Edit.prunes_skip id _ | cases hscalar
  | array items ih =>
      intro hdata store
      rw [deepWithin, deepWithinItems_eq]
      exact (Edit.PrunesAt.each ih hdata store).whole
  | object entries ih =>
      have hentries : Edit.PrunesAt Tree.object (deepWithinEntries name edit record) entries := by
        induction entries with
        | nil => exact fun _ _ => ⟨rfl, .same _⟩
        | cons entry entries ihRest =>
            obtain ⟨key, value⟩ := entry
            obtain ⟨ihValue, ihEntries⟩ := List.forall_mem_cons.mp ih
            intro hdata store
            obtain ⟨-, hvalue, hrest⟩ := isData_object_cons.mp hdata
            rw [deepWithinEntries]
            refine Change.Prunes.consEntry ?_ (ihRest ihEntries hrest store)
            split
            · exact hedit value hvalue store
            · exact ihValue hvalue store
      intro hdata store
      exact (hentries hdata store).whole
  | record handle entries _ => exact fun hdata => by cases hdata.recordFree

theorem prunes_atDescendants (hedit : edit.Prunes id) (objectsOnly : Bool) (depth : Nat) :
    Edit.Prunes id (atDescendants objectsOnly edit depth) := by
  induction depth with
  | zero => exact Edit.prunes_skip id
  | succ depth ih =>
      have hbelow : Edit.Prunes id (belowNode objectsOnly edit (atDescendants objectsOnly edit depth)) := by
        intro node hdata store
        rw [belowNode]
        split
        · split
          · exact Edit.prunes_skip id node hdata store
          · exact hedit node hdata store
        · split
          · exact ih node hdata store
          · exact (hedit node hdata store).andThen ih hdata
      intro tree hdata store
      cases tree with
      | array items =>
          exact (Edit.PrunesAt.each (fun item _ => hbelow item) hdata store).whole
      | object entries => exact (Edit.prunes_each_value hbelow entries hdata store).whole
      | record handle entries => cases hdata.recordFree
      | _ => exact ⟨rfl, .same _⟩

theorem prunes_atMatches (hedit : edit.Prunes id) (condition : Filter) : Edit.Prunes id (walk.atMatches condition edit) := by
  intro tree hdata store
  cases tree with
  | array items =>
      rw [atMatches]
      split
      · exact (prunes_atPositions hedit _ items hdata store).whole
      · exact ⟨rfl, .same _⟩
  | null => exact ⟨rfl, .same _⟩
  | _ =>
      rw [atMatches]
      · split
        · exact hedit _ hdata store
        · exact ⟨rfl, .same _⟩
        · exact ⟨rfl, .same _⟩
      all_goals exact nofun

theorem prunes_step (hbuilding : walk.building = .nothing) (hedit : edit.Prunes id) (following : Option Segment)
    (segment : Segment) : Edit.Prunes id (walk.step following edit segment) := by
  have hcontainer : walk.container? following = none := container?_eq_none hbuilding following
  cases segment with
  | property name deep =>
      cases deep with
      | false =>
          rw [step, hcontainer]
          exact Edit.prunes_throughArrays fun tree _ => prunes_atProperty hedit name tree
      | true =>
          intro tree hdata store
          obtain ⟨record, hrecord⟩ := exists_atDeepProperty_eq name edit store.records.length
          change (atDeepProperty name edit store.records.length tree store).Prunes id tree store
          rw [hrecord]
          exact prunes_deepWithin hedit name record tree hdata store
  | properties names =>
      rw [step, hcontainer]
      exact Edit.prunes_throughArrays fun tree _ => Edit.prunes_sequence_map (prunes_atProperty hedit) names tree
  | wildcard deep objectsOnly =>
      cases deep with
      | false => exact prunes_atChildren hedit
      | true => exact fun tree hdata store => prunes_atDescendants hedit objectsOnly _ tree hdata store
  | index index =>
      rw [step, hcontainer]
      exact prunes_atIndex hedit index
  | indices indices =>
      rw [step, hcontainer]
      exact Edit.prunes_sequence_map (prunes_atIndex hedit) indices
  | slice start last stride =>
      rw [step, hcontainer]
      exact prunes_atSlice hedit start last stride
  | filter condition => exact prunes_atMatches hedit condition
  | function name => exact Edit.prunes_fail id _

theorem prunes_visit (hbuilding : walk.building = .nothing) (next : Option Segment) (hedit : edit.Prunes id)
    (segments : List Segment) : (walk.visit next edit segments).Prunes id := by
  induction segments with
  | nil => exact hedit
  | cons segment segments ih => exact prunes_step hbuilding ih _ segment

end Walk

/-! ### What is removed at the end of a walk -/

namespace Edit

theorem prunes_dropProperty (name : String) : (dropProperty name).Prunes id := by
  intro tree hdata store
  cases tree with
  | object entries => exact ⟨rfl, pruned_erase (isData_object.mp hdata).1 name⟩
  | record handle entries => cases hdata.recordFree
  | _ => exact ⟨rfl, .same _⟩

theorem prunes_removeProperty (name : String) : (removeProperty name).Prunes id :=
  prunes_throughArrays fun tree _ => prunes_dropProperty name tree

theorem prunes_removeWithin (name : String) (record : Nat → Store → Change Unit) :
    Edit.Prunes id (removeWithin name record) := by
  intro tree
  induction tree using Tree.induction with
  | scalar tree hscalar => cases tree <;> first | exact prunes_skip id _ | cases hscalar
  | array items ih =>
      intro hdata store
      rw [removeWithin, removeWithinItems_eq]
      exact (PrunesAt.each ih hdata store).whole
  | object entries ih =>
      have hentries : PrunesAt Tree.object (removeWithinEntries name record) entries := by
        induction entries with
        | nil => exact fun _ _ => ⟨rfl, .same _⟩
        | cons entry entries ihRest =>
            obtain ⟨key, value⟩ := entry
            obtain ⟨ihValue, ihEntries⟩ := List.forall_mem_cons.mp ih
            intro hdata store
            obtain ⟨-, hvalue, hrest⟩ := isData_object_cons.mp hdata
            have hothers := ihRest ihEntries hrest store
            rw [removeWithinEntries]
            split
            · refine ⟨hothers.store, ?_⟩
              rw [Change.orChanged, losesValues_map_or]
              exact .dropEntry key (by cases value.isNull <;> simp) hothers.pruned.orRight
            · exact (ihValue hvalue store).consEntry hothers
      intro hdata store
      exact (hentries hdata store).whole
  | record handle entries _ => exact fun hdata => by cases hdata.recordFree

theorem prunes_clear : clear.Prunes id := by
  intro tree hdata store
  cases tree with
  | array items =>
      cases items with
      | nil => exact ⟨rfl, .same _⟩
      | cons item items => exact ⟨rfl, pruned_of_sublist (List.nil_sublist _)⟩
  | object entries =>
      cases entries with
      | nil => exact ⟨rfl, .same _⟩
      | cons entry entries =>
          have hnone : (entry :: entries).filter (fun _ => false) = [] := List.filter_eq_nil_iff.mpr (by simp)
          refine ⟨rfl, ?_⟩
          change (Tree.object (entry :: entries)).Pruned true (.object [])
          rw [← hnone]
          exact pruned_filter fun _ _ _ => .inl rfl
  | _ => exact ⟨rfl, .same _⟩

theorem dropPositions_nil (items : List α) : dropPositions [] items = items := by
  have hall : items.zipIdx.filter (fun item => !([] : List Nat).contains item.2) = items.zipIdx :=
    List.filter_eq_self.mpr fun _ _ => rfl
  rw [dropPositions, hall, List.zipIdx_map_fst]

theorem dropPositions_sublist (positions : List Nat) (items : List α) : (dropPositions positions items).Sublist items := by
  have hfilter := List.filter_sublist (p := fun item => !positions.contains item.2) (l := items.zipIdx)
  simpa [dropPositions, List.zipIdx_map_fst] using hfilter.map Prod.fst

theorem pruned_dropPositions (positions : List Nat) (items : List Tree) :
    (Tree.array items).Pruned (!positions.isEmpty) (.array (dropPositions positions items)) := by
  cases positions with
  | nil => rw [dropPositions_nil]; exact .same _
  | cons position positions => exact pruned_of_sublist (dropPositions_sublist _ items)

theorem prunes_removePositions (positions : List Nat) (items : List Tree) (store : Store) :
    (removePositions positions items (.array items) store).Prunes id (.array items) store :=
  ⟨rfl, pruned_dropPositions positions items⟩

theorem prunes_removeIndex (index : Int) : (removeIndex index).Prunes id := by
  intro tree hdata store
  cases tree with
  | array items => exact prunes_removePositions _ items store
  | object entries => exact prunes_dropProperty (toString index) _ hdata store
  | record handle entries => cases hdata.recordFree
  | _ => exact ⟨rfl, .same _⟩

theorem prunes_removeIndices (indices : List Int) : (removeIndices indices).Prunes id := by
  intro tree hdata store
  cases tree with
  | array items => exact prunes_removePositions _ items store
  | _ => exact ⟨rfl, .same _⟩

theorem prunes_removeSlice (start last step : Int) : (removeSlice start last step).Prunes id := by
  intro tree hdata store
  cases tree with
  | array items => exact prunes_removePositions _ items store
  | _ => exact ⟨rfl, .same _⟩

end Edit

namespace Walk

variable {walk : Walk} {condition : Filter} {name : String} {entries : Entries Tree} {items : List Tree}

theorem prunes_removeMatches (walk : Walk) (condition : Filter) : (walk.removeMatches condition).Prunes id := by
  intro tree hdata store
  cases tree with
  | array items =>
      rw [removeMatches]
      split
      · exact Edit.prunes_removePositions _ items store
      · exact ⟨rfl, .same _⟩
  | _ => exact ⟨rfl, .same _⟩

theorem prunes_removeUnder (hdata : (Tree.object entries).IsData) (store : Store) :
    (walk.removeUnder condition name entries store).1.Prunes Tree.object entries store := by
  rw [removeUnder]
  split
  · next children hfind =>
      have hchildren := (isData_object.mp hdata).2 _ (Entries.mem_of_find? hfind)
      have hmatches := prunes_removeMatches walk condition _ hchildren store
      exact ⟨hmatches.store, hmatches.pruned.insert hfind⟩
  · split <;> exact ⟨rfl, .same _⟩
  · exact ⟨rfl, .same _⟩

theorem fst_removeUnderItems_cons (position : Nat) (entries : Entries Tree) (items : List Tree) (store : Store) :
    (walk.removeUnderItems condition name position (.object entries :: items) store).1 =
      ((walk.removeUnder condition name entries store).1.map Tree.object).cons items fun store =>
        (walk.removeUnderItems condition name (position + 1) items store).1 := by
  rw [removeUnderItems, Change.cons]
  rcases walk.removeUnder condition name entries store with ⟨⟨left, store', _ | before⟩, doomed⟩ <;> rfl

theorem prunes_removeUnderItems (hdata : (Tree.array items).IsData) (position : Nat) (store : Store) :
    (walk.removeUnderItems condition name position items store).1.Prunes Tree.array items store := by
  induction items generalizing position store with
  | nil => exact ⟨rfl, .same _⟩
  | cons item items ih =>
      obtain ⟨hitem, hitems⟩ := isData_array_cons.mp hdata
      cases item with
      | object entries =>
          have hunder : (walk.removeUnder condition name entries store).1.Prunes Tree.object entries store :=
            prunes_removeUnder hitem store
          rw [fst_removeUnderItems_cons]
          exact Change.Prunes.cons ⟨hunder.store, hunder.pruned⟩ (ih hitems (position + 1) store)
      | _ =>
          rw [removeUnderItems]
          · exact (ih hitems (position + 1) store).map fun hpruned => .keepItem (.same _) hpruned
          all_goals exact nofun

theorem prunes_removeChildren (walk : Walk) (condition : Filter) (name : String) :
    (walk.removeChildren condition name).Prunes id := by
  intro tree hdata store
  cases tree with
  | array items =>
      have hunder : (walk.removeUnderItems condition name 0 items store).1.Prunes Tree.array items store :=
        prunes_removeUnderItems hdata 0 store
      rw [removeChildren]
      rcases hchange : walk.removeUnderItems condition name 0 items store with ⟨⟨left, store', changed⟩, doomed⟩
      rw [hchange] at hunder
      obtain ⟨rfl, hpruned⟩ := hunder
      cases changed with
      | error fault => exact ⟨rfl, hpruned⟩
      | ok changed => exact ⟨rfl, hpruned.orLeft.trans (Edit.pruned_dropPositions doomed left).orRight⟩
  | object entries =>
      have hunder : (walk.removeUnder condition name entries store).1.Prunes Tree.object entries store :=
        prunes_removeUnder hdata store
      rw [removeChildren]
      split
      split
      · exact ⟨rfl, pruned_filter fun _ _ _ => .inl rfl⟩
      · next hchange _ =>
          rw [hchange] at hunder
          exact ⟨hunder.store, hunder.pruned⟩
  | _ => exact ⟨rfl, .same _⟩

theorem prunes_removeLast (walk : Walk) (last : Segment) : (walk.removeLast last).Prunes id := by
  cases last with
  | property name deep =>
      cases deep with
      | false => exact Edit.prunes_removeProperty name
      | true =>
          intro tree hdata store
          obtain ⟨record, hrecord⟩ := Edit.exists_removeDeep_eq name store.records.length
          change (Edit.removeDeep name store.records.length tree store).Prunes id tree store
          rw [hrecord]
          exact Edit.prunes_removeWithin name record tree hdata store
  | properties names => exact Edit.prunes_sequence_map Edit.prunes_removeProperty names
  | wildcard deep objectsOnly =>
      cases deep with
      | false => exact Edit.prunes_clear
      | true => exact Edit.prunes_fail id _
  | index index => exact Edit.prunes_removeIndex index
  | indices indices => exact Edit.prunes_removeIndices indices
  | slice start last step => exact Edit.prunes_removeSlice start last step
  | filter condition => exact prunes_removeMatches walk condition
  | function name => exact Edit.prunes_fail id _

end Walk

/-- **Removal only deletes.** Whatever it answers, a removal leaves the records alone and deletes items of arrays and
entries of objects: what remains keeps its order and its scalars. If it answers that nothing was removed, then it
deleted nothing but entries that were null. -/
theorem Path.remove_prunes (path : Path) {root : Tree} (hrecordFree : root.recordFree = true)
    (hdistinct : root.keysDistinct = true) (store : Store) :
    (path.remove root store).store = store ∧ root.Pruned true (path.remove root store).result ∧
      ((path.remove root store).changed = .ok false → root.Pruned false (path.remove root store).result) := by
  have hdata : root.IsData := ⟨hrecordFree, hdistinct⟩
  have hlast : (path.editLast .nothing .removeRoot Walk.removeLast root store).Prunes id root store := by
    rw [editLast]
    split
    · exact ⟨rfl, .same _⟩
    · split
      · exact ⟨rfl, .same _⟩
      · exact Walk.prunes_visit rfl _ (Walk.prunes_removeLast _ _) _ root hdata store
  have hprunes : (path.remove root store).Prunes id root store := by
    rw [remove]
    split
    · split
      · exact ⟨rfl, .same _⟩
      · exact Walk.prunes_visit rfl _ (Walk.prunes_removeChildren _ _ _) _ root hdata store
    · exact hlast
  refine ⟨hprunes.store, hprunes.pruned.mono fun _ => rfl, fun hchanged => ?_⟩
  have hpruned := hprunes.pruned
  rwa [hchanged] at hpruned

/-- Two entries go, in an array and in an object, both of them null. -/
theorem Path.remove_prunes_nulls :
    let path := Path.mk "$..list.a" [.property "list" true, .property "a" false] false true
    let root := Tree.object [("list", .array [.object [("a", .null), ("b", .integer 1)], .null]),
      ("x", .object [("list", .object [("b", .bool true), ("a", .null)])])]
    let left := Tree.object [("list", .array [.object [("b", .integer 1)], .null]),
      ("x", .object [("list", .object [("b", .bool true)])])]
    (root.recordFree = true ∧ root.keysDistinct = true) ∧
      path.remove root Store.empty = ⟨left, Store.empty, .ok false⟩ ∧ root.Pruned false left := by
  intro path root left
  have hdistinct : root.keysDistinct = true := by decide
  have hremove : path.remove root Store.empty = ⟨left, Store.empty, .ok false⟩ := rfl
  obtain ⟨-, -, hpruned⟩ := remove_prunes path (rfl : root.recordFree = true) hdistinct Store.empty
  rw [hremove] at hpruned
  exact ⟨⟨rfl, hdistinct⟩, hremove, hpruned rfl⟩

end TreeQuery
