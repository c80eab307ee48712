import Mathlib.Data.Finset.Card
import Mathlib.Data.Finset.Range
import TreeQuery.Proofs.Listing.Texts
import TreeQuery.Proofs.Tree.Sharing

/-!
# Records are listed once

Records may hold handles to each other in a circle, and then no tree shows all of them in full. A traversal knows
records by their handles and looks their entries up when it comes to them. It ends because every record is entered once
at most, and it gives what listing the snapshot gives.
-/

namespace TreeQuery

namespace Tree

/-- The children of a node with the steps to them, those of records included. -/
def fields : Tree → List (Step × Tree)
  | array items => steps (array items)
  | object entries | record _ entries => steps (object entries)
  | _ => []

theorem fields_induction {motive : Tree → Prop}
    (node : ∀ tree, (∀ field ∈ tree.fields, motive field.2) → motive tree) (tree : Tree) : motive tree := by
  induction tree using Tree.induction with
  | scalar tree hscalar =>
      have hnone : tree.fields = [] := by cases tree <;> first | rfl | cases hscalar
      exact node tree fun field hfield => absurd hfield (hnone ▸ List.not_mem_nil)
  | array items ih =>
      refine node _ fun field hfield => ?_
      obtain ⟨item, hitem, rfl⟩ := List.mem_map.mp hfield
      exact ih item.1 (List.fst_mem_of_mem_zipIdx hitem)
  | object entries ih =>
      refine node _ fun field hfield => ?_
      obtain ⟨entry, hentry, rfl⟩ := List.mem_map.mp hfield
      exact ih entry hentry
  | record handle entries ih =>
      refine node _ fun field hfield => ?_
      obtain ⟨entry, hentry, rfl⟩ := List.mem_map.mp hfield
      exact ih entry hentry

mutual

/-- The tree with objects in the place of its records. -/
def flat : Tree → Tree
  | array items => array (flatItems items)
  | object entries => object (flatEntries entries)
  | record _ entries => object (flatEntries entries)
  | tree => tree

def flatItems : List Tree → List Tree
  | [] => []
  | item :: items => flat item :: flatItems items

def flatEntries : List (String × Tree) → List (String × Tree)
  | [] => []
  | (name, value) :: entries => (name, flat value) :: flatEntries entries

end

theorem flatItems_eq_map (items : List Tree) : flatItems items = items.map flat := by
  induction items with
  | nil => rfl
  | cons item items ih => rw [flatItems, List.map_cons, ih]

theorem flatEntries_eq_map (entries : Entries Tree) :
    flatEntries entries = entries.map fun entry => (entry.1, flat entry.2) := by
  induction entries with
  | nil => rfl
  | cons entry entries ih => rw [flatEntries, List.map_cons, ih]

theorem isNull_flat (tree : Tree) : tree.flat.isNull = tree.isNull := by cases tree <;> rfl

theorem steps_flat (tree : Tree) : tree.flat.steps = tree.fields.map fun field => (field.1, field.2.flat) := by
  cases tree with
  | array items =>
      rw [flat, flatItems_eq_map, fields, steps, steps, List.zipIdx_map, List.map_map, List.map_map]
      rfl
  | object entries =>
      rw [flat, flatEntries_eq_map, fields, steps, steps, List.map_map, List.map_map]
      rfl
  | record handle entries =>
      rw [flat, flatEntries_eq_map, fields, steps, steps, List.map_map, List.map_map]
      rfl
  | _ => rfl

theorem keys_flatEntries (entries : Entries Tree) : Entries.keys (flatEntries entries) = Entries.keys entries := by
  rw [flatEntries_eq_map, Entries.keys, Entries.keys, List.map_map]
  rfl

theorem keysDistinct_record {handle : Nat} {entries : Entries Tree} :
    keysDistinct (record handle entries) = true ↔ keysDistinct (object entries) = true := by
  rw [keysDistinct, keysDistinct, everywhere, everywhere]
  rfl

theorem keysDistinct_flat {tree : Tree} (hdistinct : tree.keysDistinct = true) : tree.flat.keysDistinct = true := by
  have hobject : ∀ entries : Entries Tree,
      (∀ entry ∈ entries, entry.2.keysDistinct = true → entry.2.flat.keysDistinct = true) →
      keysDistinct (object entries) = true → keysDistinct (object (flatEntries entries)) = true := by
    intro entries ih hentries
    obtain ⟨hnodup, hvalues⟩ := keysDistinct_object.mp hentries
    refine keysDistinct_object.mpr ⟨by rwa [keys_flatEntries], fun entry hmem => ?_⟩
    rw [flatEntries_eq_map] at hmem
    obtain ⟨entry, hentry, rfl⟩ := List.mem_map.mp hmem
    exact ih entry hentry (hvalues entry hentry)
  induction tree using Tree.induction with
  | scalar tree hscalar => cases tree <;> first | rfl | cases hscalar
  | array items ih =>
      refine keysDistinct_array.mpr fun item hmem => ?_
      rw [flatItems_eq_map] at hmem
      obtain ⟨item, hitem, rfl⟩ := List.mem_map.mp hmem
      exact ih item hitem (keysDistinct_array.mp hdistinct item hitem)
  | object entries ih => exact hobject entries ih hdistinct
  | record handle entries ih => exact hobject entries ih (keysDistinct_record.mp hdistinct)

end Tree

namespace Listing

variable {path : String} {node tree : Tree} {listing before middle after : Listing}

/-- Nulls are not listed, and neither are records that have been. -/
def skips (listing : Listing) (node : Tree) : Bool := node.isNull || node.handle?.any listing.seen.contains

/-- A node is listed; a record counts as met. -/
def enter (listing : Listing) (path : String) (node : Tree) : Listing :=
  { listing.add path node with seen := node.handle?.toList ++ listing.seen }

/-- Lists the children of a node one after another. -/
def collectFields (path : String) (fields : List (Step × Tree)) (listing : Listing) : Listing :=
  fields.foldl (fun listing field => collect (childPath path field.1.text) field.2 listing) listing

theorem collect_of_skips (hskips : listing.skips node = true) : collect path node listing = listing := by
  cases node with
  | null => rfl
  | record handle entries =>
      have hseen : listing.seen.contains handle = true := by simpa [skips, Tree.handle?, Tree.isNull] using hskips
      rw [collect, if_pos hseen]
  | _ => cases hskips

theorem collectItems_eq_collectFields (items : List Tree) (position : Nat) (listing : Listing) :
    collectItems path position items listing =
      collectFields path ((items.zipIdx position).map fun item => (.position item.2, item.1)) listing := by
  induction items generalizing position listing with
  | nil => rfl
  | cons item items ih =>
      rw [collectItems, ih, List.zipIdx_cons]
      rfl

theorem collectEntries_eq_collectFields (entries : Entries Tree) (listing : Listing) :
    collectEntries path entries listing = collectFields path (Tree.steps (.object entries)) listing := by
  induction entries generalizing listing with
  | nil => rfl
  | cons entry entries ih =>
      rw [collectEntries, ih]
      rfl

theorem collect_of_not_skips (hskips : listing.skips node = false) :
    collect path node listing = collectFields path node.fields (listing.enter path node) := by
  cases node with
  | null => cases hskips
  | array items =>
      rw [collect, collectItems_eq_collectFields]
      rfl
  | object entries =>
      rw [collect, collectEntries_eq_collectFields]
      rfl
  | record handle entries =>
      have hseen : listing.seen.contains handle = false := by simpa [skips, Tree.handle?, Tree.isNull] using hskips
      rw [collect, hseen, if_neg Bool.false_ne_true, collectEntries_eq_collectFields]
      rfl
  | _ => rfl

theorem seen_subset_collectFields {fields : List (Step × Tree)}
    (hfields : ∀ field ∈ fields, ∀ path listing, listing.seen ⊆ (collect path field.2 listing).seen) (listing : Listing) :
    listing.seen ⊆ (collectFields path fields listing).seen := by
  induction fields generalizing listing with
  | nil => exact List.Subset.refl _
  | cons field fields ih =>
      obtain ⟨hfield, hothers⟩ := List.forall_mem_cons.mp hfields
      exact List.Subset.trans (hfield _ _) (ih hothers _)

/-- What has been met stays met. -/
theorem seen_subset_collect (path : String) (tree : Tree) (listing : Listing) :
    listing.seen ⊆ (collect path tree listing).seen := by
  induction tree using Tree.fields_induction generalizing path listing with
  | node tree ih =>
      cases hskips : listing.skips tree with
      | true =>
          rw [collect_of_skips hskips]
          exact List.Subset.refl _
      | false =>
          have henter : listing.seen ⊆ (listing.enter path tree).seen := List.subset_append_right _ _
          rw [collect_of_not_skips hskips]
          exact List.Subset.trans henter (seen_subset_collectFields ih _)

/-! ### What is listed -/

/-- Some of the nodes that are there, in their order, have been listed in addition, and the records among them met. -/
def Picks (path : String) (there : List (Address × Tree)) (before after : Listing) : Prop :=
  ∃ picked : List (Address × Tree), (picked.map fun slot => (slot.1, slot.2.flat)).Sublist there ∧
    after.nodes = Entries.insertAll before.nodes (picked.map fun slot => (Address.textBelow path slot.1, slot.2)) ∧
    after.seen = (picked.filterMap fun slot => slot.2.handle?).reverse ++ before.seen

variable {there others : List (Address × Tree)}

theorem Picks.nothing : Picks path there listing listing := ⟨[], List.nil_sublist _, rfl, rfl⟩

theorem Picks.append (hfirst : Picks path there before middle) (hthen : Picks path others middle after) :
    Picks path (there ++ others) before after := by
  obtain ⟨picked, hpicked, hnodes, hseen⟩ := hfirst
  obtain ⟨more, hmore, hnodes', hseen'⟩ := hthen
  refine ⟨picked ++ more, ?_, ?_, ?_⟩
  · rw [List.map_append]
    exact hpicked.append hmore
  · rw [hnodes', hnodes, List.map_append, Entries.insertAll, Entries.insertAll, Entries.insertAll, List.foldl_append]
  · rw [hseen', hseen, List.filterMap_append, List.reverse_append, List.append_assoc]

theorem Picks.inside {step : Step} (hpicks : Picks (childPath path step.text) there before after) :
    Picks path (there.map (Tree.inside step)) before after := by
  obtain ⟨picked, hpicked, hnodes, hseen⟩ := hpicks
  refine ⟨picked.map (Tree.inside step), ?_, ?_, ?_⟩
  · rw [List.map_map]
    have hmap := hpicked.map (Tree.inside step)
    rwa [List.map_map] at hmap
  · rw [hnodes, List.map_map]
    rfl
  · rw [hseen, List.filterMap_map]
    rfl

theorem Picks.enter (path : String) (node : Tree) (listing : Listing) :
    Picks path [([], node.flat)] listing (listing.enter path node) := by
  refine ⟨[([], node)], List.Sublist.refl _, rfl, ?_⟩
  rw [Listing.enter]
  cases hhandle : node.handle? <;> simp [hhandle]

theorem picks_collectFields {fields : List (Step × Tree)}
    (hfields : ∀ field ∈ fields, ∀ path listing, Picks path field.2.flat.nodes listing (collect path field.2 listing))
    (listing : Listing) :
    Picks path (fields.flatMap fun field => (field.2.flat.nodes).map (Tree.inside field.1)) listing
      (collectFields path fields listing) := by
  induction fields generalizing listing with
  | nil => exact .nothing
  | cons field fields ih =>
      obtain ⟨hfield, hothers⟩ := List.forall_mem_cons.mp hfields
      rw [List.flatMap_cons]
      exact (hfield _ listing).inside.append (ih hothers _)

theorem picks_collect (path : String) (tree : Tree) (listing : Listing) :
    Picks path tree.flat.nodes listing (collect path tree listing) := by
  induction tree using Tree.fields_induction generalizing path listing with
  | node tree ih =>
      cases hskips : listing.skips tree with
      | true =>
          rw [collect_of_skips hskips]
          exact .nothing
      | false =>
          have hnull : tree.flat.isNull = false := by
            rw [Tree.isNull_flat]
            exact (Bool.or_eq_false_iff.mp hskips).1
          rw [collect_of_not_skips hskips, Tree.nodes_eq hnull, Tree.steps_flat, List.flatMap_map]
          exact (Picks.enter path tree listing).append (picks_collectFields ih _)

end Listing

/-! ### Traversals -/

/-- A node with the present entries if it is a record. -/
def Store.fill (store : Store) : Tree → Tree
  | .record handle _ => .record handle (store.get handle).entries
  | node => node

/-- A listing under way: the nodes that are still to come, with their paths, and what has been listed. -/
structure Traversal where
  pending : List (String × Tree)
  listing : Listing

namespace Traversal

/-- The paths and nodes that the fields of a node stand for. -/
def branches (path : String) (fields : List (Step × Tree)) : List (String × Tree) :=
  fields.map fun field => (Listing.childPath path field.1.text, field.2)

/-- Passes over the next node, or lists it and goes on with its children. -/
def next (store : Store) : Traversal → Option Traversal
  | ⟨[], _⟩ => none
  | ⟨(path, node) :: pending, listing⟩ =>
    if listing.skips node then some ⟨pending, listing⟩
    else some ⟨branches path (store.fill node).fields ++ pending, listing.enter path node.bare⟩

/-- Some steps lead from one state to another. -/
def Runs (store : Store) : Traversal → Traversal → Prop :=
  Relation.ReflTransGen fun before after => before.next store = some after

end Traversal

/-- The records of the store that have not been met. -/
def Store.unmet (store : Store) (seen : List Nat) : Finset Nat :=
  (Finset.range store.records.length).filter (· ∉ seen)

namespace Store

variable {store : Store} {seen seen' : List Nat} {handle depth : Nat}

theorem card_unmet_le (hsubset : seen ⊆ seen') : (store.unmet seen').card ≤ (store.unmet seen).card := by
  refine Finset.card_le_card fun handle hmem => ?_
  obtain ⟨hknown, hunmet⟩ := Finset.mem_filter.mp hmem
  exact Finset.mem_filter.mpr ⟨hknown, fun hseen => hunmet (hsubset hseen)⟩

theorem card_unmet_lt (hknown : handle < store.records.length) (hunmet : handle ∉ seen) :
    (store.unmet (handle :: seen)).card < (store.unmet seen).card := by
  refine Finset.card_lt_card (Finset.ssubset_iff_of_subset ?_ |>.mpr ⟨handle, ?_, ?_⟩)
  · intro other hmem
    obtain ⟨hother, hnot⟩ := Finset.mem_filter.mp hmem
    exact Finset.mem_filter.mpr ⟨hother, fun hseen => hnot (List.mem_cons_of_mem _ hseen)⟩
  · exact Finset.mem_filter.mpr ⟨Finset.mem_range.mpr hknown, hunmet⟩
  · exact fun hmem => (Finset.mem_filter.mp hmem).2 List.mem_cons_self

theorem entries_get_of_le (hunknown : store.records.length ≤ handle) : (store.get handle).entries = [] := by
  rw [get, List.getElem?_eq_none hunknown]
  rfl

theorem look_of_le (hunknown : store.records.length ≤ handle) (depth : Nat) : store.look depth handle = [] := by
  cases depth with
  | zero => rfl
  | succ depth =>
      rw [look, entries_get_of_le hunknown]
      rfl

end Store

namespace Listing

/-- The listing with bare nodes. -/
def bare (listing : Listing) : Listing :=
  { listing with nodes := listing.nodes.map fun entry => (entry.1, entry.2.bare) }

theorem skips_showRecords (look : Nat → Entries Tree) (listing : Listing) (node : Tree) :
    listing.skips (node.showRecords look) = listing.skips node := by
  rw [skips, skips, Tree.isNull_showRecords, Tree.handle?_showRecords]

theorem bare_enter (listing : Listing) (path : String) (node : Tree) :
    (listing.enter path node).bare = listing.bare.enter path node.bare := by
  simp only [bare, enter, add, Entries.map_insert, Tree.bare, Tree.handle?_showRecords]

end Listing

namespace Traversal

variable {store : Store} {path : String} {node : Tree} {pending : List (String × Tree)} {listing : Listing} {depth : Nat}

theorem runs_of_skips (hskips : listing.skips node = true) :
    Runs store ⟨(path, node) :: pending, listing⟩ ⟨pending, listing⟩ := by
  refine .single ?_
  rw [next, if_pos hskips]

theorem runs_of_not_skips (hskips : listing.skips node = false) :
    Runs store ⟨(path, node) :: pending, listing⟩
      ⟨branches path (store.fill node).fields ++ pending, listing.enter path node.bare⟩ := by
  refine .single ?_
  rw [next, hskips, if_neg Bool.false_ne_true]

/-- A run that lists what listing the node gives, if its records are shown to a depth. -/
def Lists (store : Store) (depth : Nat) (node : Tree) : Prop :=
  ∀ path pending listing, (store.unmet listing.seen).card ≤ depth →
    Runs store ⟨(path, node) :: pending, listing.bare⟩
      ⟨pending, (Listing.collect path (node.showRecords (store.look depth)) listing).bare⟩

theorem runs_branches {fields : List (Step × Tree)} (hfields : ∀ field ∈ fields, Lists store depth field.2)
    (hunmet : (store.unmet listing.seen).card ≤ depth) :
    Runs store ⟨branches path fields ++ pending, listing.bare⟩
      ⟨pending, (Listing.collectFields path
        (fields.map fun field => (field.1, field.2.showRecords (store.look depth))) listing).bare⟩ := by
  induction fields generalizing listing with
  | nil => exact .refl
  | cons field fields ih =>
      obtain ⟨hfield, hothers⟩ := List.forall_mem_cons.mp hfields
      have hseen := Listing.seen_subset_collect (Listing.childPath path field.1.text)
        (field.2.showRecords (store.look depth)) listing
      exact (hfield _ _ _ hunmet).trans (ih hothers (Nat.le_trans (Store.card_unmet_le hseen) hunmet))

theorem lists_of_fields (depth' : Nat) (hshown : (node.showRecords (store.look depth)).fields =
      (store.fill node).fields.map fun field => (field.1, field.2.showRecords (store.look depth')))
    (hfields : ∀ field ∈ (store.fill node).fields, Lists store depth' field.2)
    (hdepth : (store.unmet (node.handle?.toList ++ listing.seen)).card ≤ depth')
    (hskips : listing.skips node = false) :
    Runs store ⟨(path, node) :: pending, listing.bare⟩
      ⟨pending, (Listing.collect path (node.showRecords (store.look depth)) listing).bare⟩ := by
  have hskips' : listing.skips (node.showRecords (store.look depth)) = false := by
    rwa [Listing.skips_showRecords]
  have hseen : (listing.enter path (node.showRecords (store.look depth))).seen =
      node.handle?.toList ++ listing.seen := by
    rw [Listing.enter, Tree.handle?_showRecords]
  have hbare : listing.bare.enter path node.bare =
      (listing.enter path (node.showRecords (store.look depth))).bare := by
    rw [Listing.bare_enter, Tree.bare_showRecords]
  have henter : Runs store ⟨(path, node) :: pending, listing.bare⟩
      ⟨branches path (store.fill node).fields ++ pending, listing.bare.enter path node.bare⟩ :=
    runs_of_not_skips hskips
  rw [hbare] at henter
  rw [Listing.collect_of_not_skips hskips', hshown]
  exact henter.trans (runs_branches hfields (by rwa [hseen]))

theorem steps_showRecords (look : Nat → Entries Tree) (tree : Tree) :
    (tree.showRecords look).steps = tree.steps.map fun field => (field.1, field.2.showRecords look) := by
  cases tree with
  | array items =>
      rw [Tree.showRecords, Tree.showItems_eq_map, Tree.steps, Tree.steps, List.zipIdx_map, List.map_map, List.map_map]
      rfl
  | object entries =>
      rw [Tree.showRecords, Tree.showEntries_eq_map, Tree.steps, Tree.steps, List.map_map, List.map_map]
      rfl
  | _ => rfl

theorem fields_showRecords (store : Store) (look : Nat → Entries Tree) {tree : Tree} (hhandle : tree.handle? = none) :
    (tree.showRecords look).fields = (store.fill tree).fields.map fun field => (field.1, field.2.showRecords look) := by
  cases tree with
  | array items => exact steps_showRecords look (.array items)
  | object entries => exact steps_showRecords look (.object entries)
  | record handle entries => cases hhandle
  | _ => rfl

theorem lists_record (handle : Nat) (entries : Entries Tree)
    (ih : ∀ smaller < depth, ∀ node, Lists store smaller node) : Lists store depth (.record handle entries) := by
  intro path pending listing hunmet
  cases hskips : listing.skips (.record handle entries) with
  | true =>
      rw [Listing.collect_of_skips (by rwa [Listing.skips_showRecords])]
      exact runs_of_skips hskips
  | false =>
      have hunseen : handle ∉ listing.seen := by
        simpa [Listing.skips, Tree.handle?, Tree.isNull] using hskips
      rcases Nat.lt_or_ge handle store.records.length with hknown | hunknown
      · -- A record of the store that is entered is one less to be met, and its entries are shown one level less deep.
        have hless : (store.unmet (handle :: listing.seen)).card < (store.unmet listing.seen).card :=
          Store.card_unmet_lt hknown hunseen
        obtain ⟨smaller, rfl⟩ := exists_eq_succ_of_lt (Nat.lt_of_lt_of_le hless hunmet)
        refine lists_of_fields smaller ?_ (fun field _ => ih smaller (Nat.lt_succ_self _) field.2) ?_ hskips
        · exact steps_showRecords (store.look smaller) (.object (store.get handle).entries)
        · exact Nat.le_of_lt_succ (Nat.lt_of_lt_of_le hless hunmet)
      · have hnone : (store.fill (.record handle entries)).fields = [] := by
          rw [Store.fill, Store.entries_get_of_le hunknown]
          rfl
        have hseen : listing.seen ⊆ (Tree.record handle entries).handle?.toList ++ listing.seen :=
          List.subset_append_right _ _
        refine lists_of_fields depth ?_ ?_ (Nat.le_trans (Store.card_unmet_le hseen) hunmet) hskips
        · rw [hnone, Tree.showRecords, Store.look_of_le hunknown]
          rfl
        · rw [hnone]
          exact List.forall_mem_nil _

theorem lists (store : Store) (depth : Nat) (node : Tree) : Lists store depth node := by
  induction depth using Nat.strong_induction_on generalizing node with
  | h depth ihDepth =>
      induction node using Tree.fields_induction with
      | node node ih =>
          cases node with
          | record handle entries => exact lists_record handle entries ihDepth
          | null => exact fun path pending listing _ => runs_of_skips rfl
          | _ =>
              intro path pending listing hunmet
              exact lists_of_fields depth (fields_showRecords store _ rfl) ih hunmet rfl

/-! ### Records that are met -/

/-- The record has been met, or one of the nodes to come holds a handle to it. -/
def Awaits (traversal : Traversal) (handle : Nat) : Prop :=
  handle ∈ traversal.listing.seen ∨ ∃ branch ∈ traversal.pending, handle ∈ branch.2.handles

/-- No record has been met twice, and those that the met ones have handles to have been met or will be. -/
structure Covers (store : Store) (traversal : Traversal) : Prop where
  nodup : traversal.listing.seen.Nodup
  links : ∀ handle ∈ traversal.listing.seen, ∀ other, store.Links handle other → traversal.Awaits other

variable {before after : Traversal} {handle : Nat}

theorem exists_branch (path : String) {tree : Tree} (hhandle : tree.handle? = none) (hmem : handle ∈ tree.handles) :
    ∃ branch ∈ branches path tree.steps, handle ∈ branch.2.handles := by
  obtain ⟨field, hfield, hhandles⟩ : ∃ field ∈ tree.steps, handle ∈ field.2.handles := by
    cases tree with
    | array items =>
        rw [Tree.handles_array] at hmem
        obtain ⟨item, hitem, hhandles⟩ := List.mem_flatMap.mp hmem
        obtain ⟨position, hposition⟩ := List.mem_iff_getElem?.mp hitem
        have hzip : (item, position) ∈ items.zipIdx := List.mem_zipIdx_iff_getElem?.mpr hposition
        exact ⟨_, List.mem_map_of_mem hzip, hhandles⟩
    | object entries =>
        rw [Tree.handles_object] at hmem
        obtain ⟨entry, hentry, hhandles⟩ := List.mem_flatMap.mp hmem
        exact ⟨_, List.mem_map_of_mem hentry, hhandles⟩
    | record handle entries => cases hhandle
    | _ => cases hmem
  exact ⟨_, List.mem_map_of_mem hfield, hhandles⟩

theorem awaits_next (hnext : before.next store = some after) (hawaits : before.Awaits handle) : after.Awaits handle := by
  obtain ⟨_ | ⟨⟨path, node⟩, pending⟩, listing⟩ := before
  · cases hnext
  rw [next] at hnext
  split at hnext
  · next hskips =>
      cases hnext
      rcases hawaits with hseen | ⟨branch, hbranch, hhandle⟩
      · exact .inl hseen
      rcases List.mem_cons.mp hbranch with rfl | hpending
      · -- A record that is passed over has been met.
        cases node with
        | null => cases hhandle
        | record other entries =>
            obtain rfl := List.mem_singleton.mp hhandle
            exact .inl (by simpa [Listing.skips, Tree.isNull, Tree.handle?] using hskips)
        | _ => cases hskips
      · exact .inr ⟨branch, hpending, hhandle⟩
  · cases hnext
    rcases hawaits with hseen | ⟨branch, hbranch, hhandle⟩
    · exact .inl (List.mem_append_right _ hseen)
    rcases List.mem_cons.mp hbranch with rfl | hpending
    · cases node with
      | record other entries =>
          obtain rfl := List.mem_singleton.mp hhandle
          exact .inl List.mem_cons_self
      | array items =>
          obtain ⟨branch, hbranch, hbelow⟩ := exists_branch path rfl hhandle
          exact .inr ⟨branch, List.mem_append_left _ hbranch, hbelow⟩
      | object entries =>
          obtain ⟨branch, hbranch, hbelow⟩ := exists_branch path rfl hhandle
          exact .inr ⟨branch, List.mem_append_left _ hbranch, hbelow⟩
      | _ => cases hhandle
    · exact .inr ⟨branch, List.mem_append_right _ hpending, hhandle⟩

theorem covers_next (hnext : before.next store = some after) (hcovers : before.Covers store) : after.Covers store := by
  have hbefore : ∀ handle ∈ before.listing.seen, ∀ other, store.Links handle other → after.Awaits other :=
    fun handle hmem other hlinks => awaits_next hnext (hcovers.links handle hmem other hlinks)
  obtain ⟨_ | ⟨⟨path, node⟩, pending⟩, listing⟩ := before
  · cases hnext
  rw [next] at hnext
  split at hnext
  · cases hnext
    exact ⟨hcovers.nodup, hbefore⟩
  · next hskips =>
      cases hnext
      cases node with
      | record handle entries =>
          have hunseen : handle ∉ listing.seen := by
            simpa [Listing.skips, Tree.handle?, Tree.isNull] using hskips
          refine ⟨List.nodup_cons.mpr ⟨hunseen, hcovers.nodup⟩, fun met hmem other hlinks => ?_⟩
          rcases List.mem_cons.mp hmem with rfl | hseen
          · have hother : other ∈ (Tree.object (store.get met).entries).handles := by
              rw [Tree.handles_object]
              exact List.mem_flatMap.mpr hlinks
            obtain ⟨branch, hbranch, hbelow⟩ := exists_branch path rfl hother
            exact .inr ⟨branch, List.mem_append_left _ hbranch, hbelow⟩
          · exact hbefore met hseen other hlinks
      | _ => exact ⟨hcovers.nodup, hbefore⟩

/-- What is covered at the start of a run is covered at its end. -/
theorem covers_of_runs (hruns : Runs store before after) (hcovers : before.Covers store) : after.Covers store := by
  induction hruns with
  | refl => exact hcovers
  | tail _ hnext ih => exact covers_next hnext ih

theorem awaits_of_runs (hruns : Runs store before after) (hawaits : before.Awaits handle) : after.Awaits handle := by
  induction hruns with
  | refl => exact hawaits
  | tail _ hnext ih => exact awaits_next hnext ih

/-- A run to the end meets every record that the tree leads to, once. -/
theorem count_seen_of_runs {tree : Tree} {listing : Listing}
    (hruns : Runs store ⟨[(path, tree)], ⟨[], []⟩⟩ ⟨[], listing⟩) (hreaches : store.Reaches tree handle) :
    listing.seen.count handle = 1 := by
  have hcovers : Covers store ⟨[], listing⟩ :=
    covers_of_runs hruns ⟨List.nodup_nil, fun _ hmem => absurd hmem List.not_mem_nil⟩
  have hmet : ∀ {other}, Awaits ⟨[], listing⟩ other → other ∈ listing.seen := by
    rintro other (hseen | ⟨branch, hbranch, -⟩)
    · exact hseen
    · cases hbranch
  obtain ⟨first, hfirst, hlinks⟩ := hreaches
  have hseen : handle ∈ listing.seen := by
    induction hlinks with
    | refl => exact hmet (awaits_of_runs hruns (.inr ⟨_, List.mem_singleton.mpr rfl, hfirst⟩))
    | tail _ hlink ih => exact hmet (hcovers.links _ ih _ hlink)
  exact List.count_eq_one_of_mem hcovers.nodup hseen

end Traversal

/-! ### Listings of snapshots -/

namespace Tree

variable {tree : Tree}

theorem not_hidesRoot_flat (hempty : "" ∉ tree.ownEntries.keys) : ¬tree.flat.HidesRoot := by
  rintro ⟨child, hchild, -⟩
  cases tree with
  | object entries =>
      refine hempty ?_
      rw [ownEntries, ← keys_flatEntries]
      exact List.mem_map_of_mem (Entries.mem_of_find? hchild)
  | record handle entries =>
      refine hempty ?_
      rw [ownEntries, ← keys_flatEntries]
      exact List.mem_map_of_mem (Entries.mem_of_find? hchild)
  | _ => cases hchild

/-- In a listing there are as many entries of a record as it was met. -/
theorem countP_listing (hdistinct : tree.keysDistinct = true) (hempty : "" ∉ tree.ownEntries.keys) (handle : Nat) :
    (tree.listing.countP fun entry => entry.2.handle? == some handle) =
      (Listing.collect "/" tree ⟨[], []⟩).seen.count handle := by
  obtain ⟨picked, hpicked, hnodes, hseen⟩ := Listing.picks_collect "/" tree ⟨[], []⟩
  have htexts : (Entries.keys (picked.map fun slot => (slot.1.text, slot.2))).Nodup := by
    have hsublist := hpicked.map fun slot => slot.1.text
    have hnodup := nodup_texts (keysDistinct_flat hdistinct) (not_hidesRoot_flat hempty)
    rw [namedNodes, Entries.keys, List.map_map] at hnodup
    rw [List.map_map] at hsublist
    rw [Entries.keys, List.map_map]
    exact hnodup.sublist hsublist
  have hlisting : tree.listing = picked.map fun slot => (slot.1.text, slot.2) := by
    rw [listing, hnodes]
    exact Entries.ofList_of_nodup htexts
  rw [hlisting, hseen, List.append_nil, List.count_reverse, List.count_filterMap, List.countP_map]
  rfl

end Tree

namespace Store

/-- **Listings end on cycles and list each record once.** However records hold handles to each other, the traversal of
a tree comes to an end, with the listing of the tree's snapshot, in which every record that the tree leads to is the
value of exactly one entry. -/
theorem listing_records (store : Store) (root : Tree) (hdistinct : (store.snapshot root).keysDistinct = true)
    (hempty : "" ∉ (store.snapshot root).ownEntries.keys) :
    ∃ listing, Traversal.Runs store ⟨[("/", root)], ⟨[], []⟩⟩ ⟨[], listing⟩ ∧
      listing.nodes = (store.snapshot root).listing.map (fun entry => (entry.1, entry.2.bare)) ∧
      ∀ handle, store.Reaches root handle →
        ((store.snapshot root).listing.countP fun entry => entry.2.handle? == some handle) = 1 := by
  have hunmet : (store.unmet []).card ≤ store.records.length := by
    rw [unmet]
    exact Nat.le_trans (Finset.card_filter_le _ _) (Nat.le_of_eq (Finset.card_range _))
  have hruns := Traversal.lists store store.records.length root "/" [] ⟨[], []⟩ hunmet
  refine ⟨_, hruns, rfl, fun handle hreaches => ?_⟩
  have hcount := Traversal.count_seen_of_runs hruns hreaches
  rw [Tree.countP_listing hdistinct hempty]
  exact hcount

/-- Two records that hold handles to themselves and to each other. -/
theorem listing_records_circle :
    let store : Store := ⟨[⟨[("self", .record 0 []), ("others", .array [.record 1 [], .null, .record 0 []])], false⟩,
      ⟨[("back", .object [("", .record 0 [])])], true⟩]⟩
    let root : Tree := .array [.record 1 [], .record 1 []]
    (∃ listing, Traversal.Runs store ⟨[("/", root)], ⟨[], []⟩⟩ ⟨[], listing⟩) ∧
      (store.Reaches root 0 ∧
        ((store.snapshot root).listing.countP fun entry => entry.2.handle? == some 0) = 1) ∧
      Entries.keys (store.snapshot root).listing = ["/", "/0", "/0/back", "/0/back/", "/0/back//others"] := by
  intro store root
  obtain ⟨listing, hruns, -, honce⟩ := listing_records store root (by decide) (by decide)
  have hreaches : store.Reaches root 0 :=
    ⟨1, by decide, .single ⟨("back", .object [("", .record 0 [])]), List.mem_singleton.mpr rfl, by decide⟩⟩
  exact ⟨⟨listing, hruns⟩, ⟨hreaches, honce 0 hreaches⟩, by decide⟩

end Store

end TreeQuery
