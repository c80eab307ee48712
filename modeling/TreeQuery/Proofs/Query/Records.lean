import TreeQuery.Proofs.Path.Spelling
import TreeQuery.Proofs.Query.Properties
import TreeQuery.Proofs.Tree.Sharing

/-!
# Names that lead through records

The properties of a record are those in the store, whatever the handles to it show. So names lead from a tree through
a chain of records, and a change of other records is no concern of theirs. On a snapshot, evaluation finds what they
lead to, as no chain of distinct records is longer than the store.
-/

namespace TreeQuery

/-! ### Readings that are no records -/

namespace Tree

variable {dropNulls : Bool} {tree : Tree}

theorem readAll_ne_record (hrecordFree : tree.recordFree = true) (names : List String) (handle : Nat)
    (shown : Entries Tree) : tree.readAll dropNulls names ≠ record handle shown := by
  intro hrecord
  have hfree : (tree.readAll dropNulls names).recordFree = true := recordFree_readAll hrecordFree
  rw [hrecord] at hfree
  cases hfree

/-- What names lead to a record from is not missing. -/
theorem exists_of_readAll_getD {found : Option Tree} {f : Tree → Tree} {names : List String} {handle : Nat}
    {shown : Entries Tree} (hread : ((found.map f).getD null).readAll dropNulls names = record handle shown) :
    ∃ child, found = some child ∧ (f child).readAll dropNulls names = record handle shown := by
  cases found with
  | none => exact absurd hread (readAll_ne_record rfl names handle shown)
  | some child => exact ⟨child, rfl, hread⟩

/-- What is collected over an array is no record, even if the array holds records. -/
theorem readAll_array_ne_record (items : List Tree) (names : List String) (handle : Nat) (shown : Entries Tree) :
    (array items).readAll dropNulls names ≠ record handle shown := by
  induction names generalizing items with
  | nil => exact Tree.noConfusion
  | cons name names ih =>
      rw [readAll]
      cases hname : isSizeName name with
      | true =>
          rw [property_array_size hname]
          exact readAll_ne_record rfl names handle shown
      | false =>
          rw [property_array hname]
          exact ih _

end Tree

/-! ### Properties of objects -/

namespace Entries

variable {entries : Entries Tree} {name : String}

theorem property_eq (entries : Entries Tree) (name : String) :
    entries.property name = (entries.find? name).getD .null ∨ entries.property name = .integer entries.length := by
  rw [property]
  split
  · exact .inr rfl
  · exact .inl rfl

theorem property_of_find? {found : Tree} (hfind : entries.find? name = some found)
    (hsize : isSizeName name = true → found.isNull = false) : entries.property name = found := by
  rw [property, hfind, Option.getD_some, if_neg]
  rw [Bool.and_eq_true]
  rintro ⟨hnull, hname⟩
  rw [hsize hname] at hnull
  cases hnull

end Entries

/-! ### Chains of records -/

namespace Store

/-- What a tree holds under a name; records hold what the store has for them. -/
def child? (store : Store) (name : String) : Tree → Option Tree
  | .object entries => Entries.find? entries name
  | .record handle _ => (store.get handle).find? name
  | _ => none

/-- On the way along names, as far as it leads, no property is read from an array. -/
def neverMaps (store : Store) : List String → Tree → Bool
  | [], _ => true
  | name :: names, tree => !tree.isArray && (store.child? name tree).all (store.neverMaps names)

/-- Names lead from a tree to what they find, through a chain of records. -/
inductive Leads (store : Store) : List String → Tree → List Nat → Tree → Prop
  | here (tree : Tree) : Leads store [] tree [] tree
  | entry {name : String} {names : List String} {entries : Entries Tree} {chain : List Nat} {child found : Tree}
      (hfind : Entries.find? entries name = some child) (hbelow : Leads store names child chain found) :
      Leads store (name :: names) (.object entries) chain found
  | field {name : String} {names : List String} {handle : Nat} {shown : Entries Tree} {chain : List Nat}
      {child found : Tree} (hfind : (store.get handle).find? name = some child)
      (hbelow : Leads store names child chain found) :
      Leads store (name :: names) (.record handle shown) (handle :: chain) found

/-- All records that a tree leads to are in the store, and none of them leads to itself. -/
structure Hierarchy (store : Store) (tree : Tree) : Prop where
  stored : ∀ handle, store.Reaches tree handle → handle < store.records.length
  acyclic : ∀ handle, store.Reaches tree handle → ¬ Relation.TransGen store.Links handle handle

variable {store s : Store} {names names' : List String} {name : String} {tree child middle found : Tree}
  {chain chain' : List Nat} {entries shown : Entries Tree} {handle other : Nat}

theorem reaches_record : store.Reaches (.record handle shown) other ↔ Relation.ReflTransGen store.Links handle other := by
  simp [Reaches, Tree.handles]

theorem transGen_of_find? (hfind : (store.get handle).find? name = some child) (hreaches : store.Reaches child other) :
    Relation.TransGen store.Links handle other := by
  obtain ⟨first, hfirst, hlinks⟩ := hreaches
  exact .head' ⟨_, Entries.mem_of_find? hfind, hfirst⟩ hlinks

theorem reaches_of_child? (hchild : store.child? name tree = some child) (hreaches : store.Reaches child other) :
    store.Reaches tree other := by
  cases tree with
  | object entries =>
      obtain ⟨first, hfirst, hlinks⟩ := hreaches
      rw [Reaches, Tree.handles_object]
      exact ⟨first, List.mem_flatMap.mpr ⟨_, Entries.mem_of_find? hchild, hfirst⟩, hlinks⟩
  | record handle shown => exact reaches_record.mpr (transGen_of_find? hchild hreaches).to_reflTransGen
  | _ => cases hchild

theorem neverMaps_getD (hnever : store.neverMaps (name :: names) tree = true) :
    store.neverMaps names ((store.child? name tree).getD .null) = true := by
  rw [neverMaps, Bool.and_eq_true] at hnever
  cases hchild : store.child? name tree with
  | none => cases names <;> rfl
  | some child =>
      rw [hchild] at hnever
      exact hnever.2

theorem neverMaps_of_child? (hnever : store.neverMaps (name :: names) tree = true)
    (hchild : store.child? name tree = some child) : store.neverMaps names child = true := by
  have hbelow := neverMaps_getD hnever
  rwa [hchild] at hbelow

theorem Hierarchy.mono (htree : store.Hierarchy tree)
    (hbelow : ∀ handle, store.Reaches child handle → store.Reaches tree handle) : store.Hierarchy child where
  stored handle hreaches := htree.stored handle (hbelow handle hreaches)
  acyclic handle hreaches := htree.acyclic handle (hbelow handle hreaches)

theorem Hierarchy.of_child? (htree : store.Hierarchy tree) (hchild : store.child? name tree = some child) :
    store.Hierarchy child := htree.mono fun _ => reaches_of_child? hchild

theorem not_reaches_null : ¬ store.Reaches .null other := by
  rintro ⟨first, hfirst, -⟩
  cases hfirst

theorem reaches_of_getD (hreaches : store.Reaches ((store.child? name tree).getD .null) other) :
    store.Reaches tree other := by
  cases hchild : store.child? name tree with
  | none => exact absurd (hchild ▸ hreaches) not_reaches_null
  | some child => exact reaches_of_child? hchild (by rwa [hchild] at hreaches)

/-- No record can be reached from its own fields. -/
theorem Hierarchy.not_reaches_of_find? (htree : store.Hierarchy (.record handle shown))
    (hfind : (store.get handle).find? name = some child) : ¬ store.Reaches child handle := fun hreaches =>
  htree.acyclic handle (reaches_record.mpr .refl) (transGen_of_find? hfind hreaches)

theorem Hierarchy.not_reaches_getD (htree : store.Hierarchy (.record handle shown)) :
    ¬ store.Reaches ((store.child? name (.record handle shown)).getD .null) handle := by
  cases hchild : store.child? name (.record handle shown) with
  | none => exact not_reaches_null
  | some child => exact htree.not_reaches_of_find? hchild

namespace Leads

theorem append (habove : store.Leads names tree chain middle) (hbelow : store.Leads names' middle chain' found) :
    store.Leads (names ++ names') tree (chain ++ chain') found := by
  induction habove with
  | here tree => exact hbelow
  | entry hfind _ ih => exact .entry hfind (ih hbelow)
  | field hfind _ ih => exact .field hfind (ih hbelow)

/-- The way is open as long as the records of the chain stay the same. -/
theorem congr (hleads : store.Leads names tree chain found) (hsame : ∀ handle ∈ chain, s.get handle = store.get handle) :
    s.Leads names tree chain found := by
  induction hleads with
  | here tree => exact .here tree
  | entry hfind _ ih => exact .entry hfind (ih hsame)
  | field hfind _ ih =>
      obtain ⟨hhandle, hchain⟩ := List.forall_mem_cons.mp hsame
      exact .field (hhandle ▸ hfind) (ih hchain)

/-- It does not matter what a handle shows. -/
theorem of_handle (hleads : store.Leads names (.record handle shown) chain found) (hnames : names ≠ [])
    (entries : Entries Tree) : store.Leads names (.record handle entries) chain found := by
  cases hleads with
  | here => exact absurd rfl hnames
  | field hfind hbelow => exact .field hfind hbelow

theorem reaches_of_mem (hleads : store.Leads names tree chain found) (hmem : handle ∈ chain) :
    store.Reaches tree handle := by
  induction hleads with
  | here => cases hmem
  | entry hfind _ ih => exact reaches_of_child? hfind (ih hmem)
  | field hfind _ ih =>
      rcases List.mem_cons.mp hmem with rfl | hmem
      · exact reaches_record.mpr .refl
      · exact reaches_of_child? hfind (ih hmem)

theorem reaches (hleads : store.Leads names tree chain found) (hreaches : store.Reaches found other) :
    store.Reaches tree other := by
  induction hleads with
  | here => exact hreaches
  | entry hfind _ ih => exact reaches_of_child? hfind (ih hreaches)
  | field hfind _ ih => exact reaches_of_child? hfind (ih hreaches)

/-- Every record of the chain leads on to what lies behind it. -/
theorem transGen_of_mem (hleads : store.Leads names tree chain found) (hmem : handle ∈ chain)
    (hreaches : store.Reaches found other) : Relation.TransGen store.Links handle other := by
  induction hleads with
  | here => cases hmem
  | entry _ _ ih => exact ih hmem hreaches
  | field hfind hbelow ih =>
      rcases List.mem_cons.mp hmem with rfl | hmem
      · exact transGen_of_find? hfind (hbelow.reaches hreaches)
      · exact ih hmem hreaches

theorem neverMaps (hleads : store.Leads names tree chain found)
    (hnever : store.neverMaps (names ++ names') tree = true) : store.neverMaps names' found = true := by
  induction hleads with
  | here => exact hnever
  | entry hfind _ ih => exact ih (neverMaps_of_child? hnever hfind)
  | field hfind _ ih => exact ih (neverMaps_of_child? hnever hfind)

theorem nodup (hleads : store.Leads names tree chain found) (htree : store.Hierarchy tree) : chain.Nodup := by
  induction hleads with
  | here => exact List.nodup_nil
  | entry hfind _ ih => exact ih (htree.of_child? hfind)
  | field hfind hbelow ih =>
      exact List.nodup_cons.mpr ⟨fun hmem => htree.not_reaches_of_find? hfind (hbelow.reaches_of_mem hmem),
        ih (htree.of_child? hfind)⟩

/-! ### Snapshots -/

theorem isNull_eq_false (hleads : store.Leads names tree chain found) (hpresent : found.isNull = false) :
    tree.isNull = false := by
  cases hleads with
  | here => exact hpresent
  | entry => rfl
  | field => rfl

variable {dropNulls : Bool}

/-- Names find what they lead to, in trees that show as many records as there are in the chain. -/
theorem readAll_showRecords (hleads : store.Leads names tree chain found)
    (hsize : ∀ name, names.getLast? = some name → isSizeName name = true → found.isNull = false) (depth : Nat) :
    (tree.showRecords (store.look (chain.length + depth))).readAll dropNulls names =
      found.showRecords (store.look depth) := by
  induction hleads with
  | here tree => rw [List.length_nil, Nat.zero_add, Tree.readAll]
  | @entry name names entries chain child found hfind hbelow ih =>
      have hchild : isSizeName name = true → (child.showRecords (store.look (chain.length + depth))).isNull = false := by
        intro hname
        rw [Tree.isNull_showRecords]
        cases hbelow with
        | here => exact hsize name rfl hname
        | entry => rfl
        | field => rfl
      have hshown : Entries.find? (Tree.showEntries (store.look (chain.length + depth)) entries) name =
          some (child.showRecords (store.look (chain.length + depth))) := by
        rw [Tree.showEntries_eq_map, Entries.find?_map, hfind, Option.map_some]
      rw [Tree.readAll, Tree.showRecords, Tree.property, Entries.property_of_find? hshown hchild]
      exact ih fun other hlast => hsize other (by rw [List.getLast?_cons, hlast, Option.getD_some])
  | @field name names handle shown chain child found hfind hbelow ih =>
      have hlook : store.look ((handle :: chain).length + depth) handle =
          Tree.showEntries (store.look (chain.length + depth)) (store.get handle).entries := by
        rw [List.length_cons, Nat.add_right_comm, look]
      have hfind' : Entries.find? (store.get handle).entries name = some child := hfind
      rw [Tree.readAll, Tree.showRecords, hlook, Tree.showEntries_eq_map, Tree.property, Entries.find?_map, hfind',
        Option.map_some, Option.getD_some]
      exact ih fun other hlast => hsize other (by rw [List.getLast?_cons, hlast, Option.getD_some])

end Leads

/-- Names that find a record in a snapshot lead to it through a chain. -/
theorem exists_leads_of_readAll {dropNulls : Bool} {depth : Nat}
    (hread : (tree.showRecords (store.look depth)).readAll dropNulls names = .record handle shown) :
    ∃ chain entries, store.Leads names tree chain (.record handle entries) := by
  induction names generalizing tree depth with
  | nil =>
      cases tree with
      | record other entries =>
          cases hread
          exact ⟨[], entries, .here _⟩
      | _ => cases hread
  | cons name names ih =>
      cases tree with
      | object entries =>
          rw [Tree.showRecords, Tree.showEntries_eq_map, Tree.readAll, Tree.property] at hread
          rcases Entries.property_eq (entries.map fun entry => (entry.1, entry.2.showRecords (store.look depth))) name
            with hproperty | hsize
          · rw [hproperty, Entries.find?_map] at hread
            obtain ⟨child, hfind, hread⟩ := Tree.exists_of_readAll_getD hread
            obtain ⟨chain, found, hbelow⟩ := ih hread
            exact ⟨chain, found, .entry hfind hbelow⟩
          · rw [hsize] at hread
            exact absurd hread (Tree.readAll_ne_record rfl _ _ _)
      | record other entries =>
          cases depth with
          | zero =>
              have hnull : Tree.null.readAll dropNulls names = .record handle shown := hread
              exact absurd hnull (Tree.readAll_ne_record rfl names handle shown)
          | succ depth =>
              rw [Tree.showRecords, look, Tree.showEntries_eq_map, Tree.readAll, Tree.property, Entries.find?_map] at hread
              obtain ⟨child, hfind, hread⟩ := Tree.exists_of_readAll_getD hread
              obtain ⟨chain, found, hbelow⟩ := ih hread
              exact ⟨other :: chain, found, .field hfind hbelow⟩
      | array items => exact absurd hread (Tree.readAll_array_ne_record _ _ _ _)
      | _ => exact absurd hread (Tree.readAll_ne_record rfl _ _ _)

end Store

namespace Path

/-- The path evaluates to a value, whatever the handles in it show. -/
def Finds (path : Path) (store : Store) (root value : Tree) : Prop :=
  ∃ found, path.eval (store.snapshot root) = .ok found ∧ found.bare = value.bare

variable {path : Path} {names : List String} {store : Store} {root found : Tree} {chain : List Nat} {handle : Nat}
  {shown : Entries Tree}

theorem eval_ofNames (hpath : path.segments = Segment.ofNames names) (root : Tree) :
    path.eval root = .ok (root.readAll path.dropNulls names) := by
  rw [eval, hpath, Segment.applyAll_ofNames]

/-- A snapshot shows enough records for a chain that is no longer than the store. -/
theorem finds_of_leads (hpath : path.segments = Segment.ofNames names)
    (hleads : store.Leads names root chain found) (hlength : chain.length ≤ store.records.length)
    (hsize : ∀ name, names.getLast? = some name → isSizeName name = true → found.isNull = false) :
    path.Finds store root found := by
  refine ⟨_, eval_ofNames hpath _, ?_⟩
  rw [Store.snapshot, ← Nat.add_sub_cancel' hlength, hleads.readAll_showRecords hsize, Tree.bare_showRecords]

theorem exists_leads_of_eval (hpath : path.segments = Segment.ofNames names)
    (heval : path.eval (store.snapshot root) = .ok (.record handle shown)) :
    ∃ chain entries, store.Leads names root chain (.record handle entries) := by
  rw [eval_ofNames hpath] at heval
  exact Store.exists_leads_of_readAll (Except.ok.inj heval)

end Path

end TreeQuery
