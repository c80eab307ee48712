import Mathlib.Data.List.Perm.Subperm
import TreeQuery.Proofs.Edit.Obstacles
import TreeQuery.Proofs.Edit.Commuting
import TreeQuery.Proofs.Query.Records

/-!
# Assigning through shared records

A property of a record is fetched, edited on its own and written back, while the records further down are changed in
place. Writing back would undo the change of a record further down if that were the same record. Where no record is
reachable from its own fields this does not happen: an assignment changes the records on its way and nothing else, and
whoever has a handle to one of them sees the new value.
-/

namespace TreeQuery

/-! ### Records that are written -/

theorem Entries.keys_insert_of_contains {α : Type} {entries : Entries α} {name : String}
    (hcontains : entries.contains name = true) (value : α) : (insert name value entries).keys = entries.keys := by
  obtain ⟨old, hfind⟩ := Option.isSome_iff_exists.mp hcontains
  have hmem : name ∈ entries.keys := List.mem_map_of_mem (mem_of_find? hfind)
  have hlength : entries.keys.length = (insert name value entries).keys.length := by
    rw [keys, keys, List.length_map, List.length_map, length_insert_of_mem hmem]
  exact ((keys_prefix_insert name value entries).eq_of_length hlength).symm

theorem Record.set?_eq_some {record record' : Record} {name : String} {value : Tree}
    (hset : record.set? name value = some record') :
    record' = { record with entries := Entries.insert name value record.entries } ∧
      (record.fixed = true → record'.names = record.names) := by
  rw [set?] at hset
  split at hset
  · cases hset
  · next hopen =>
      obtain rfl := Option.some.inj hset
      refine ⟨rfl, fun hfixed => ?_⟩
      have hcontains : Entries.contains record.entries name = true := by
        simpa [hfixed] using hopen
      exact Entries.keys_insert_of_contains hcontains value

namespace Store

variable {store s t : Store} {handle other : Nat} {record : Record}

theorem get_put_self (hstored : handle < store.records.length) : (store.put handle record).get handle = record := by
  rw [get, put, List.getElem?_set_self hstored, Option.getD_some]

theorem get_put_of_ne (hne : other ≠ handle) : (store.put handle record).get other = store.get other := by
  rw [get, put, List.getElem?_set_ne (Ne.symm hne), get]

theorem put_get (store : Store) (handle : Nat) : store.put handle (store.get handle) = store := by
  rw [put, get]
  rcases Nat.lt_or_ge handle store.records.length with hlt | hge
  · rw [List.getElem?_eq_getElem hlt, Option.getD_some, List.set_getElem_self]
  · rw [List.set_eq_of_length_le hge]

/-- The same records with other contents; those of a fixed record have the same names. -/
structure Refills (store s : Store) : Prop where
  length : s.records.length = store.records.length
  fixed : ∀ handle, (s.get handle).fixed = (store.get handle).fixed
  names : ∀ handle, (store.get handle).fixed = true → (s.get handle).names = (store.get handle).names

theorem Refills.refl (store : Store) : store.Refills store := ⟨rfl, fun _ => rfl, fun _ _ => rfl⟩

theorem Refills.trans (hfirst : store.Refills s) (hsecond : s.Refills t) : store.Refills t where
  length := hsecond.length.trans hfirst.length
  fixed handle := (hsecond.fixed handle).trans (hfirst.fixed handle)
  names handle hfixed := (hsecond.names handle ((hfirst.fixed handle).trans hfixed)).trans (hfirst.names handle hfixed)

theorem refills_put {name : String} {value : Tree} (hstored : handle < store.records.length)
    (hset : (store.get handle).set? name value = some record) : store.Refills (store.put handle record) := by
  obtain ⟨hrecord, hnames⟩ := Record.set?_eq_some hset
  refine ⟨List.length_set, fun other => ?_, fun other hfixed => ?_⟩
  · rcases Decidable.em (other = handle) with rfl | hne
    · rw [get_put_self hstored, hrecord]
    · rw [get_put_of_ne hne]
  · rcases Decidable.em (other = handle) with rfl | hne
    · rw [get_put_self hstored, hnames hfixed]
    · rw [get_put_of_ne hne]

end Store

/-! ### Edits along names -/

/-- Between two stores a value came to where names lead. The records that changed are those of the chain, which the
tree had led to before. -/
structure Store.Writes (store s : Store) (names : List String) (tree tree' value : Tree) (chain : List Nat) : Prop where
  leads : s.Leads names tree' chain value
  reached : ∀ handle ∈ chain, store.Reaches tree handle
  nodup : chain.Nodup
  frame : ∀ handle, handle ∉ chain → s.get handle = store.get handle
  refills : store.Refills s

namespace Edit

variable {edit inner : Edit Tree} {name : String} {names : List String} {value tree' : Tree}
  {store s : Store} {entries shown : Entries Tree} {handle : Nat}

/-- In an object or a record the edit puts a new value under a name, made from the old one. In a scalar it changes
nothing. -/
structure PutsUnder (edit : Edit Tree) (name : String) (inner : Edit Tree) : Prop where
  object : edit.Inserts name inner
  record : ∀ handle shown store, edit (.record handle shown) store =
    (recordProperty handle name inner store).map fun _ => .record handle shown
  scalar : ∀ tree store, tree.isScalar = true → (edit tree store).changed ≠ .ok true

/-- Where the edit reports a change, it has written the value where the names lead. -/
def WritesAlong (edit : Edit Tree) (names : List String) (value : Tree) : Prop :=
  ∀ ⦃tree store tree' s⦄, edit tree store = ⟨tree', s, .ok true⟩ → store.neverMaps names tree = true →
    store.Hierarchy tree → ∃ chain, store.Writes s names tree tree' value chain

theorem recordProperty_eq_ok (hedit : recordProperty handle name inner store = ⟨(), s, .ok true⟩) :
    ∃ child t record, inner ((store.get handle).get name) store = ⟨child, t, .ok true⟩ ∧
      (t.get handle).set? name child = some record ∧ s = t.put handle record := by
  rcases hinner : inner ((store.get handle).get name) store with ⟨child, t, changed⟩
  simp only [recordProperty, hinner] at hedit
  rcases changed with fault | _ | _
  · cases hedit
  · cases hedit
  · cases hset : (t.get handle).set? name child with
    | none =>
        rw [hset] at hedit
        cases hedit
    | some record =>
        rw [hset] at hedit
        cases hedit
        exact ⟨child, t, record, rfl, hset, rfl⟩

theorem writesAlong_replace (value : Tree) : (replace value).WritesAlong [] value := by
  intro tree store tree' s hedit _ _
  cases hedit
  exact ⟨[], .here value, List.forall_mem_nil _, List.nodup_nil, fun _ _ => rfl, .refl store⟩

/-- What the names lead to below an entry, they lead to below the object. -/
theorem PutsUnder.writesAlong_object (hedit : edit.PutsUnder name inner) (hinner : inner.WritesAlong names value)
    (hassign : edit (.object entries) store = ⟨tree', s, .ok true⟩)
    (hnever : store.neverMaps (name :: names) (.object entries) = true) (hroot : store.Hierarchy (.object entries)) :
    ∃ chain, store.Writes s (name :: names) (.object entries) tree' value chain := by
  rw [hedit.object] at hassign
  obtain ⟨child', hchild', rfl⟩ := Change.map_eq_ok hassign
  have hbelow : ∀ handle, store.Reaches ((store.child? name (.object entries)).getD .null) handle →
      store.Reaches (.object entries) handle := fun _ => Store.reaches_of_getD
  obtain ⟨chain, hwrites⟩ := hinner hchild' (Store.neverMaps_getD hnever) (hroot.mono hbelow)
  exact ⟨chain, .entry (Entries.find?_insert_self name child' entries) hwrites.leads,
    fun handle hmem => hbelow handle (hwrites.reached handle hmem), hwrites.nodup, hwrites.frame, hwrites.refills⟩

/-- The property is written back on top of the changes below the record, none of which concerned it. -/
theorem PutsUnder.writesAlong_record (hedit : edit.PutsUnder name inner) (hinner : inner.WritesAlong names value)
    (hassign : edit (.record handle shown) store = ⟨tree', s, .ok true⟩)
    (hnever : store.neverMaps (name :: names) (.record handle shown) = true)
    (hroot : store.Hierarchy (.record handle shown)) :
    ∃ chain, store.Writes s (name :: names) (.record handle shown) tree' value chain := by
  rw [hedit.record] at hassign
  obtain ⟨_, hproperty, rfl⟩ := Change.map_eq_ok hassign
  obtain ⟨child', t, record, hchild', hset, rfl⟩ := recordProperty_eq_ok hproperty
  have hbelow : ∀ other, store.Reaches ((store.child? name (.record handle shown)).getD .null) other →
      store.Reaches (.record handle shown) other := fun _ => Store.reaches_of_getD
  obtain ⟨chain, hwrites⟩ := hinner hchild' (Store.neverMaps_getD hnever) (hroot.mono hbelow)
  have hhandle : handle ∉ chain := fun hmem => hroot.not_reaches_getD (hwrites.reached handle hmem)
  have hstored : handle < t.records.length := by
    rw [hwrites.refills.length]
    exact hroot.stored handle (Store.reaches_record.mpr .refl)
  have hself : ((t.put handle record).get handle).find? name = some child' := by
    rw [Store.get_put_self hstored, (Record.set?_eq_some hset).1]
    exact Entries.find?_insert_self name child' _
  have hothers : ∀ other ∈ chain, (t.put handle record).get other = t.get other := fun other hmem =>
    Store.get_put_of_ne fun heq => hhandle (heq ▸ hmem)
  exact ⟨handle :: chain, {
    leads := .field hself (hwrites.leads.congr hothers)
    reached := List.forall_mem_cons.mpr ⟨Store.reaches_record.mpr .refl, fun other hmem =>
      hbelow other (hwrites.reached other hmem)⟩
    nodup := List.nodup_cons.mpr ⟨hhandle, hwrites.nodup⟩
    frame := fun other hmem => by
      obtain ⟨hne, hmem⟩ := not_or.mp (mt List.mem_cons.mpr hmem)
      rw [Store.get_put_of_ne hne, hwrites.frame other hmem]
    refills := hwrites.refills.trans (Store.refills_put hstored hset) }⟩

theorem PutsUnder.writesAlong (hedit : edit.PutsUnder name inner) (hinner : inner.WritesAlong names value) :
    edit.WritesAlong (name :: names) value := by
  intro tree store tree' s hassign hnever hroot
  cases tree with
  | array items => cases hnever
  | object entries => exact hedit.writesAlong_object hinner hassign hnever hroot
  | record handle shown => exact hedit.writesAlong_record hinner hassign hnever hroot
  | _ => exact absurd (congrArg Change.changed hassign) (hedit.scalar _ store rfl)

/-- An object that is built in the place of null leads to no records. -/
theorem WritesAlong.enter (hedit : edit.WritesAlong names value) :
    WritesAlong (Walk.enter (some (.object [])) edit) names value := by
  intro tree store tree' s hassign hnever hroot
  rw [Walk.enter] at hassign
  cases hnull : tree.isNull with
  | false =>
      rw [hnull, if_neg Bool.false_ne_true] at hassign
      exact hedit hassign hnever hroot
  | true =>
      rw [hnull, if_pos rfl, Option.getD_some] at hassign
      have hempty : ∀ handle, ¬ store.Reaches (.object []) handle := by
        rintro handle ⟨first, hfirst, -⟩
        cases hfirst
      have hnever' : store.neverMaps names (.object []) = true := by cases names <;> rfl
      have hobject : store.Hierarchy (.object []) := hroot.mono fun handle hreaches => absurd hreaches (hempty handle)
      obtain ⟨chain, hwrites⟩ := hedit hassign hnever' hobject
      exact ⟨chain, { hwrites with reached := fun handle hmem => absurd (hwrites.reached handle hmem) (hempty handle) }⟩

end Edit

namespace Walk

variable {walk : Walk} {value tree tree' found : Tree} {store s : Store} {shown : Entries Tree} {handle : Nat}
  {above names : List String} {chain : List Nat}

/-- What an assignment does to the value of its first property. -/
def assignBelow (walk : Walk) (value : Tree) : List String → Edit Tree
  | [] => Edit.replace value
  | name :: names => enter (some (.object [])) (walk.assign value (Segment.ofNames (name :: names)))

theorem putsUnder_assign (hbuilding : walk.building = .containers) (value : Tree) (name : String)
    (names : List String) :
    Edit.PutsUnder (walk.assign value (Segment.ofNames (name :: names))) name (walk.assignBelow value names) := by
  cases names with
  | nil =>
      refine ⟨fun _ _ => rfl, fun _ _ _ => rfl, fun tree store hscalar => ?_⟩
      cases tree with
      | array items => cases hscalar
      | object entries => cases hscalar
      | record handle shown => cases hscalar
      | _ =>
          intro hchanged
          cases hchanged
  | cons next names =>
      have hstep : walk.assign value (Segment.ofNames (name :: next :: names)) =
          Edit.throughArrays (atProperty (some (.object [])) name
            (walk.assign value (Segment.ofNames (next :: names)))) := by
        rw [Segment.ofNames_cons, assign_cons walk value rfl, step, container?_eq hbuilding rfl]
        rfl
      rw [hstep]
      refine ⟨fun entries store => atProperty_object _ name _ entries store, fun _ _ _ => rfl,
        fun tree store hscalar => ?_⟩
      cases tree with
      | array items => cases hscalar
      | object entries => cases hscalar
      | record handle shown => cases hscalar
      | _ =>
          intro hchanged
          cases hchanged

theorem writesAlong_assignBelow (hbuilding : walk.building = .containers) (value : Tree) (names : List String) :
    (walk.assignBelow value names).WritesAlong names value := by
  induction names with
  | nil => exact Edit.writesAlong_replace value
  | cons name names ih => exact ((putsUnder_assign hbuilding value name names).writesAlong ih).enter

/-- An assignment writes along its names. -/
theorem writesAlong_assign (hbuilding : walk.building = .containers) (value : Tree) (hnames : names ≠ []) :
    (walk.assign value (Segment.ofNames names)).WritesAlong names value := by
  cases names with
  | nil => exact absurd rfl hnames
  | cons name names =>
      exact (putsUnder_assign hbuilding value name names).writesAlong (writesAlong_assignBelow hbuilding value names)

theorem assignBelow_eq (walk : Walk) (value : Tree) (hnames : names ≠ []) (hpresent : tree.isNull = false)
    (store : Store) : walk.assignBelow value names tree store = walk.assign value (Segment.ofNames names) tree store := by
  cases names with
  | nil => exact absurd rfl hnames
  | cons name names => exact Edit.enter_eq _ hpresent store

/-- The records above another one are written back as they were. -/
theorem assign_of_leads (hbuilding : walk.building = .containers) (hleads : store.Leads above tree chain found)
    (hfound : found = .record handle shown) (hnames : names ≠ []) (hroot : store.Hierarchy tree)
    (hnever : store.neverMaps (above ++ names) tree = true)
    (hassign : walk.assign value (Segment.ofNames (above ++ names)) tree store = ⟨tree', s, .ok true⟩) :
    tree' = tree ∧ walk.assign value (Segment.ofNames names) found store = ⟨found, s, .ok true⟩ := by
  have hbelow : ∀ above : List String, above ++ names ≠ [] := fun _ => List.append_ne_nil_of_right_ne_nil _ hnames
  induction hleads generalizing tree' s with
  | here tree =>
      subst hfound
      obtain ⟨name, names, rfl⟩ := List.exists_cons_of_ne_nil hnames
      rw [List.nil_append] at hassign
      have hresult := hassign
      rw [(putsUnder_assign hbuilding value name names).record] at hresult
      obtain ⟨_, -, rfl⟩ := Change.map_eq_ok hresult
      exact ⟨rfl, hassign⟩
  | @entry name above entries chain child found hfind hleads ih =>
      have hpresent : child.isNull = false := hleads.isNull_eq_false (hfound ▸ rfl)
      rw [List.cons_append, (putsUnder_assign hbuilding value name _).object, hfind, Option.getD_some,
        assignBelow_eq walk value (hbelow above) hpresent] at hassign
      obtain ⟨child', hchild', rfl⟩ := Change.map_eq_ok hassign
      obtain ⟨rfl, hwritten⟩ := ih hfound (hroot.of_child? hfind)
        (Store.neverMaps_of_child? hnever hfind) hchild'
      exact ⟨congrArg Tree.object (Entries.insert_of_find? hfind), hwritten⟩
  | @field name above top view chain child found hfind hleads ih =>
      have hpresent : child.isNull = false := hleads.isNull_eq_false (hfound ▸ rfl)
      have hget : (store.get top).get name = child := by rw [Record.get, hfind, Option.getD_some]
      rw [List.cons_append, (putsUnder_assign hbuilding value name _).record] at hassign
      obtain ⟨_, hproperty, rfl⟩ := Change.map_eq_ok hassign
      obtain ⟨child', t, record, hchild', hset, rfl⟩ := Edit.recordProperty_eq_ok hproperty
      rw [hget, assignBelow_eq walk value (hbelow above) hpresent] at hchild'
      have hchildRoot : store.Hierarchy child := hroot.of_child? hfind
      have hchildNever : store.neverMaps (above ++ names) child = true := Store.neverMaps_of_child? hnever hfind
      obtain ⟨rfl, hwritten⟩ := ih hfound hchildRoot hchildNever hchild'
      -- What is above the record is not below it, so that the field is written back to what it was fetched from.
      have hsame : t.get top = store.get top := by
        obtain ⟨chain', hwrites⟩ := writesAlong_assign hbuilding value hnames hwritten (hleads.neverMaps hchildNever)
          (hchildRoot.mono fun _ => hleads.reaches)
        exact hwrites.frame top fun hmem =>
          hroot.not_reaches_of_find? hfind (hleads.reaches (hwrites.reached top hmem))
      have hrecord : record = t.get top := by
        have hentries : Entries.find? (store.get top).entries name = some child' := hfind
        rw [(Record.set?_eq_some hset).1, hsame, Entries.insert_of_find? hentries]
      rw [hrecord, Store.put_get]
      exact ⟨rfl, hwritten⟩

end Walk

/-! ### What handles see -/

section Seeing

variable {store s : Store} {above names : List String} {chain chain' : List Nat} {handle : Nat} {shown : Entries Tree}
  {root value : Tree}

/-- What was written below a record is found along every way to it: none of the records above it was changed. -/
theorem Store.Writes.leads_append {view : Entries Tree}
    (hwrites : store.Writes s names (.record handle shown) (.record handle shown) value chain')
    (hnames : names ≠ []) (hroot : store.Hierarchy root)
    (habove : store.Leads above root chain (.record handle view)) :
    s.Leads (above ++ names) root (chain ++ chain') value ∧ (chain ++ chain').length ≤ s.records.length := by
  have hreached : ∀ other ∈ chain', store.Reaches (.record handle view) other := fun other hmem =>
    reaches_record.mpr (reaches_record.mp (hwrites.reached other hmem))
  have hdisjoint : ∀ other ∈ chain, other ∉ chain' := fun other hmem hmem' =>
    hroot.acyclic other (habove.reaches_of_mem hmem) (habove.transGen_of_mem hmem (hreached other hmem'))
  have hkept : s.Leads above root chain (.record handle view) :=
    habove.congr fun other hmem => hwrites.frame other (hdisjoint other hmem)
  refine ⟨hkept.append (hwrites.leads.of_handle hnames view), ?_⟩
  have hnodup : (chain ++ chain').Nodup := List.nodup_append.mpr
    ⟨habove.nodup hroot, hwrites.nodup, fun other hmem _ hmem' heq => hdisjoint other hmem (heq ▸ hmem')⟩
  have hstored : ∀ other ∈ chain ++ chain', other ∈ List.range store.records.length := by
    intro other hmem
    rw [List.mem_range]
    rcases List.mem_append.mp hmem with hmem | hmem
    · exact hroot.stored other (habove.reaches_of_mem hmem)
    · exact hroot.stored other (habove.reaches (hreached other hmem))
  rw [hwrites.refills.length]
  simpa using (hnodup.subperm hstored).length_le

/-- **Writing through shared records is seen everywhere.** Where no record leads back to itself, a value that is assigned
below a record is found from there by every path that reached the record before. Fixed records keep their names. -/
theorem Path.eval_set_shared {path upper : Path} {above below : List String} {s : Store} {root' : Tree}
    (hroot : store.Hierarchy root) (hpath : path.segments = Segment.ofNames (above ++ below))
    (hupper : upper.segments = Segment.ofNames above)
    (hreached : upper.eval (store.snapshot root) = .ok (.record handle shown)) (hbelow : below ≠ [])
    (hsize : ∀ name, below.getLast? = some name → isSizeName name = false)
    (hnever : store.neverMaps (above ++ below) root = true)
    (hset : path.set value root store = ⟨root', s, .ok true⟩) :
    path.Finds s root' value ∧
      (∀ (path' upper' : Path) (above' : List String) (shown' : Entries Tree),
        path'.segments = Segment.ofNames (above' ++ below) → upper'.segments = Segment.ofNames above' →
        upper'.eval (store.snapshot root) = .ok (.record handle shown') → path'.Finds s root' value) ∧
      ∀ other, (store.get other).fixed = true → (s.get other).names = (store.get other).names := by
  obtain ⟨chain, entries, hleads⟩ := exists_leads_of_eval hupper hreached
  have hassign : Walk.assign ⟨.null, path.dropNulls, .containers⟩ value (Segment.ofNames (above ++ below)) root store =
      ⟨root', s, .ok true⟩ := by
    have hnonempty : path.segments ≠ [] := by
      rw [hpath]
      exact fun heq => hbelow (List.append_eq_nil_iff.mp (List.map_eq_nil_iff.mp heq)).2
    have hplain : ∀ segment ∈ path.segments, segment.isPlain = true := by
      rw [hpath]
      exact fun _ => Segment.isPlain_of_mem_ofNames
    rw [← hset, set_eq_assign hnonempty hplain (hleads.isNull_eq_false rfl), hpath]
  obtain ⟨rfl, hwritten⟩ := Walk.assign_of_leads rfl hleads rfl hbelow hroot hnever hassign
  obtain ⟨chain', hwrites⟩ := Walk.writesAlong_assign rfl value hbelow hwritten (hleads.neverMaps hnever)
    (hroot.mono fun _ => hleads.reaches)
  have hseen : ∀ (path' upper' : Path) (above' : List String) (shown' : Entries Tree),
      path'.segments = Segment.ofNames (above' ++ below) → upper'.segments = Segment.ofNames above' →
      upper'.eval (store.snapshot root') = .ok (.record handle shown') → path'.Finds s root' value := by
    intro path' upper' above' shown' hpath' hupper' hreached'
    obtain ⟨chain, view, hleads'⟩ := exists_leads_of_eval hupper' hreached'
    obtain ⟨hfound, hlength⟩ := Store.Writes.leads_append hwrites hbelow hroot hleads'
    refine finds_of_leads hpath' hfound hlength fun name hlast hname => ?_
    rw [List.getLast?_append_of_ne_nil _ hbelow] at hlast
    rw [hsize name hlast] at hname
    cases hname
  exact ⟨hseen path upper above shown hpath hupper hreached, hseen, hwrites.refills.names⟩

/-- A nested record takes a handle to the one above it, and the way by the other handle sees it. -/
theorem Path.eval_set_shared_circle :
    let store : Store := ⟨[⟨[("next", .record 1 [])], false⟩, ⟨[("size", .null), ("deep", .record 2 [])], true⟩,
      ⟨[], false⟩]⟩
    let root : Tree := .object [("a", .record 0 []), ("b", .object [("length", .record 1 [])])]
    let path := Path.mk "$.a.next.deep.k.m" (Segment.ofNames ["a", "next", "deep", "k", "m"]) false true
    let change := path.set (.record 0 []) root store
    (store.Hierarchy root ∧ store.neverMaps ["a", "next", "deep", "k", "m"] root = true ∧ change.changed = .ok true) ∧
      path.Finds change.store change.result (.record 0 []) ∧
      Path.Finds (.mk "$.b.length.deep.k.m" (Segment.ofNames ["b", "length", "deep", "k", "m"]) false false)
        change.store change.result (.record 0 []) ∧
      (change.store.get 1).names = ["size", "deep"] := by
  intro store root path change
  have hlinks : ∀ handle other, store.Links handle other → handle < other ∧ other < 3 := by
    rintro handle other ⟨entry, hentry, hother⟩
    rcases handle with _ | _ | _ | handle
    · obtain rfl := List.mem_singleton.mp hentry
      obtain rfl := List.mem_singleton.mp hother
      decide
    · rcases List.mem_pair.mp hentry with rfl | rfl
      · cases hother
      · obtain rfl := List.mem_singleton.mp hother
        decide
    · cases hentry
    · cases hentry
  have hroot : store.Hierarchy root := by
    constructor
    · rintro handle ⟨first, hfirst, hreaches⟩
      cases hreaches with
      | refl =>
          have hhandles : ∀ first ∈ root.handles, first < 3 := by decide
          exact hhandles _ hfirst
      | tail _ hlink => exact (hlinks _ _ hlink).2
    · intro handle _ hcircle
      have hlt : handle < handle :=
        Relation.transGen_minimal (fun first other hlink => (hlinks first other hlink).1) handle handle hcircle
      exact Nat.lt_irrefl handle hlt
  have hpath : path.segments = Segment.ofNames (["a", "next"] ++ ["deep", "k", "m"]) := rfl
  have hreached : Path.eval (.mk "$.a.next" (Segment.ofNames ["a", "next"]) false true) (store.snapshot root) =
      .ok (.record 1 [("size", .null), ("deep", .record 2 [])]) := rfl
  have hset : path.set (.record 0 []) root store = ⟨change.result, change.store, .ok true⟩ := rfl
  obtain ⟨hfinds, hothers, hnames⟩ := eval_set_shared hroot hpath rfl hreached (by decide) (by decide) rfl hset
  refine ⟨⟨hroot, rfl, rfl⟩, hfinds, ?_, hnames 1 rfl⟩
  exact hothers _ (.mk "$.b.length" (Segment.ofNames ["b", "length"]) false false) ["b", "length"] _ rfl rfl rfl

end Seeing

end TreeQuery
