import TreeQuery.Proofs.Edit.Assigning
import TreeQuery.Proofs.Tree.Address

/-!
# What an assignment leaves alone

A value that is assigned along a plain path goes to one address. What lies elsewhere is kept, the containers on
the way stay what they are, and nothing is added but the containers that were missing and the nulls that fill an
array up to an index.
-/

namespace TreeQuery

open TreeQuery.Tree

variable {value before after child : Tree} {place : Address}

/-- After a value was put at an address. -/
structure Assigned (place : Address) (value before after : Tree) : Prop where
  written : after.at? place = some value
  /-- Nodes that are neither above nor below the place are kept. -/
  kept : ∀ address node, ¬ place <+: address → ¬ address <+: place →
    before.at? address = some node → after.at? address = some node
  /-- On the way to the place only null becomes something else. -/
  kind : ∀ address node, address <+: place → address ≠ place → before.at? address = some node →
    ∃ node', after.at? address = some node' ∧ (node.isNull = false → node'.kindName = node.kindName)
  /-- Objects on the way keep their keys in order; a new one goes last. -/
  keys : ∀ address entries, address <+: place → address ≠ place → before.at? address = some (.object entries) →
    ∃ entries', after.at? address = some (.object entries') ∧ Entries.keys entries <+: Entries.keys entries'
  /-- What is new is a container on the way, or null in an array that was too short for a position. -/
  added : ∀ address node, ¬ place <+: address → before.at? address = none → after.at? address = some node →
    (address <+: place ∧ node.isScalar = false) ∨
      (node = .null ∧ ∃ parent index position, address = parent ++ [.position index] ∧
        parent ++ [.position position] <+: place ∧ index < position)

/-- Two nodes differ in the child at one step alone, and in nulls in front of it. -/
structure SameBut (step : Step) (before after : Tree) : Prop where
  kept : ∀ other child, other ≠ step → before.under? other = some child → after.under? other = some child
  kind : after.kindName = before.kindName
  keys : ∀ entries, before = .object entries →
    ∃ entries', after = .object entries' ∧ Entries.keys entries <+: Entries.keys entries'
  added : ∀ other child, other ≠ step → before.under? other = none → after.under? other = some child →
    child = .null ∧ ∃ index position, other = .position index ∧ step = .position position ∧ index < position

/-! ### From a child to its parent -/

section Below

variable {step : Step}

theorem Tree.at?_null_eq_some {address : Address} {node : Tree} (hnode : null.at? address = some node) :
    address = [] ∧ node = null := by
  cases address with
  | nil => exact ⟨rfl, (Option.some.inj hnode).symm⟩
  | cons step address =>
      obtain ⟨child, hchild, -⟩ := at?_cons_eq_some.mp hnode
      rw [under?_of_isScalar rfl] at hchild
      cases hchild

theorem Assigned.here (value before : Tree) : Assigned [] value before value where
  written := rfl
  kept _ _ hbelow _ _ := absurd List.nil_prefix hbelow
  kind _ _ habove hne _ := absurd (List.prefix_nil.mp habove) hne
  keys _ _ habove hne _ := absurd (List.prefix_nil.mp habove) hne
  added _ _ hbelow _ _ := absurd List.nil_prefix hbelow

/-- What holds of an empty container holds of the null in its place. -/
theorem Assigned.of_empty {built : Tree} (hassigned : Assigned place value built after)
    (hempty : ∀ step, built.under? step = none) : Assigned place value .null after where
  written := hassigned.written
  kept address node hbelow habove hnode := by
    obtain ⟨rfl, -⟩ := at?_null_eq_some hnode
    exact absurd List.nil_prefix habove
  kind address node _ _ hnode := by
    obtain ⟨rfl, rfl⟩ := at?_null_eq_some hnode
    exact ⟨after, rfl, fun hnull => by cases hnull⟩
  keys address entries _ _ hnode := by
    obtain ⟨-, hentries⟩ := at?_null_eq_some hnode
    cases hentries
  added address node hbelow hbefore hafter := by
    refine hassigned.added address node hbelow ?_ hafter
    cases address with
    | nil => cases hbefore
    | cons step address => rw [at?, hempty, Option.bind_none]

theorem Assigned.isScalar (hassigned : Assigned place value before after) (hplace : place ≠ []) :
    after.isScalar = false := by
  obtain ⟨step, below, rfl⟩ := List.exists_cons_of_ne_nil hplace
  obtain ⟨child, hchild, -⟩ := at?_cons_eq_some.mp hassigned.written
  exact isScalar_of_under? hchild

theorem Tree.at?_getD_null {address : Address} (hnode : before.at? (step :: address) = none)
    (hmissing : ¬(before.under? step = none ∧ address = [])) :
    ((before.under? step).getD null).at? address = none := by
  cases hunder : before.under? step with
  | some old => rwa [at?_cons hunder] at hnode
  | none =>
      cases address with
      | nil => exact absurd ⟨hunder, rfl⟩ hmissing
      | cons second address => rw [Option.getD_none, at?, under?_of_isScalar rfl, Option.bind_none]

theorem SameBut.added_at {other : Step} {address : Address} {node : Tree} (hsame : SameBut step before after)
    (hother : other ≠ step) (hbefore : before.at? (other :: address) = none)
    (hafter : after.at? (other :: address) = some node) :
    node = .null ∧ address = [] ∧
      ∃ index position, other = .position index ∧ step = .position position ∧ index < position := by
  obtain ⟨new, hnew, hafter⟩ := at?_cons_eq_some.mp hafter
  cases hunder : before.under? other with
  | some old =>
      obtain rfl : old = new := Option.some.inj ((hsame.kept other old hother hunder).symm.trans hnew)
      rw [at?_cons hunder, hafter] at hbefore
      cases hbefore
  | none =>
      obtain ⟨rfl, hpadding⟩ := hsame.added other new hother hunder hnew
      obtain ⟨rfl, rfl⟩ := at?_null_eq_some hafter
      exact ⟨rfl, rfl, hpadding⟩

/-- What is new below a child is new in the child, or is the child itself. A child that was missing counts as null, and
is built if the place lies below it. -/
theorem Assigned.added_below {address : Address} {node : Tree}
    (hassigned : Assigned place value ((before.under? step).getD .null) child) (hbelow : ¬ place <+: address)
    (hbefore : before.at? (step :: address) = none) (hafter : child.at? address = some node) :
    (step :: address <+: step :: place ∧ node.isScalar = false) ∨
      (node = .null ∧ ∃ parent index position, step :: address = parent ++ [.position index] ∧
        parent ++ [.position position] <+: step :: place ∧ index < position) := by
  by_cases hmissing : before.under? step = none ∧ address = []
  · obtain ⟨-, rfl⟩ := hmissing
    obtain rfl : child = node := Option.some.inj hafter
    have hplace : place ≠ [] := by
      rintro rfl
      exact hbelow List.nil_prefix
    exact .inl ⟨by simp, hassigned.isScalar hplace⟩
  · rcases hassigned.added address node hbelow (at?_getD_null hbefore hmissing) hafter with
      ⟨habove, hscalar⟩ | ⟨hnull, parent, index, position, rfl, habove, hlt⟩
    · exact .inl ⟨(List.prefix_cons_inj step).mpr habove, hscalar⟩
    · exact .inr ⟨hnull, step :: parent, index, position, rfl, (List.prefix_cons_inj step).mpr habove, hlt⟩

theorem Assigned.below (hsame : SameBut step before after) (hchild : after.under? step = some child)
    (hassigned : Assigned place value ((before.under? step).getD .null) child) :
    Assigned (step :: place) value before after where
  written := (at?_cons hchild).trans hassigned.written
  kept address node hbelow habove hnode := by
    cases address with
    | nil => exact absurd List.nil_prefix habove
    | cons first address =>
        obtain ⟨old, hold, hnode⟩ := at?_cons_eq_some.mp hnode
        by_cases hfirst : first = step
        · subst hfirst
          rw [hold, Option.getD_some] at hassigned
          rw [List.prefix_cons_inj] at hbelow habove
          exact (at?_cons hchild).trans (hassigned.kept address node hbelow habove hnode)
        · exact (at?_cons (hsame.kept first old hfirst hold)).trans hnode
  kind address node habove hne hnode := by
    cases address with
    | nil =>
        obtain rfl : before = node := Option.some.inj hnode
        exact ⟨after, rfl, fun _ => hsame.kind⟩
    | cons first address =>
        obtain ⟨rfl, hwithin⟩ := List.cons_prefix_cons.mp habove
        obtain ⟨old, hold, hnode⟩ := at?_cons_eq_some.mp hnode
        rw [hold, Option.getD_some] at hassigned
        rw [at?_cons hchild]
        exact hassigned.kind address node hwithin (fun heq => hne (congrArg _ heq)) hnode
  keys address entries habove hne hnode := by
    cases address with
    | nil =>
        obtain ⟨entries', rfl, hkeys⟩ := hsame.keys entries (Option.some.inj hnode)
        exact ⟨entries', rfl, hkeys⟩
    | cons first address =>
        obtain ⟨rfl, hwithin⟩ := List.cons_prefix_cons.mp habove
        obtain ⟨old, hold, hnode⟩ := at?_cons_eq_some.mp hnode
        rw [hold, Option.getD_some] at hassigned
        rw [at?_cons hchild]
        exact hassigned.keys address entries hwithin (fun heq => hne (congrArg _ heq)) hnode
  added address node hbelow hbefore hafter := by
    cases address with
    | nil => cases hbefore
    | cons first address =>
        by_cases hfirst : first = step
        · subst hfirst
          rw [at?_cons hchild] at hafter
          rw [List.prefix_cons_inj] at hbelow
          exact hassigned.added_below hbelow hbefore hafter
        · obtain ⟨hnull, rfl, index, position, rfl, rfl, hlt⟩ := hsame.added_at hfirst hbefore hafter
          exact .inr ⟨hnull, [], index, position, rfl, by simp, hlt⟩

end Below

/-! ### What single edits change -/

theorem sameBut_insert (name : String) (child : Tree) (entries : Entries Tree) :
    SameBut (.key name) (.object entries) (.object (Entries.insert name child entries)) where
  kept other old hother hold := by
    cases other with
    | key other =>
        have hne : other ≠ name := fun heq => hother (congrArg _ heq)
        exact (Entries.find?_insert_of_ne hne child entries).trans hold
    | position index => cases hold
  kind := rfl
  keys entries' hentries := by
    obtain rfl := Tree.object.inj hentries
    exact ⟨_, rfl, Entries.keys_prefix_insert name child entries⟩
  added other new hother hbefore hafter := by
    cases other with
    | key other =>
        have hne : other ≠ name := fun heq => hother (congrArg _ heq)
        have hsame : Entries.find? entries other = some new :=
          (Entries.find?_insert_of_ne hne child entries).symm.trans hafter
        have hmissing : Entries.find? entries other = none := hbefore
        rw [hsame] at hmissing
        cases hmissing
    | position index => cases hafter

theorem sameBut_set {items padded : List Tree} {position : Nat} (hpad : padTo items position = .ok padded)
    (child : Tree) : SameBut (.position position) (.array items) (.array (padded.set position child)) where
  kept other old hother hold := by
    cases other with
    | key other => cases hold
    | position index =>
        have hne : position ≠ index := fun heq => hother (congrArg _ heq.symm)
        exact (List.getElem?_set_ne hne).trans (getElem?_padTo hpad hold)
  kind := rfl
  keys entries hentries := by cases hentries
  added other new hother hbefore hafter := by
    cases other with
    | key other => cases hafter
    | position index =>
        have hne : position ≠ index := fun heq => hother (congrArg _ heq.symm)
        have hnew : padded[index]? = some new := (List.getElem?_set_ne hne).symm.trans hafter
        obtain ⟨hnull, hle⟩ := eq_null_of_padTo hpad hbefore hnew
        exact ⟨hnull, index, position, rfl, rfl, Nat.lt_of_le_of_ne hle hne.symm⟩

/-- A way to put a new child at a step of a node. -/
structure Rebuilds (step : Step) (tree : Tree) (rebuild : Tree → Tree) : Prop where
  child : ∀ new, (rebuild new).under? step = some new
  others : ∀ new, SameBut step tree (rebuild new)
  same : ∀ old, tree.under? step = some old → rebuild old = tree

section Single

variable {entries : Entries Tree} {items padded : List Tree} {edit : Edit Tree} {store : Store}

theorem rebuilds_insert (name : String) (entries : Entries Tree) :
    Rebuilds (.key name) (.object entries) fun child => .object (Entries.insert name child entries) where
  child new := Entries.find?_insert_self name new entries
  others new := sameBut_insert name new entries
  same _ hold := congrArg Tree.object (Entries.insert_of_find? hold)

theorem rebuilds_set {position : Nat} (hpad : padTo items position = .ok padded) :
    Rebuilds (.position position) (.array items) fun child => .array (padded.set position child) where
  child _ := List.getElem?_set_self (lt_length_of_padTo hpad)
  others new := sameBut_set hpad new
  same old hold := by
    obtain ⟨hlt, hitem⟩ := List.getElem?_eq_some_iff.mp hold
    rw [padTo_of_lt hlt] at hpad
    cases hpad
    rw [← hitem, List.set_getElem_self]

/-- A missing property is built as one that is null would be. -/
theorem Walk.atProperty_object (built : Tree) (name : String) (edit : Edit Tree) (entries : Entries Tree)
    (store : Store) :
    atProperty (some built) name edit (.object entries) store =
      (enter (some built) edit ((Entries.find? entries name).getD .null) store).map fun child =>
        .object (Entries.insert name child entries) := by
  cases hfind : Entries.find? entries name with
  | some child =>
      have hcontains : Entries.contains entries name = true := by rw [Entries.contains, hfind]; rfl
      rw [atProperty, if_pos hcontains, Edit.atKey_eq_insert _ store hfind]
      rfl
  | none =>
      have hcontains : ¬ Entries.contains entries name = true := by
        rw [Entries.contains, hfind]
        exact Bool.false_ne_true
      rw [atProperty, if_neg hcontains, Edit.atKey_eq_insert edit store (Entries.find?_insert_self name built entries)]
      simp only [Change.map, Entries.insert_insert]
      rfl

theorem Walk.atIndex_of_resolveIndex {index : Int} {position : Nat} {item : Tree}
    (hresolve : resolveIndex items.length index = some position) (hitem : items[position]? = some item) (built : Tree)
    (edit : Edit Tree) (store : Store) :
    atIndex (some built) index edit (.array items) store =
      (enter (some built) edit item store).map fun child => .array (items.set position child) := by
  simp only [atIndex, hresolve, Edit.atPosition_eq_set _ store hitem]
  rfl

/-- An index leads into an array, or is refused: it lies in front of the array, or too far past its end. -/
theorem Walk.atIndex_cases (built : Tree) (index : Int) (items : List Tree) :
    (∃ changed, changed ≠ .ok true ∧
      ∀ edit store, atIndex (some built) index edit (.array items) store = ⟨.array items, store, changed⟩) ∨
    ∃ padded, padTo items (arrayPosition items.length index) = .ok padded ∧
      resolveIndex padded.length index = some (arrayPosition items.length index) ∧
      ∀ edit store, atIndex (some built) index edit (.array items) store =
        (enter (some built) edit ((items[arrayPosition items.length index]?).getD .null) store).map
          fun child => .array (padded.set (arrayPosition items.length index) child) := by
  cases hresolve : resolveIndex items.length index with
  | some position =>
      have hlt := lt_of_resolveIndex hresolve
      have hitem := List.getElem?_eq_getElem hlt
      rw [arrayPosition_of_resolveIndex hresolve]
      refine .inr ⟨items, padTo_of_lt hlt, hresolve, fun edit store => ?_⟩
      rw [atIndex_of_resolveIndex hresolve hitem, hitem, Option.getD_some]
  | none =>
      simp only [atIndex, hresolve, Option.isSome_some, and_true]
      by_cases hnonneg : 0 ≤ index
      · have hle := length_le_of_resolveIndex_eq_none hnonneg hresolve
        have hmissing : items[index.toNat]? = none := List.getElem?_eq_none hle
        simp only [arrayPosition, if_pos hnonneg]
        cases hpad : padTo items index.toNat with
        | error fault => exact .inl ⟨.error fault, by simp, fun _ _ => rfl⟩
        | ok padded =>
            have hresolve' := resolveIndex_of_nonneg hnonneg (lt_length_of_padTo hpad)
            refine .inr ⟨padded, rfl, hresolve', fun edit store => ?_⟩
            simp only [hmissing, Edit.atPosition_eq_set _ store (getElem?_of_padTo hpad hle)]
            rfl
      · simp only [if_neg hnonneg]
        exact .inl ⟨.ok false, by simp, fun _ _ => rfl⟩

end Single

/-! ### Along a path -/

/-- The step that a plain segment takes from a node, or from the container that is built in its place. -/
def Segment.stepFrom : Segment → Tree → Step
  | .property name _, _ => .key name
  | .index number, .object _ => .key (toString number)
  | .index number, .array items => .position (arrayPosition items.length number)
  | .index number, _ => .position (arrayPosition 0 number)
  | _, _ => .position 0

/-- The address that plain segments lead to. What is missing on the way counts as null. -/
def Tree.addressOf : List Segment → Tree → Address
  | [], _ => []
  | segment :: segments, tree =>
    segment.stepFrom tree :: addressOf segments ((tree.under? (segment.stepFrom tree)).getD .null)

variable {segment next last : Segment} {segments : List Segment} {tree : Tree} {edit : Edit Tree} {store : Store}

/-- Where the edit reports a change, it puts the value at the address of the segments. -/
def Edit.Assigns (edit : Edit Tree) (segments : List Segment) (value : Tree) : Prop :=
  ∀ (tree : Tree) (store : Store), tree.recordFree = true → tree.neverMaps segments = true →
    (edit tree store).changed = .ok true →
      Assigned (tree.addressOf segments) value tree (edit tree store).result ∧ (edit tree store).store = store

/-- No segment leads on from a scalar. -/
theorem Walk.step_of_isScalar {walk : Walk} {following : Option Segment} (hplain : segment.isPlain = true)
    (hscalar : tree.isScalar = true) : walk.step following edit segment tree store = ⟨tree, store, .ok false⟩ := by
  rcases Segment.exists_of_isPlain hplain with ⟨name, rfl⟩ | ⟨index, rfl⟩ <;>
    cases tree <;> first | rfl | cases hscalar

/-- One step of a walk goes on in the child that the segment leads to, or refuses and leaves the node alone. -/
theorem Walk.step_cases {walk : Walk} (hcontainer : walk.container? (some next) = some next.container)
    (hplain : segment.isPlain = true) (hrecordFree : tree.recordFree = true) (hmaps : tree.maps segment = false) :
    (∃ changed, changed ≠ .ok true ∧
      ∀ edit store, walk.step (some next) edit segment tree store = ⟨tree, store, changed⟩) ∨
    ∃ rebuild, Rebuilds (segment.stepFrom tree) tree rebuild ∧
      ∀ edit store, walk.step (some next) edit segment tree store =
        (enter (some next.container) edit ((tree.under? (segment.stepFrom tree)).getD .null) store).map rebuild := by
  rcases Segment.exists_of_isPlain hplain with ⟨name, rfl⟩ | ⟨index, rfl⟩
  · simp only [step, hcontainer]
    cases tree with
    | object entries =>
        exact .inr ⟨_, rebuilds_insert name entries, fun edit store => atProperty_object _ name edit entries store⟩
    | array items => cases hmaps
    | record handle entries => cases hrecordFree
    | _ => exact .inl ⟨.ok false, by simp, fun _ _ => rfl⟩
  · simp only [step, hcontainer]
    cases tree with
    | object entries =>
        exact .inr ⟨_, rebuilds_insert (toString index) entries,
          fun edit store => atProperty_object _ (toString index) edit entries store⟩
    | array items =>
        rcases atIndex_cases next.container index items with ⟨changed, hne, hrefused⟩ | ⟨padded, hpad, -, heq⟩
        · exact .inl ⟨changed, hne, hrefused⟩
        · exact .inr ⟨_, rebuilds_set hpad, heq⟩
    | record handle entries => cases hrecordFree
    | _ => exact .inl ⟨.ok false, by simp, fun _ _ => rfl⟩

theorem Edit.setLast_cases (hplain : last.isPlain = true) (hrecordFree : tree.recordFree = true)
    (hmaps : tree.maps last = false) (value : Tree) (store : Store) :
    (∃ changed, changed ≠ .ok true ∧ setLast value last tree store = ⟨tree, store, changed⟩) ∨
    ∃ rebuild, Rebuilds (last.stepFrom tree) tree rebuild ∧
      setLast value last tree store = ⟨rebuild value, store, .ok true⟩ := by
  rcases Segment.exists_of_isPlain hplain with ⟨name, rfl⟩ | ⟨index, rfl⟩
  · cases tree with
    | object entries => exact .inr ⟨_, rebuilds_insert name entries, rfl⟩
    | array items => cases hmaps
    | record handle entries => cases hrecordFree
    | null => exact .inl ⟨.ok false, by simp, rfl⟩
    | _ => exact .inl ⟨.error _, by simp, rfl⟩
  · cases tree with
    | object entries => exact .inr ⟨_, rebuilds_insert (toString index) entries, rfl⟩
    | array items =>
        simp only [setLast, setIndex]
        by_cases hnonneg : 0 ≤ index
        · rw [if_pos hnonneg]
          cases hpad : padTo items index.toNat with
          | error fault => exact .inl ⟨.error fault, by simp, rfl⟩
          | ok padded =>
              simp only [Segment.stepFrom, arrayPosition, if_pos hnonneg]
              exact .inr ⟨_, rebuilds_set hpad, rfl⟩
        · rw [if_neg hnonneg]
          cases hresolve : resolveIndex items.length index with
          | none => exact .inl ⟨.ok false, by simp, rfl⟩
          | some position =>
              simp only [Segment.stepFrom, arrayPosition_of_resolveIndex hresolve]
              exact .inr ⟨_, rebuilds_set (padTo_of_lt (lt_of_resolveIndex hresolve)), rfl⟩
    | record handle entries => cases hrecordFree
    | null => exact .inl ⟨.ok false, by simp, rfl⟩
    | _ => exact .inl ⟨.error _, by simp, rfl⟩

theorem Segment.under?_stepFrom (hplain : segment.isPlain = true) (hmaps : tree.maps segment = false) :
    tree.under? (segment.stepFrom tree) = tree.child? segment := by
  rcases exists_of_isPlain hplain with ⟨name, rfl⟩ | ⟨index, rfl⟩
  · cases tree with
    | object entries => rfl
    | array items => cases hmaps
    | _ => rfl
  · cases tree with
    | object entries => rfl
    | array items =>
        rw [stepFrom, Tree.under?, Tree.child?]
        cases hresolve : resolveIndex items.length index with
        | some position => rw [arrayPosition_of_resolveIndex hresolve, Option.bind_some]
        | none => exact List.getElem?_eq_none (length_le_arrayPosition hresolve)
    | _ => rfl

theorem Tree.recordFree_of_under? {tree child : Tree} {step : Step} (hrecordFree : tree.recordFree = true)
    (hchild : tree.under? step = some child) : child.recordFree = true := by
  cases tree with
  | object entries =>
      cases step with
      | key name => exact (everywhere_object.mp hrecordFree).2 _ (Entries.mem_of_find? hchild)
      | position index => cases hchild
  | array items =>
      cases step with
      | key name => cases hchild
      | position index => exact (everywhere_array.mp hrecordFree).2 _ (List.mem_of_getElem? hchild)
  | _ => cases step <;> cases hchild

/-- A container is built as it would be for a null in its place. -/
theorem Tree.addressOf_container (hplain : next.isPlain = true) :
    next.container.addressOf (next :: segments) = null.addressOf (next :: segments) := by
  rcases Segment.exists_of_isPlain hplain with ⟨name, rfl⟩ | ⟨index, rfl⟩ <;> rfl

theorem Segment.under?_container (hplain : next.isPlain = true) (step : Step) : next.container.under? step = none := by
  rcases exists_of_isPlain hplain with ⟨name, rfl⟩ | ⟨index, rfl⟩ <;> cases step <;> rfl

theorem Edit.Assigns.enter (hassigns : edit.Assigns (next :: segments) value) (hnext : next.isPlain = true) :
    (Walk.enter (some next.container) edit).Assigns (next :: segments) value := by
  intro tree store hrecordFree hnever hchanged
  cases hnull : tree.isNull with
  | true =>
      obtain rfl : tree = .null := eq_null_of_isNull hnull
      obtain ⟨hassigned, hstore⟩ :=
        hassigns next.container store next.recordFree_container (Segment.neverMaps_container hnext segments) hchanged
      rw [addressOf_container hnext] at hassigned
      exact ⟨hassigned.of_empty (Segment.under?_container hnext), hstore⟩
  | false =>
      simp only [Walk.enter, hnull, Bool.false_eq_true, if_false] at hchanged ⊢
      exact hassigns tree store hrecordFree hnever hchanged

theorem Edit.assigns_setLast (hplain : last.isPlain = true) : (setLast value last).Assigns [last] value := by
  intro tree store hrecordFree hnever hchanged
  rcases setLast_cases hplain hrecordFree (maps_of_neverMaps hnever) value store with
    ⟨changed, hrefused, hset⟩ | ⟨rebuild, hrebuilds, hset⟩
  · rw [hset] at hchanged
    exact absurd hchanged hrefused
  · rw [hset]
    exact ⟨.below (hrebuilds.others value) (hrebuilds.child value) (.here value _), rfl⟩

/-- What a plain segment leads to meets what was promised of the tree; where it leads nowhere, null does. -/
theorem Tree.getD_under? (hplain : segment.isPlain = true) (hrecordFree : tree.recordFree = true)
    (hnever : tree.neverMaps (segment :: segments) = true) :
    ((tree.under? (segment.stepFrom tree)).getD .null).recordFree = true ∧
      ((tree.under? (segment.stepFrom tree)).getD .null).neverMaps segments = true := by
  have hunder := Segment.under?_stepFrom hplain (maps_of_neverMaps hnever)
  cases hfound : tree.under? (segment.stepFrom tree) with
  | none => exact ⟨rfl, neverMaps_null _⟩
  | some child => exact ⟨recordFree_of_under? hrecordFree hfound, neverMaps_of_child? hnever (hunder ▸ hfound)⟩

theorem Edit.Assigns.step {walk : Walk} (hbuilding : walk.building = .containers)
    (hassigns : edit.Assigns (next :: segments) value) (hplain : segment.isPlain = true)
    (hnext : next.isPlain = true) :
    (walk.step (some next) edit segment).Assigns (segment :: next :: segments) value := by
  intro tree store hrecordFree hnever hchanged
  have hcontainer := Walk.container?_eq hbuilding hnext
  rcases Walk.step_cases hcontainer hplain hrecordFree (maps_of_neverMaps hnever) with
    ⟨changed, hrefused, hstep⟩ | ⟨rebuild, hrebuilds, hstep⟩
  · rw [hstep] at hchanged
    exact absurd hchanged hrefused
  · rw [hstep] at hchanged ⊢
    obtain ⟨hchildFree, hchildNever⟩ := getD_under? hplain hrecordFree hnever
    obtain ⟨hassigned, hstore⟩ := hassigns.enter hnext _ store hchildFree hchildNever hchanged
    exact ⟨.below (hrebuilds.others _) (hrebuilds.child _) hassigned, hstore⟩

/-- Every step of the walk leads on to the address, so the whole walk does. -/
theorem Walk.assigns_visit {walk : Walk} (hbuilding : walk.building = .containers)
    (hplain : ∀ segment ∈ segments ++ [last], segment.isPlain = true) :
    (walk.visit (some last) (Edit.setLast value last) segments).Assigns (segments ++ [last]) value := by
  refine visit_induction (motive := fun segments edit =>
    (∀ segment ∈ segments, segment.isPlain = true) → edit.Assigns segments value) ?_ ?_ segments hplain
  · exact fun hlast => Edit.assigns_setLast (hlast last (by simp))
  · intro segment next below edit ih hplain
    obtain ⟨hsegment, hbelow⟩ := List.forall_mem_cons.mp hplain
    exact (ih hbelow).step hbuilding hsegment (hbelow next List.mem_cons_self)

/-- **An assignment touches one place.** Along a plain path that reads no property from an array of the document,
the value goes to the address of the path, and all else is kept: the nodes beside it, the containers on the way with
their keys in order, and what the store holds. New are the missing containers and the nulls that fill up arrays. -/
theorem Path.set_assigned {path : Path} (hnonempty : path.segments ≠ [])
    (hplain : ∀ segment ∈ path.segments, segment.isPlain = true) {root value : Tree} {store : Store}
    (hrecordFree : root.recordFree = true) (hnever : root.neverMaps path.segments = true)
    (hchanged : (path.set value root store).changed = .ok true) :
    Assigned (root.addressOf path.segments) value root (path.set value root store).result ∧
      (path.set value root store).store = store := by
  obtain ⟨init, last, hsegments⟩ := exists_segments hnonempty
  cases hnull : root.isNull with
  | true =>
      rw [set, editLast, if_pos hnull] at hchanged
      cases hchanged
  | false =>
      rw [set_eq hsegments hnull] at hchanged ⊢
      rw [hsegments] at hplain hnever ⊢
      exact Walk.assigns_visit rfl hplain root store hrecordFree hnever hchanged

/-- The null at the end of the list becomes an object with a list of its own; what is named beside the list stays. -/
theorem Path.set_assigned_listed :
    let path := Path.mk "$.list[-1].rows[1]"
      [.property "list" false, .index (-1), .property "rows" false, .index 1] false true
    let root := Tree.object [("list", .array [.bool true, .null]), ("name", .string "x")]
    root.recordFree = true ∧ root.neverMaps path.segments = true ∧
      (path.set (.integer 7) root Store.empty).changed = .ok true ∧
      Assigned [.key "list", .position 1, .key "rows", .position 1] (.integer 7) root
        (.object [("list", .array [.bool true, .object [("rows", .array [.null, .integer 7])]]), ("name", .string "x")]) ∧
      (path.set (.integer 7) root Store.empty).store = Store.empty := by
  intro path root
  have hplain : ∀ segment ∈ path.segments, segment.isPlain = true := by simp [path, segments, Segment.isPlain]
  have hchanged : (path.set (.integer 7) root Store.empty).changed = .ok true := rfl
  exact ⟨rfl, rfl, hchanged, set_assigned (by simp [path, segments]) hplain rfl rfl hchanged⟩

end TreeQuery
