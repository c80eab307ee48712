import TreeQuery.Edit.Set
import TreeQuery.Proofs.Query.Plain

/-!
# Places that edits change

What single edits do to one entry or one item, and that they find it again afterwards.
-/

namespace TreeQuery

theorem Entries.find?_insert_self {α : Type} (name : String) (value : α) (entries : Entries α) :
    find? (insert name value entries) name = some value := by
  induction entries with
  | nil => rw [insert, find?_cons, if_pos rfl]
  | cons entry entries ih =>
      obtain ⟨key, old⟩ := entry
      rw [insert]
      split
      · next hkey => rw [find?_cons, if_pos hkey]
      · next hkey => rw [find?_cons, if_neg hkey, ih]

theorem Entries.find?_insert_of_ne {α : Type} {name other : String} (hne : other ≠ name) (value : α)
    (entries : Entries α) : find? (insert name value entries) other = find? entries other := by
  induction entries with
  | nil => rw [insert, find?_cons, if_neg (Ne.symm hne)]
  | cons entry entries ih =>
      obtain ⟨key, old⟩ := entry
      rw [insert]
      split
      · next hkey => rw [find?_cons, find?_cons, if_neg (hkey ▸ Ne.symm hne), if_neg (hkey ▸ Ne.symm hne)]
      · rw [find?_cons, find?_cons, ih]

theorem Entries.insert_insert {α : Type} (name : String) (value old : α) (entries : Entries α) :
    insert name value (insert name old entries) = insert name value entries := by
  induction entries with
  | nil => simp [insert]
  | cons entry entries ih =>
      obtain ⟨key, found⟩ := entry
      by_cases hkey : key = name
      · simp [insert, hkey]
      · simp [insert, hkey, ih]

theorem Entries.insert_of_find? {α : Type} {name : String} {value : α} {entries : Entries α}
    (hfind : entries.find? name = some value) : insert name value entries = entries := by
  induction entries with
  | nil => cases hfind
  | cons entry entries ih =>
      obtain ⟨key, old⟩ := entry
      rw [find?_cons] at hfind
      split at hfind
      · next hkey => rw [insert, if_pos hkey, Option.some.inj hfind]
      · next hkey => rw [insert, if_neg hkey, ih hfind]

theorem Entries.keys_prefix_insert {α : Type} (name : String) (value : α) (entries : Entries α) :
    entries.keys <+: (insert name value entries).keys := by
  induction entries with
  | nil => exact List.nil_prefix
  | cons entry entries ih =>
      obtain ⟨key, old⟩ := entry
      rw [insert]
      split
      · exact List.prefix_rfl
      · exact (List.prefix_cons_inj key).mpr ih

theorem Entries.length_insert_of_mem {α : Type} {name : String} {entries : Entries α} (hmem : name ∈ entries.keys)
    (value : α) : (insert name value entries).length = entries.length := by
  induction entries with
  | nil => cases hmem
  | cons entry entries ih =>
      rw [insert]
      split
      · rfl
      · next hkey =>
          have hothers := (List.mem_cons.mp hmem).resolve_left (Ne.symm hkey)
          rw [List.length_cons, List.length_cons, ih hothers]

theorem resolveIndex_of_nonneg {length : Nat} {index : Int} (hnonneg : 0 ≤ index) (hlt : index.toNat < length) :
    resolveIndex length index = some index.toNat := by
  rw [resolveIndex, if_pos hnonneg, if_pos (by omega)]

theorem eq_toNat_of_resolveIndex {length position : Nat} {index : Int} (hnonneg : 0 ≤ index)
    (hresolve : resolveIndex length index = some position) : position = index.toNat := by
  rw [resolveIndex, if_pos hnonneg] at hresolve
  split at hresolve <;> cases hresolve
  rfl

theorem lt_of_resolveIndex {length position : Nat} {index : Int}
    (hresolve : resolveIndex length index = some position) : position < length := by
  simp only [resolveIndex] at hresolve
  split at hresolve
  · split at hresolve <;> cases hresolve
    omega
  · split at hresolve <;> cases hresolve
    omega

theorem length_le_of_resolveIndex_eq_none {length : Nat} {index : Int} (hnonneg : 0 ≤ index)
    (hresolve : resolveIndex length index = none) : length ≤ index.toNat := by
  rcases Nat.lt_or_ge index.toNat length with hlt | hge
  · rw [resolveIndex_of_nonneg hnonneg hlt] at hresolve
    cases hresolve
  · exact hge

/-- The position that an index has in an array, or in one that were longer. -/
def arrayPosition (length : Nat) (index : Int) : Nat :=
  if 0 ≤ index then index.toNat else (resolveIndex length index).getD length

theorem arrayPosition_of_resolveIndex {length position : Nat} {index : Int}
    (hresolve : resolveIndex length index = some position) : arrayPosition length index = position := by
  rw [arrayPosition]
  split
  · next hnonneg => exact (eq_toNat_of_resolveIndex hnonneg hresolve).symm
  · rw [hresolve, Option.getD_some]

theorem length_le_arrayPosition {length : Nat} {index : Int} (hresolve : resolveIndex length index = none) :
    length ≤ arrayPosition length index := by
  rw [arrayPosition]
  split
  · next hnonneg => exact length_le_of_resolveIndex_eq_none hnonneg hresolve
  · exact Nat.le_of_eq (by rw [hresolve, Option.getD_none])

section Padding

variable {items padded : List Tree} {position : Nat}

theorem lt_length_of_padTo (hpad : padTo items position = .ok padded) : position < padded.length := by
  rw [padTo] at hpad
  split at hpad
  · next hlt =>
      cases hpad
      exact hlt
  · split at hpad <;> cases hpad
    simp
    omega

theorem getElem?_of_padTo (hpad : padTo items position = .ok padded) (hle : items.length ≤ position) :
    padded[position]? = some .null := by
  rw [padTo, if_neg (by omega)] at hpad
  split at hpad <;> cases hpad
  rw [List.getElem?_append_right hle, List.getElem?_replicate, if_pos (by omega)]

theorem padTo_of_lt (hlt : position < items.length) : padTo items position = .ok items := by rw [padTo, if_pos hlt]

theorem getElem?_padTo {other : Nat} {item : Tree} (hpad : padTo items position = .ok padded)
    (hitem : items[other]? = some item) : padded[other]? = some item := by
  rw [padTo] at hpad
  split at hpad
  · cases hpad
    exact hitem
  · split at hpad <;> cases hpad
    obtain ⟨hlt, -⟩ := List.getElem?_eq_some_iff.mp hitem
    rwa [List.getElem?_append_left hlt]

/-- The items that are added are null, and lie in front of the position or at it. -/
theorem eq_null_of_padTo {other : Nat} {item : Tree} (hpad : padTo items position = .ok padded)
    (hmissing : items[other]? = none) (hitem : padded[other]? = some item) : item = .null ∧ other ≤ position := by
  rw [padTo] at hpad
  split at hpad
  · cases hpad
    rw [hmissing] at hitem
    cases hitem
  · split at hpad <;> cases hpad
    have hle : items.length ≤ other := List.getElem?_eq_none_iff.mp hmissing
    rw [List.getElem?_append_right hle, List.getElem?_replicate] at hitem
    split at hitem <;> cases hitem
    exact ⟨rfl, by omega⟩

theorem exists_padTo_nil (hlt : position < maxPadding) : ∃ padded, padTo [] position = .ok padded := by
  rw [padTo, if_neg (by simp), if_neg (by simpa using hlt)]
  exact ⟨_, rfl⟩

end Padding

theorem Walk.container?_eq_none {walk : Walk} (hbuilding : walk.building = .nothing) (following : Option Segment) :
    walk.container? following = none := by simp [container?, hbuilding]

/-- Where nothing is built, null is edited like any other node. -/
theorem Walk.enter_none (edit : Edit Tree) : enter none edit = edit := by
  funext node store
  rw [enter, Option.getD_none, ite_self]

theorem Change.map_map {α β γ : Type} (f : α → β) (g : β → γ) (change : Change α) :
    (change.map f).map g = change.map fun x => g (f x) := rfl

theorem Change.cons_eq {α : Type} {x : α} {xs rest : List α} {store store' : Store} {before after : Bool}
    {tail : Store → Change (List α)} (htail : tail store = ⟨xs, store', .ok after⟩) :
    Change.cons ⟨x, store, .ok before⟩ rest tail = ⟨x :: xs, store', .ok (before || after)⟩ := by
  rw [cons]
  dsimp only
  rw [htail]
  rfl

namespace Edit

variable {α : Type} (edit : Edit α) (store : Store)

theorem atKey_eq_insert {entries : Entries α} {name : String} {value : α}
    (hfind : Entries.find? entries name = some value) :
    atKey name edit entries store = (edit value store).map fun found => Entries.insert name found entries := by
  induction entries with
  | nil => cases hfind
  | cons entry entries ih =>
      obtain ⟨key, old⟩ := entry
      rw [Entries.find?_cons] at hfind
      split at hfind
      · next hkey =>
          obtain rfl : old = value := Option.some.inj hfind
          simp [atKey, hkey, Change.map, Entries.insert]
      · next hkey =>
          rw [atKey, if_neg hkey, ih hfind]
          simp [Change.map, Entries.insert, hkey]

/-- The entry under a name is edited, and is found there again. -/
theorem atKey_of_find? {entries : Entries α} {name : String} {value : α}
    (hfind : Entries.find? entries name = some value) :
    (atKey name edit entries store).changed = (edit value store).changed ∧
      Entries.find? (atKey name edit entries store).result name = some (edit value store).result := by
  rw [atKey_eq_insert edit store hfind]
  exact ⟨rfl, Entries.find?_insert_self name _ entries⟩

theorem atPosition_eq_set {items : List α} {position : Nat} {item : α} (hitem : items[position]? = some item) :
    atPosition edit position items store = (edit item store).map fun found => items.set position found := by
  induction items generalizing position with
  | nil => simp at hitem
  | cons first items ih =>
      cases position with
      | zero =>
          obtain rfl : first = item := by simpa using hitem
          simp [atPosition, Change.map]
      | succ position =>
          have hitem' : items[position]? = some item := by simpa using hitem
          rw [atPosition, ih hitem']
          rfl

/-- The item at a position is edited, and stays at its position. -/
theorem atPosition_of_getElem? {items : List α} {position : Nat} {item : α} (hitem : items[position]? = some item) :
    (atPosition edit position items store).changed = (edit item store).changed ∧
      (atPosition edit position items store).result[position]? = some (edit item store).result ∧
      (atPosition edit position items store).result.length = items.length := by
  obtain ⟨hlt, -⟩ := List.getElem?_eq_some_iff.mp hitem
  rw [atPosition_eq_set edit store hitem]
  exact ⟨rfl, by simp [Change.map, hlt], by simp [Change.map]⟩

end Edit

end TreeQuery
