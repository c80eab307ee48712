import TreeQuery.Tree.Basic

/-!
# Trees up to the order of keys

Objects remember the order in which their keys were added. Two trees are the same up to that order if some
rearrangement of the entries, at every depth, turns one into the other.
-/

namespace TreeQuery

/-- Lists of one length whose elements are related position by position. -/
def Pointwise {α : Type} (related : α → α → Prop) (xs ys : List α) : Prop :=
  xs.length = ys.length ∧ ∀ pair ∈ xs.zip ys, related pair.1 pair.2

/-- Trees that differ in the order of the keys of objects alone. -/
inductive Tree.Reordered : Tree → Tree → Prop
  | refl (tree : Tree) : Reordered tree tree
  | array {items items' : List Tree} (hlength : items.length = items'.length)
      (hitems : ∀ pair ∈ items.zip items', Reordered pair.1 pair.2) : Reordered (array items) (array items')
  | object {entries arranged entries' : Entries Tree} (harranged : entries.Perm arranged)
      (hkeys : arranged.keys = entries'.keys)
      (hvalues : ∀ pair ∈ arranged.values.zip entries'.values, Reordered pair.1 pair.2) :
      Reordered (object entries) (object entries')

section Pointwise

variable {α : Type} {related : α → α → Prop} {x y : α} {xs ys : List α}

theorem Pointwise.nil : Pointwise related [] [] := ⟨rfl, List.forall_mem_nil _⟩

theorem Pointwise.cons (hhead : related x y) (htail : Pointwise related xs ys) :
    Pointwise related (x :: xs) (y :: ys) := by
  obtain ⟨hlength, hpairs⟩ := htail
  exact ⟨congrArg (· + 1) hlength, List.forall_mem_cons.mpr ⟨hhead, hpairs⟩⟩

theorem Pointwise.refl (hrefl : ∀ x, related x x) (xs : List α) : Pointwise related xs xs := by
  induction xs with
  | nil => exact .nil
  | cons x xs ih => exact .cons (hrefl x) ih

theorem Pointwise.set (hrefl : ∀ x, related x x) (hrelated : related x y) (xs : List α) (position : Nat) :
    Pointwise related (xs.set position x) (xs.set position y) := by
  induction xs generalizing position with
  | nil => exact .nil
  | cons first xs ih =>
      cases position with
      | zero => exact .cons hrelated (.refl hrefl xs)
      | succ position => exact .cons (hrefl first) (ih position)

end Pointwise

namespace Entries

variable {α : Type}

/-- Entries under different names can be put in either order; two new ones change places. -/
theorem perm_insert_insert {name other : String} (hne : name ≠ other) (value found : α) (entries : Entries α) :
    (insert other found (insert name value entries)).Perm (insert name value (insert other found entries)) := by
  induction entries with
  | nil =>
      simp only [insert, if_neg hne, if_neg (Ne.symm hne)]
      exact List.Perm.swap _ _ _
  | cons entry entries ih =>
      obtain ⟨key, old⟩ := entry
      by_cases hname : key = name
      · have hother : key ≠ other := hname ▸ hne
        simp only [insert, if_pos hname, if_neg hother]
        exact List.Perm.refl _
      · by_cases hother : key = other
        · simp only [insert, if_neg hname, if_pos hother]
          exact List.Perm.refl _
        · simp only [insert, if_neg hname, if_neg hother]
          exact ih.cons _

theorem keys_insert_eq (name : String) (value value' : α) (entries : Entries α) :
    (insert name value entries).keys = (insert name value' entries).keys := by
  induction entries with
  | nil => rfl
  | cons entry entries ih =>
      obtain ⟨key, old⟩ := entry
      simp only [insert]
      split
      · rfl
      · exact congrArg (key :: ·) ih

theorem pointwise_values_insert {related : α → α → Prop} (hrefl : ∀ x, related x x) {value value' : α}
    (hrelated : related value value') (name : String) (entries : Entries α) :
    Pointwise related (insert name value entries).values (insert name value' entries).values := by
  induction entries with
  | nil => exact .cons hrelated .nil
  | cons entry entries ih =>
      obtain ⟨key, old⟩ := entry
      simp only [insert]
      split
      · exact .cons hrelated (.refl hrefl _)
      · exact .cons (hrefl old) ih

end Entries

namespace Tree

theorem Reordered.perm {entries entries' : Entries Tree} (hperm : entries.Perm entries') :
    Reordered (.object entries) (.object entries') :=
  .object hperm rfl (Pointwise.refl Reordered.refl _).2

theorem Reordered.insert {value value' : Tree} (hvalue : Reordered value value') (name : String)
    (entries : Entries Tree) :
    Reordered (.object (Entries.insert name value entries)) (.object (Entries.insert name value' entries)) :=
  .object (List.Perm.refl _) (Entries.keys_insert_eq name value value' entries)
    (Entries.pointwise_values_insert Reordered.refl hvalue name entries).2

theorem Reordered.of_pointwise {items items' : List Tree} (hitems : Pointwise Reordered items items') :
    Reordered (.array items) (.array items') :=
  .array hitems.1 hitems.2

end Tree

end TreeQuery
