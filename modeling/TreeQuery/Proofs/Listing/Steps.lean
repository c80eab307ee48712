import TreeQuery.Proofs.Path.Pieces
import TreeQuery.Proofs.Query.Plain

/-!
# Steps to children

Keys and positions as they stand in listed paths. A key of digits is read as an index and finds its entry all the
same, because objects are asked for the digits of an index.
-/

namespace TreeQuery

/-- The step is read as a plain segment wherever it stands in a path. -/
structure IsStep (step : String) (segment : Segment) : Prop where
  ne_empty : step ≠ ""
  isPlain : segment.isPlain = true
  reads : ∀ {rest}, EndsSegment rest → Reads ('/' :: step.toList) segment rest

def keySegment (key : String) : Segment :=
  if isIndexKey key.toList then dottedSegment key.toList else .property key false

theorem isIndexKey_facts {key : List Char} (hkey : isIndexKey key = true) :
    key ≠ [] ∧ (∀ c ∈ key, c.isDigit = true) ∧ (key = ['0'] ∨ key.head? ≠ some '0') := by
  simpa [isIndexKey, and_assoc] using hkey

/-- The digits of a key are those of the index that it is read as. -/
theorem toString_digitsValue {key : String} (hkey : isIndexKey key.toList = true) :
    toString (digitsValue key.toList : Int) = key := by
  obtain ⟨hne, hdigits, hzero⟩ := isIndexKey_facts hkey
  rw [← String.toList_inj, toList_toString_int, if_pos (Int.natCast_nonneg _), Int.toNat_natCast,
    toDigits_digitsValue hne hdigits hzero]

/-- A key is an index of the same digits, or a property. -/
theorem keySegment_cases (key : String) :
    keySegment key = .property key false ∨ ∃ index : Int, keySegment key = .index index ∧ toString index = key := by
  rw [keySegment]
  split
  · next hkey =>
      obtain ⟨hne, hdigits, -⟩ := isIndexKey_facts hkey
      rw [dottedSegment, wordOfChars?_digits hne hdigits]
      by_cases hword : InWord (digitsValue key.toList)
      · rw [if_pos hword]
        exact .inr ⟨_, rfl, toString_digitsValue hkey⟩
      · rw [if_neg hword]
        exact .inl (by rw [String.ofList_toList])
  · exact .inl rfl

theorem child?_keySegment (entries : Entries Tree) (key : String) :
    (Tree.object entries).child? (keySegment key) = entries.find? key := by
  rcases keySegment_cases key with hkey | ⟨index, hkey, hindex⟩
  · rw [hkey, Tree.child?, HashedName.text_ofText]
  · rw [hkey, Tree.child?, hindex]

theorem isStep_key {key : String} (hne : key ≠ "") : IsStep (escapeKey key) (keySegment key) := by
  have hchars : key.toList ≠ [] := fun h => hne (String.toList_eq_nil_iff.mp h)
  have hplain : (keySegment key).isPlain = true := by
    rcases keySegment_cases key with hkey | ⟨index, hkey, -⟩ <;> rw [hkey] <;> rfl
  -- Digits stay as they are, and everything else is escaped so that it reads as a name.
  cases hkey : isIndexKey key.toList with
  | true =>
      obtain ⟨-, hdigits, -⟩ := isIndexKey_facts hkey
      have hstep : escapeKey key = key := by rw [escapeKey, if_pos hkey]
      have hsegment : keySegment key = dottedSegment key.toList := by rw [keySegment, if_pos hkey]
      rw [hstep]
      refine ⟨hne, hplain, fun hrest => ?_⟩
      rw [hsegment]
      exact reads_dotted (by decide) [] key.toList (.inl rfl) hchars hdigits hrest
  | false =>
      have hstep : escapeKey key = String.ofList (escapeName key.toList) := by rw [escapeKey, if_neg (by simp [hkey])]
      have hsegment : keySegment key = .property (String.ofList key.toList) false := by
        rw [keySegment, if_neg (by simp [hkey]), String.ofList_toList]
      obtain ⟨c, tail, hescape, -⟩ := exists_escapeName hchars
      rw [hstep]
      refine ⟨fun hempty => ?_, hplain, fun hrest => ?_⟩
      · rw [← String.toList_inj, String.toList_ofList, hescape] at hempty
        cases hempty
      · rw [hsegment, String.toList_ofList]
        exact reads_property (by decide) hchars hrest

theorem isStep_position {position : Nat} (hword : InWord position) : IsStep (toString position) (.index position) := by
  have hstep : toString position = toString (position : Int) := rfl
  rw [hstep]
  refine ⟨fun hempty => ?_, rfl, reads_index (by decide) hword⟩
  have hchars := congrArg String.toList hempty
  rw [toList_toString_int, if_pos (Int.natCast_nonneg _)] at hchars
  exact Nat.toDigits_ne_nil hchars

theorem child?_position {items : List Tree} {position : Nat} (hlt : position < items.length) :
    (Tree.array items).child? (.index position) = items[position]? := by
  have hresolve : resolveIndex items.length position = some position := by
    rw [resolveIndex, if_pos (Int.natCast_nonneg _), if_pos (Int.ofNat_lt.mpr hlt), Int.toNat_natCast]
  rw [Tree.child?, hresolve, Option.bind_some]

end TreeQuery
