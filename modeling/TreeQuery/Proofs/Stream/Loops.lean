import TreeQuery.Proofs.Stream.Seeking

/-!
# Loops over a container

The cursor runs over text in three loops: leaving a container, reading a property from the items of an array,
and reading a field at any depth. Each is described by what it gives from a place on, for whatever fuel is
enough for the text from there.
-/

namespace TreeQuery

open Json Text

variable {nesting : Nat} {tree : Tree}

/-! ### Leaving a container -/

/-- From the text on, the innermost container is left and the cursor stops at `after`. -/
def Leaves (after text : List Char) (_ : Unit) : Prop :=
  ∀ length depth scope fuel, (skipBlank text).length < fuel →
    (Movement.leaveTo depth fuel).run ⟨length, skipBlank text, depth + 1, scope⟩ =
      .ok () ⟨length, skipBlank after, depth, scope⟩

theorem length_skipBlank_lt {blank text : List Char} {c : Char} (hskip : skipBlank text = c :: blank) :
    (skipBlank blank).length < (skipBlank text).length := by
  have := length_skipBlank_le blank
  rw [hskip, List.length_cons]
  omega

namespace Leaves

variable {after text : List Char}

theorem close {c : Char} (hclose : IsClose c) : Leaves after (c :: after) () := by
  intro length depth scope fuel hfuel
  obtain ⟨fuel, rfl⟩ := exists_eq_succ_of_lt hfuel
  rw [skipBlank_cons hclose.facts.1, Movement.leaveTo]
  rcases hclose with rfl | rfl
  · simp [Token.ofChar, Movement.run_advance_close (show closesContainer ']' = true by decide)]
  · simp [Token.ofChar, Movement.run_advance_close (show closesContainer '\x7d' = true by decide)]

theorem separator {c : Char} (hseparator : c = ',' ∨ c = ':') (hleaves : Leaves after text ()) :
    Leaves after (c :: text) () := by
  intro length depth scope fuel hfuel
  have hskip : skipBlank (c :: text) = c :: text := skipBlank_cons (by rcases hseparator with rfl | rfl <;> decide) _
  have hlength := length_skipBlank_lt hskip
  obtain ⟨fuel, rfl⟩ := exists_eq_succ_of_lt hfuel
  rw [hskip, Movement.leaveTo, ← hleaves length depth scope fuel (by omega)]
  simp only [EStateM.run_bind, Movement.run_token, Movement.token_cons]
  rcases hseparator with rfl | rfl <;> simp [Token.ofChar, Movement.run_advance_separator]

/-- Values count as one, whatever is inside. -/
theorem value {value : List Char} (hspells : Spells nesting value tree) (hdelimits : Delimits text)
    (hleaves : Leaves after text ()) : Leaves after (value ++ text) () := by
  intro length depth scope fuel hfuel
  have hlength := length_skipBlank_le text
  have hpos := hspells.opens.length_pos
  rw [hspells.opens.skipBlank_append, List.length_append] at hfuel
  obtain ⟨fuel, rfl⟩ := exists_eq_succ_of_lt hfuel
  rw [hspells.opens.skipBlank_append, Movement.leaveTo, ← hleaves length depth scope fuel (by omega)]
  have htoken := hspells.token_mem length text (depth + 1) scope
  simp only [valueTokens, wordTokens, List.mem_cons, List.not_mem_nil, or_false] at htoken
  rcases htoken with htoken | htoken | htoken | htoken | htoken | htoken | htoken <;>
    simp [htoken, Movement.run_skipValue hspells hdelimits, Movement.advance]

theorem loops : Loops (Leaves after) where
  blank hblank hleaves := by
    intro length depth scope fuel hfuel
    rw [skipBlank_append hblank] at hfuel ⊢
    exact hleaves length depth scope fuel hfuel
  comma hleaves := separator (.inl rfl) hleaves

theorem member : GathersItems (Movement.Member nesting) (Leaves after) fun _ done => done := by
  intro text member tail done hmember hfollows hleaves
  cases hmember with
  | @mk content key before blank value tree hkey hbefore hblank hvalue =>
      have hfromValue : Leaves after (blank ++ (value ++ tail)) () :=
        loops.blank hblank (Leaves.value hvalue hfollows.delimits hleaves)
      have hkeySpells : Spells 0 ('"' :: key) (.string (String.ofList content)) := .string hkey
      have hcolon : Delimits (before ++ ':' :: (blank ++ (value ++ tail))) :=
        delimits_of_blank hbefore (delimits_cons.mpr (by decide))
      have hall := Leaves.value hkeySpells hcolon (loops.blank hbefore (separator (.inr rfl) hfromValue))
      simpa using hall

theorem rest {tail : List Char} {others : List (String × Tree)}
    (htail : RestText (Movement.Member nesting) '\x7d' tail others) : Leaves after (tail ++ after) () :=
  loops.rest (.inr rfl) member (.close (.inr rfl)) htail

theorem item : GathersItems (Spells nesting) (Leaves after) fun _ done => done :=
  fun _ _ _ _ hspells hfollows hleaves => Leaves.value hspells hfollows.delimits hleaves

theorem restOfItems {tail : List Char} {others : List Tree} (htail : RestText (Spells nesting) ']' tail others) :
    Leaves after (tail ++ after) () :=
  loops.rest (.inl rfl) item (.close (.inl rfl)) htail

end Leaves

theorem Movement.run_exitContainer {text after : List Char} (hleaves : Leaves after text ()) {length depth : Nat}
    {scope : Option Nat} :
    exitContainer.run ⟨length, skipBlank text, depth + 1, scope⟩ = .ok () ⟨length, skipBlank after, depth, scope⟩ := by
  simp [exitContainer, hleaves length depth scope _ (Nat.lt_succ_self _)]

/-! ### Written values -/

/-- A value written without repeated keys and no deeper than the reader goes, which stands for something. -/
structure Written (nesting : Nat) (text : List Char) (tree : Tree) : Prop where
  spells : Spells nesting text tree
  distinct : tree.keysDistinct = true
  accepted : (resolve? tree).isSome = true
  nesting_le : nesting ≤ maxDepth

/-- A written value that stands for itself, as none of its objects announces a number. -/
structure Plain (nesting : Nat) (text : List Char) (tree : Tree) : Prop extends Written nesting text tree where
  numberKeyFree : tree.numberKeyFree = true

section Written

variable {text rest : List Char} {part : Tree} {items : List Tree} {entry : String × Tree}
  {members : List (String × Tree)}

theorem Written.run_readValue (hwritten : Written nesting text tree) (hrest : Delimits rest) {length depth : Nat}
    {scope : Option Nat} : Movement.readValue.run ⟨length, text ++ rest, depth, scope⟩ =
      .ok (meaning tree) ⟨length, skipBlank rest, depth, scope⟩ :=
  Movement.run_readValue hwritten.spells (resolve?_eq_meaning hwritten.accepted) hwritten.nesting_le hrest

theorem Written.item {value : List Char} (hwritten : Written (nesting + 1) value (.array items)) (hmem : part ∈ items)
    (hspells : Spells nesting text part) : Written nesting text part :=
  ⟨hspells, Tree.keysDistinct_array.mp hwritten.distinct part hmem, isSome_resolve?_item hwritten.accepted part hmem,
    Nat.le_of_succ_le hwritten.nesting_le⟩

theorem Written.member {value : List Char} (hwritten : Written (nesting + 1) value (.object members))
    (hmem : entry ∈ members) (hspells : Spells nesting text entry.2) : Written nesting text entry.2 :=
  ⟨hspells, (Tree.keysDistinct_object.mp hwritten.distinct).2 entry hmem,
    isSome_resolve?_member hwritten.accepted entry hmem, Nat.le_of_succ_le hwritten.nesting_le⟩

theorem Plain.of_spells (hspells : Spells nesting text tree) (hdistinct : tree.keysDistinct = true)
    (hplain : tree.numberKeyFree = true) (hnesting : nesting ≤ maxDepth) : Plain nesting text tree :=
  ⟨⟨hspells, hdistinct, by rw [resolve?_eq_self hdistinct hplain]; rfl, hnesting⟩, hplain⟩

theorem Plain.run_readValue (hplain : Plain nesting text tree) (hrest : Delimits rest) {length depth : Nat}
    {scope : Option Nat} : Movement.readValue.run ⟨length, text ++ rest, depth, scope⟩ =
      .ok tree ⟨length, skipBlank rest, depth, scope⟩ := by
  rw [hplain.toWritten.run_readValue hrest, meaning_eq_self hplain.distinct hplain.numberKeyFree]

theorem Plain.item {value : List Char} (hplain : Plain (nesting + 1) value (.array items)) (hmem : part ∈ items)
    (hspells : Spells nesting text part) : Plain nesting text part :=
  ⟨hplain.toWritten.item hmem hspells, (Tree.everywhere_array.mp hplain.numberKeyFree).2 part hmem⟩

theorem Plain.member {value : List Char} (hplain : Plain (nesting + 1) value (.object members))
    (hmem : entry ∈ members) (hspells : Spells nesting text entry.2) : Plain nesting text entry.2 :=
  ⟨hplain.toWritten.member hmem hspells, (Tree.everywhere_object.mp hplain.numberKeyFree).2 entry hmem⟩

end Written

/-! ### A property of every item -/

/-- From the text on, the items up to the end of the array give `found` for a property. -/
def Collects (dropNulls : Bool) (name : String) (text : List Char) (found : List Tree) : Prop :=
  ∀ length depth scope fuel, (skipBlank text).length < fuel →
    ∃ cursor, (Movement.mapProperty dropNulls name fuel).run ⟨length, skipBlank text, depth + 1, scope⟩ =
      .ok found cursor

namespace Collects

variable {dropNulls : Bool} {name : String} {text : List Char} {found : List Tree}

theorem close : Collects dropNulls name (']' :: text) [] := by
  intro length depth scope fuel hfuel
  obtain ⟨fuel, rfl⟩ := exists_eq_succ_of_lt hfuel
  rw [skipBlank_cons (by decide), Movement.mapProperty]
  simp [Token.ofChar, Movement.run_advance_close (show closesContainer ']' = true by decide)]

theorem loops : Loops (Collects dropNulls name) where
  blank hblank hfound := by
    intro length depth scope fuel hfuel
    rw [skipBlank_append hblank] at hfuel ⊢
    exact hfound length depth scope fuel hfuel
  comma {text _} hfound := by
    intro length depth scope fuel hfuel
    have hskip : skipBlank (',' :: text) = ',' :: text := skipBlank_cons (by decide) _
    have hlength := length_skipBlank_lt hskip
    obtain ⟨fuel, rfl⟩ := exists_eq_succ_of_lt hfuel
    obtain ⟨cursor, hrun⟩ := hfound length depth scope fuel (by omega)
    refine ⟨cursor, ?_⟩
    rw [hskip, Movement.mapProperty, ← hrun]
    simp [Token.ofChar, Movement.run_advance_separator]

theorem whole {value : List Char} (hplain : Plain nesting value tree) (hdelimits : Delimits text)
    (hobject : ∀ length depth scope, Cursor.token ⟨length, value ++ text, depth, scope⟩ ≠ .beginObject)
    (hfound : Collects dropNulls name text found) :
    Collects dropNulls name (value ++ text) ((tree.property dropNulls name).spliced dropNulls ++ found) := by
  intro length depth scope fuel hfuel
  have hspells := hplain.spells
  have hlength := length_skipBlank_le text
  have hpos := hspells.opens.length_pos
  rw [hspells.opens.skipBlank_append, List.length_append] at hfuel
  obtain ⟨fuel, rfl⟩ := exists_eq_succ_of_lt hfuel
  obtain ⟨cursor, hrun⟩ := hfound length depth scope fuel (by omega)
  refine ⟨cursor, ?_⟩
  rw [hspells.opens.skipBlank_append, Movement.mapProperty]
  have htoken := hspells.token_mem length text (depth + 1) scope
  simp only [valueTokens, wordTokens, List.mem_cons, List.not_mem_nil, or_false, hobject, false_or] at htoken
  rcases htoken with htoken | htoken | htoken | htoken | htoken | htoken <;>
    simp [htoken, hplain.run_readValue hdelimits, hrun]

theorem object {value : List Char} {members : List (String × Tree)} (hname : isSizeName name = false)
    (hmembers : ItemsText (Movement.Member nesting) '\x7d' value members)
    (hplain : Plain (nesting + 1) ('\x7b' :: value) (.object members)) (hfound : Collects dropNulls name text found) :
    Collects dropNulls name ('\x7b' :: value ++ text)
      (((Tree.object members).property dropNulls name).spliced dropNulls ++ found) := by
  intro length depth scope fuel hfuel
  have hskip : skipBlank ('\x7b' :: value ++ text) = '\x7b' :: value ++ text := skipBlank_cons (by decide) _
  have hlength := length_skipBlank_le text
  rw [hskip, List.length_append, List.length_cons] at hfuel
  obtain ⟨fuel, rfl⟩ := exists_eq_succ_of_lt hfuel
  obtain ⟨cursor, hrun⟩ := hfound length depth scope fuel (by omega)
  refine ⟨cursor, ?_⟩
  rw [hskip, Movement.mapProperty]
  cases hfind : Entries.find? members name with
  | none =>
      have hseek := Movement.run_seekField_nothing text length (depth + 1) scope hmembers hfind
      have hproperty : (Tree.object members).property dropNulls name = .null := by
        simp [Tree.property, Entries.property, hfind, hname]
      simp [Token.ofChar] at hseek ⊢
      simp [hseek, hproperty, hrun]
  | some tree =>
      obtain ⟨kind, field, tail, others, hkind, hfield, htail, hseek⟩ :=
        Movement.exists_run_seekField text length (depth + 1) scope hmembers hfind
      have hread : Plain nesting field tree := hplain.member (Entries.mem_of_find? hfind) hfield
      have hdelimits := (htail.followsItem (.inr rfl) text).delimits
      have hproperty : (Tree.object members).property dropNulls name = tree := by
        simp [Tree.property, Entries.property, hfind, hname]
      simp [Token.ofChar] at hseek ⊢
      simp [hseek, hproperty, hread.run_readValue hdelimits, Movement.run_exitContainer (Leaves.rest htail), hrun]

theorem item (hname : isSizeName name = false) :
    GathersItems (Plain nesting) (Collects dropNulls name)
      fun item found => (item.property dropNulls name).spliced dropNulls ++ found := by
  intro text item tail found hplain hfollows hfound
  rcases hplain.spells.scalar_or_container with
    hscalar | ⟨inside, inner, items, rfl, rfl, rfl, -⟩ | ⟨inside, inner, members, rfl, rfl, rfl, hmembers⟩
  · exact whole hplain hfollows.delimits
      (fun _ _ _ => Movement.token_ne_of_scalarText hscalar _ (by decide)) hfound
  · exact whole hplain hfollows.delimits (fun _ _ _ => by simp [Token.ofChar]) hfound
  · exact object hname hmembers hplain hfound

end Collects

theorem foldr_property (dropNulls : Bool) (name : String) (items : List Tree) :
    items.foldr (fun item found => (item.property dropNulls name).spliced dropNulls ++ found) [] =
      Tree.propertyOfItems dropNulls name items := by
  induction items with
  | nil => rfl
  | cons item items ih => rw [List.foldr_cons, ih, Tree.propertyOfItems]

theorem Collects.items {dropNulls : Bool} {name : String} (hname : isSizeName name = false) {text rest : List Char}
    {items : List Tree} (hitems : ItemsText (Plain nesting) ']' text items) :
    Collects dropNulls name (text ++ rest) (Tree.propertyOfItems dropNulls name items) := by
  have hgives := loops.items (.inl rfl) (item hname) (close : Collects dropNulls name (']' :: rest) []) hitems
  rwa [foldr_property] at hgives

end TreeQuery
