import TreeQuery.Edit.Walk
import TreeQuery.Proofs.Decimal.Places
import TreeQuery.Proofs.Json.Rereading
import TreeQuery.Proofs.Json.Resolving

/-!
# Writing JSON text

What is written for a tree is a written form of it, part by part: escaped strings, digits, lists with commas. So
writing and reading again loses nothing but the difference between an integer and a decimal without places.
-/

namespace TreeQuery.Json

/-! ### Strings -/

/-- Whether four digits stand for the code. -/
def isCodeText (code : Nat) (digits : List Char) : Bool :=
  match digits with
  | [a, b, c, d] => hexCode? a b c d == some code
  | _ => false

theorem isCodeText_hexDigits : ∀ code < 0x20, isCodeText code (hexDigits code 4) = true := by decide

theorem QuotedText.control {c : Char} (hc : c.toNat < 0x20) {content text : List Char}
    (htail : QuotedText content text) :
    QuotedText (c :: content) ('\\' :: 'u' :: (hexDigits c.toNat 4 ++ text)) := by
  have hcode := isCodeText_hexDigits c.toNat hc
  generalize hexDigits c.toNat 4 = digits at hcode ⊢
  have hhigh : isHighSurrogate c.toNat = false := by
    rw [isHighSurrogate, decide_eq_false (by omega), Bool.false_and]
  have hlow : isLowSurrogate c.toNat = false := by
    rw [isLowSurrogate, decide_eq_false (by omega), Bool.false_and]
  unfold isCodeText at hcode
  split at hcode
  · have hquoted := QuotedText.code (by simpa using hcode) hhigh hlow htail
    rwa [Char.ofNat_toNat] at hquoted
  · cases hcode

/-- Whatever a character is written as, it is the next one of the content. -/
theorem QuotedText.escapeChar (c : Char) {content text : List Char} (htail : QuotedText content text) :
    QuotedText (c :: content) (Json.escapeChar c ++ text) := by
  have hshort : ∀ {letter found}, unescape? letter = some found →
      QuotedText (found :: content) ('\\' :: letter :: text) := fun hescape => .short hescape htail
  by_cases hquote : c = '"'
  · subst hquote
    exact hshort (by decide)
  by_cases hslash : c = '\\'
  · subst hslash
    exact hshort (by decide)
  by_cases hbackspace : c = '\x08'
  · subst hbackspace
    exact hshort (by decide)
  by_cases hfeed : c = '\x0c'
  · subst hfeed
    exact hshort (by decide)
  by_cases hline : c = '\n'
  · subst hline
    exact hshort (by decide)
  by_cases hreturn : c = '\r'
  · subst hreturn
    exact hshort (by decide)
  by_cases htab : c = '\t'
  · subst htab
    exact hshort (by decide)
  rw [Json.escapeChar, if_neg hquote, if_neg hslash, if_neg hbackspace, if_neg hfeed, if_neg hline, if_neg hreturn,
    if_neg htab]
  split
  · next hcontrol => exact .control hcontrol htail
  · next hprintable => exact .plain hquote hslash (Nat.le_of_not_lt hprintable) htail

theorem quotedText_flatMap (content : List Char) : QuotedText content (content.flatMap escapeChar ++ ['"']) := by
  induction content with
  | nil => exact .close
  | cons c content ih =>
      rw [List.flatMap_cons, List.append_assoc]
      exact .escapeChar c ih

/-! ### Numbers -/

theorem unsignedText_of_isPlaced {n scale : Nat} {whole fraction : List Char}
    (hplaced : Decimal.IsPlaced n scale whole fraction) : UnsignedText (whole ++ Decimal.pointed fraction) := by
  obtain ⟨hwhole, hplaces⟩ := List.forall_mem_append.mp hplaced.isDigit
  have hwholeText : WholeText whole := by
    rcases hplaced.leading with rfl | hlead
    · exact .zero
    · exact .digits ⟨hplaced.whole_ne_nil, hwhole⟩ hlead
  have hfractionText : FractionText (Decimal.pointed fraction) := by
    rw [Decimal.pointed]
    split
    · exact .absent
    · next hne => exact .present ⟨by simpa using hne, hplaces⟩
  have htext := UnsignedText.mk hwholeText hfractionText .absent
  rwa [List.append_nil] at htext

theorem numberText_toChars (value : Decimal) : NumberText value.toChars := by
  obtain ⟨whole, fraction, htext, hplaced⟩ := value.exists_toChars
  have hunsigned := unsignedText_of_isPlaced hplaced
  rw [htext]
  split
  · exact .negative hunsigned
  · exact .positive hunsigned

theorem ofNumberChars_toChars {value : Decimal} (hrange : value.InRange) :
    Tree.ofNumberChars value.toChars = Tree.rereadNumber value := by
  have hread := Decimal.ofPlain?_toChars hrange
  by_cases hscale : value.scale = 0
  · have hword := wordOfChars?_toString_eq value.mantissa
    rw [← Decimal.toChars_of_scale_eq_zero hscale] at hword
    by_cases hmantissa : InWord value.mantissa
    · rw [Tree.ofNumberChars, hword, if_pos hmantissa, Tree.rereadNumber, if_pos ⟨hscale, hmantissa⟩]
    · rw [Tree.ofNumberChars, hword, if_neg hmantissa, hread, Tree.rereadNumber, if_neg fun h => hmantissa h.2]
      rfl
  · have hword := wordOfChars?_of_mem_point (Decimal.point_mem_toChars hscale)
    rw [Tree.ofNumberChars, hword, hread, Tree.rereadNumber, if_neg fun h => hscale h.1]
    rfl

theorem ofNumberChars_integerChars {value : Int} (hword : InWord value) :
    Tree.ofNumberChars (integerChars value) = .integer value := by
  rw [integerChars, Decimal.toChars_of_scale_eq_zero rfl, Tree.ofNumberChars, Decimal.ofInt, wordOfChars?_toString hword]

end TreeQuery.Json

namespace TreeQuery

/-! ### Trees that can be written -/

namespace Tree

def ownNumberFits : Tree → Bool
  | integer value => decide (InWord value)
  | decimal value => decide value.InRange
  | _ => true

/-- The integers of the tree fit a word, and its decimals have 96 bits and 28 places at most. -/
def numbersFit (tree : Tree) : Bool := tree.everywhere ownNumberFits

/-- The tree can be told from its text. -/
structure Writable (tree : Tree) : Prop where
  recordFree : tree.recordFree = true
  floatFree : tree.floatFree = true
  keysDistinct : tree.keysDistinct = true
  numberKeyFree : tree.numberKeyFree = true
  numbersFit : tree.numbersFit = true

theorem Writable.of_array {items : List Tree} (htree : Writable (array items)) : ∀ item ∈ items, Writable item := by
  obtain ⟨-, hrecords⟩ := everywhere_array.mp htree.recordFree
  obtain ⟨-, hfloats⟩ := everywhere_array.mp htree.floatFree
  obtain ⟨-, hnumbers⟩ := everywhere_array.mp htree.numbersFit
  obtain ⟨-, hplain⟩ := everywhere_array.mp htree.numberKeyFree
  have hkeys := keysDistinct_array.mp htree.keysDistinct
  exact fun item hmem =>
    ⟨hrecords item hmem, hfloats item hmem, hkeys item hmem, hplain item hmem, hnumbers item hmem⟩

theorem Writable.of_object {entries : Entries Tree} (htree : Writable (object entries)) :
    entries.keys.Nodup ∧ ∀ entry ∈ entries, Writable entry.2 := by
  obtain ⟨-, hrecords⟩ := everywhere_object.mp htree.recordFree
  obtain ⟨-, hfloats⟩ := everywhere_object.mp htree.floatFree
  obtain ⟨-, hnumbers⟩ := everywhere_object.mp htree.numbersFit
  obtain ⟨-, hplain⟩ := everywhere_object.mp htree.numberKeyFree
  obtain ⟨hnodup, hkeys⟩ := keysDistinct_object.mp htree.keysDistinct
  exact ⟨hnodup, fun entry hmem =>
    ⟨hrecords entry hmem, hfloats entry hmem, hkeys entry hmem, hplain entry hmem, hnumbers entry hmem⟩⟩

theorem writable_string (text : String) : (string text).Writable := ⟨rfl, rfl, rfl, rfl, rfl⟩

theorem writable_array {items : List Tree} (hitems : ∀ item ∈ items, item.Writable) : (array items).Writable where
  recordFree := everywhere_array.mpr ⟨rfl, fun item hmem => (hitems item hmem).recordFree⟩
  floatFree := everywhere_array.mpr ⟨rfl, fun item hmem => (hitems item hmem).floatFree⟩
  keysDistinct := keysDistinct_array.mpr fun item hmem => (hitems item hmem).keysDistinct
  numberKeyFree := everywhere_array.mpr ⟨rfl, fun item hmem => (hitems item hmem).numberKeyFree⟩
  numbersFit := everywhere_array.mpr ⟨rfl, fun item hmem => (hitems item hmem).numbersFit⟩

theorem writable_object {entries : Entries Tree} (hnodup : entries.keys.Nodup)
    (hannounces : Json.announcesNumber entries = false) (hentries : ∀ entry ∈ entries, entry.2.Writable) :
    (object entries).Writable where
  recordFree := everywhere_object.mpr ⟨rfl, fun entry hmem => (hentries entry hmem).recordFree⟩
  floatFree := everywhere_object.mpr ⟨rfl, fun entry hmem => (hentries entry hmem).floatFree⟩
  keysDistinct := keysDistinct_object.mpr ⟨hnodup, fun entry hmem => (hentries entry hmem).keysDistinct⟩
  numberKeyFree := everywhere_object.mpr
    ⟨by simp [ownAnnouncesNumber, hannounces], fun entry hmem => (hentries entry hmem).numberKeyFree⟩
  numbersFit := everywhere_object.mpr ⟨rfl, fun entry hmem => (hentries entry hmem).numbersFit⟩

/-- What comes back of a tree that can be told from its text stands for itself. -/
theorem Writable.resolve?_reread {tree : Tree} (htree : tree.Writable) :
    Json.resolve? tree.reread = some tree.reread := by
  refine Json.resolve?_eq_self (everywhere_reread ?_ ?_ ?_ htree.keysDistinct)
    (everywhere_reread ?_ ?_ ?_ htree.numberKeyFree)
  · intro tree hscalar
    cases tree <;> first | rfl | cases hscalar
  · exact fun _ => rfl
  · intro entries hown
    rw [ownKeysDistinct, decide_eq_true_eq] at hown ⊢
    exact (keys_rereadEntries entries).symm ▸ hown
  · intro tree hscalar
    cases tree <;> first | rfl | cases hscalar
  · exact fun _ => rfl
  · intro entries hown
    cases entries <;> exact hown

theorem height_le_of_mem_items {item : Tree} {items : List Tree} (hmem : item ∈ items) :
    item.height ≤ heightOfItems items := by
  induction items with
  | nil => cases hmem
  | cons first items ih =>
      rw [heightOfItems]
      rcases List.mem_cons.mp hmem with rfl | hmem
      · exact Nat.le_max_left _ _
      · exact Nat.le_trans (ih hmem) (Nat.le_max_right _ _)

theorem height_le_of_mem_entries {entry : String × Tree} {entries : Entries Tree} (hmem : entry ∈ entries) :
    entry.2.height ≤ heightOfEntries entries := by
  induction entries with
  | nil => cases hmem
  | cons first entries ih =>
      rw [heightOfEntries]
      rcases List.mem_cons.mp hmem with rfl | hmem
      · exact Nat.le_max_left _ _
      · exact Nat.le_trans (ih hmem) (Nat.le_max_right _ _)

theorem heightOfItems_le {items : List Tree} {height : Nat} (hitems : ∀ item ∈ items, item.height ≤ height) :
    heightOfItems items ≤ height := by
  induction items with
  | nil => exact Nat.zero_le height
  | cons item items ih =>
      obtain ⟨hitem, hothers⟩ := List.forall_mem_cons.mp hitems
      exact Nat.max_le.mpr ⟨hitem, ih hothers⟩

theorem heightOfEntries_le {entries : Entries Tree} {height : Nat}
    (hentries : ∀ entry ∈ entries, entry.2.height ≤ height) : heightOfEntries entries ≤ height := by
  induction entries with
  | nil => exact Nat.zero_le height
  | cons entry entries ih =>
      obtain ⟨hentry, hothers⟩ := List.forall_mem_cons.mp hentries
      exact Nat.max_le.mpr ⟨hentry, ih hothers⟩

end Tree

/-! ### Values -/

namespace Json

theorem scalarText_compactChars {tree : Tree} (htree : tree.Writable) (hscalar : tree.isScalar = true) :
    ScalarText (compactChars tree) tree.reread := by
  cases tree with
  | null => exact .null
  | bool value => cases value with
    | true => exact .true
    | false => exact .false
  | integer value =>
      have hword : InWord value := of_decide_eq_true htree.numbersFit
      have htext := ScalarText.number (numberText_toChars (Decimal.ofInt value))
      rwa [← integerChars, ofNumberChars_integerChars hword] at htext
  | decimal value =>
      have hrange : value.InRange := of_decide_eq_true htree.numbersFit
      have htext := ScalarText.number (numberText_toChars value)
      rwa [ofNumberChars_toChars hrange] at htext
  | float value => cases htree.floatFree
  | string text =>
      have htext := ScalarText.string (quotedText_flatMap text.toList)
      rwa [String.ofList_toList] at htext
  | array items => cases hscalar
  | object entries => cases hscalar
  | record handle entries => cases hscalar

theorem itemsText_commaList {α β : Type} {form : List Char → β → Prop} {write : α → List Char} {read : α → β}
    {close : Char} {as : List α} (hforms : ∀ a ∈ as, form (write a) (read a)) :
    ItemsText form close (commaList close (as.map write)) (as.map read) := by
  cases as with
  | nil => exact .none Blank.nil
  | cons a as =>
      refine .some ?_
      induction as generalizing a with
      | nil =>
          have htext : SeparatedText form close _ _ := .last Blank.nil (hforms a (by simp)) Blank.nil
          simpa [commaList] using htext
      | cons next as ih =>
          obtain ⟨hform, hothers⟩ := List.forall_mem_cons.mp hforms
          have htext := SeparatedText.more Blank.nil hform Blank.nil (ih next hothers)
          simpa [commaList] using htext

theorem memberText_memberChars {value : List Char → Tree → Prop} {entry : String × Tree} {tree : Tree}
    (hvalue : value (compactChars entry.2) tree) : MemberText value (memberChars entry) (entry.1, tree) := by
  have htext := MemberText.mk (quotedText_flatMap entry.1.toList) Blank.nil Blank.nil hvalue
  rw [String.ofList_toList] at htext
  simpa [memberChars, quote] using htext

/-- What is written for a tree is a form of what comes back. -/
theorem spells_compactChars {depth : Nat} {tree : Tree} (hheight : tree.height ≤ depth) (htree : tree.Writable) :
    Spells depth (compactChars tree) tree.reread := by
  -- The nesting that is allowed shrinks by one level with the tree.
  induction depth generalizing tree with
  | zero =>
      refine scalarText_compactChars htree ?_
      cases tree with
      | array items => cases hheight
      | object entries => cases hheight
      | record handle entries => cases htree.recordFree
      | _ => rfl
  | succ depth ih =>
      cases tree with
      | array items =>
          have hitems : ∀ item ∈ items, Spells depth (compactChars item) item.reread :=
            fun item hmem => ih (Nat.le_trans (Tree.height_le_of_mem_items hmem) (Nat.le_of_succ_le_succ hheight))
              (htree.of_array item hmem)
          rw [Tree.reread, Tree.rereadItems_eq_map, compactChars, compactItems_eq]
          exact .array (itemsText_commaList hitems)
      | object entries =>
          have hmembers : ∀ entry ∈ entries, MemberText (Spells depth) (memberChars entry)
              (entry.1, entry.2.reread) :=
            fun entry hmem => memberText_memberChars
              (ih (Nat.le_trans (Tree.height_le_of_mem_entries hmem) (Nat.le_of_succ_le_succ hheight))
                (htree.of_object.2 entry hmem))
          rw [Tree.reread, Tree.rereadEntries_eq_map, compactChars, compactEntries_eq]
          exact .object (itemsText_commaList hmembers)
      | record handle entries => cases htree.recordFree
      | _ => exact .scalar (scalarText_compactChars htree rfl)

end Json

theorem Tree.parse_toJson_eq {tree : Tree} (htree : tree.Writable) (hheight : tree.height ≤ 127) :
    Tree.parse tree.toJson = some tree.reread := by
  have hspells : Json.Spells Json.maxDepth (Json.compactChars tree) tree.reread :=
    Json.spells_compactChars hheight htree
  have hwritten : Json.parseWritten tree.toJson.toList = some tree.reread := by
    refine Json.parseWritten_eq_some_iff.mpr
      ⟨[], Json.compactChars tree, [], Json.Blank.nil, Json.Blank.nil, ?_, hspells⟩
    rw [toJson, String.toList_ofList, List.nil_append, List.append_nil]
  exact Json.parseChars_eq_some_iff.mpr ⟨_, hwritten, htree.resolve?_reread⟩

/-- **Writing and reading again loses nothing.** A tree without records and binary numbers, in which no object begins
with the key that stands for numbers, is read back from its text, with the same value, the same keys in the same order,
and the same text. -/
theorem Tree.parse_toJson {tree : Tree} (hrecords : tree.recordFree = true) (hfloats : tree.floatFree = true)
    (hkeys : tree.keysDistinct = true) (hplain : tree.numberKeyFree = true) (hnumbers : tree.numbersFit = true)
    (hheight : tree.height ≤ 127) :
    ∃ found, Tree.parse tree.toJson = some found ∧ found.sameValue tree = true ∧
      (∀ (address : Address) (entries : Entries Tree), tree.at? address = some (.object entries) →
        ∃ entries' : Entries Tree, found.at? address = some (.object entries') ∧ entries'.keys = entries.keys) ∧
      found.toJson = tree.toJson := by
  refine ⟨tree.reread, parse_toJson_eq ⟨hrecords, hfloats, hkeys, hplain, hnumbers⟩ hheight,
    sameValue_reread hfloats hkeys, fun address entries haddress => ?_, ?_⟩
  · refine ⟨rereadEntries entries, ?_, keys_rereadEntries entries⟩
    rw [at?_reread, haddress]
    rfl
  · rw [toJson, toJson, compactChars_reread]

/-- A price that ends in a zero, an integer beyond 64 bits, one that fits a word only as an integer, and a string that
has to be escaped. -/
theorem Tree.parse_toJson_prices :
    let tree := Tree.object [("price", .decimal ⟨1990, 2⟩),
      ("\n", .array [.decimal ⟨18446744073709551616, 0⟩, .decimal ⟨-7, 0⟩, .string "\"\x01"])]
    ∃ found, Tree.parse tree.toJson = some found ∧ found.sameValue tree = true ∧
      (∀ (address : Address) (entries : Entries Tree), tree.at? address = some (.object entries) →
        ∃ entries' : Entries Tree, found.at? address = some (.object entries') ∧ entries'.keys = entries.keys) ∧
      found.toJson = tree.toJson :=
  parse_toJson rfl rfl rfl rfl rfl (by decide)

end TreeQuery
