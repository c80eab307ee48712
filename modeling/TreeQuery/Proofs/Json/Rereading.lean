import TreeQuery.Json.Writer
import TreeQuery.Proofs.Tree.Address
import TreeQuery.Tree.Order

/-!
# What is read again

A tree that is written and read again keeps its shape, its keys and the order of them. Only the kind of a number may
differ: a decimal without places is written like an integer, and is one afterwards if a word holds it.
-/

namespace TreeQuery.Json

/-- Texts with commas between them and a closing bracket after the last. -/
def commaList (close : Char) : List (List Char) → List Char
  | [] => [close]
  | [text] => text ++ [close]
  | text :: texts => text ++ ',' :: commaList close texts

def memberChars (entry : String × Tree) : List Char := quote entry.1 ++ ':' :: compactChars entry.2

theorem compactItems_eq (items : List Tree) : compactItems items = commaList ']' (items.map compactChars) := by
  induction items with
  | nil => rfl
  | cons item items ih =>
      cases items with
      | nil => rfl
      | cons next items => simp only [List.map_cons, compactItems, commaList, ih]

theorem compactEntries_eq (entries : Entries Tree) :
    compactEntries entries = commaList '\x7d' (entries.map memberChars) := by
  induction entries with
  | nil => rfl
  | cons entry entries ih =>
      cases entries with
      | nil => simp only [List.map_cons, List.map_nil, compactEntries, commaList, memberChars, List.append_assoc,
          List.cons_append]
      | cons next entries =>
          simp only [List.map_cons, compactEntries, commaList, memberChars, ih, List.append_assoc, List.cons_append]

end TreeQuery.Json

namespace TreeQuery.Tree

/-- The number as it comes back. -/
def rereadNumber (value : Decimal) : Tree :=
  if value.scale = 0 ∧ InWord value.mantissa then integer value.mantissa else decimal value

mutual

/-- The tree that comes back when a tree is written and read again. -/
def reread : Tree → Tree
  | decimal value => rereadNumber value
  | array items => array (rereadItems items)
  | object entries => object (rereadEntries entries)
  | tree => tree

def rereadItems : List Tree → List Tree
  | [] => []
  | item :: items => reread item :: rereadItems items

def rereadEntries : List (String × Tree) → List (String × Tree)
  | [] => []
  | (name, value) :: entries => (name, reread value) :: rereadEntries entries

end

theorem rereadItems_eq_map (items : List Tree) : rereadItems items = items.map reread := by
  induction items with
  | nil => rfl
  | cons item items ih => rw [rereadItems, List.map_cons, ih]

theorem rereadEntries_eq_map (entries : Entries Tree) :
    rereadEntries entries = entries.map fun entry => (entry.1, entry.2.reread) := by
  induction entries with
  | nil => rfl
  | cons entry entries ih => rw [rereadEntries, List.map_cons, ih]

theorem keys_rereadEntries (entries : Entries Tree) :
    Entries.keys (rereadEntries entries) = entries.keys := by
  simp [rereadEntries_eq_map, Entries.keys]

/-! ### Shape -/

theorem rereadNumber_cases (value : Decimal) :
    rereadNumber value = decimal value ∨ value.scale = 0 ∧ rereadNumber value = integer value.mantissa := by
  rw [rereadNumber]
  split
  · next hinteger => exact .inr ⟨hinteger.1, rfl⟩
  · exact .inl rfl

theorem under?_reread (tree : Tree) (step : Step) : tree.reread.under? step = (tree.under? step).map reread := by
  cases tree with
  | array items =>
      cases step with
      | key name => rfl
      | position index => rw [reread, under?, under?, rereadItems_eq_map, List.getElem?_map]
  | object entries =>
      cases step with
      | key name => rw [reread, under?, under?, rereadEntries_eq_map, Entries.find?_map]
      | position index => rfl
  | decimal value =>
      rcases rereadNumber_cases value with hnumber | ⟨-, hnumber⟩ <;> rw [reread, hnumber] <;> cases step <;> rfl
  | record handle entries => cases step <;> rfl
  | _ => cases step <;> rfl

/-- A condition on keys holds of what comes back. -/
theorem everywhere_reread {test : Tree → Bool} {tree : Tree} (hscalar : ∀ tree, tree.isScalar = true → test tree = true)
    (harray : ∀ items, test (array items) = true)
    (hobject : ∀ entries, test (object entries) = true → test (object (rereadEntries entries)) = true)
    (htree : tree.everywhere test = true) : tree.reread.everywhere test = true := by
  induction tree using Tree.induction with
  | scalar tree hisScalar =>
      cases tree with
      | decimal value =>
          rcases rereadNumber_cases value with hnumber | ⟨-, hnumber⟩ <;> rw [reread, hnumber] <;> exact hscalar _ rfl
      | array items => cases hisScalar
      | object entries => cases hisScalar
      | record handle entries => cases hisScalar
      | _ => exact htree
  | array items ih =>
      obtain ⟨-, hitems⟩ := everywhere_array.mp htree
      rw [reread, rereadItems_eq_map]
      exact everywhere_array.mpr ⟨harray _, List.forall_mem_map.mpr fun item hmem => ih item hmem (hitems item hmem)⟩
  | object entries ih =>
      obtain ⟨hown, hvalues⟩ := everywhere_object.mp htree
      refine everywhere_object.mpr ⟨hobject entries hown, ?_⟩
      rw [rereadEntries_eq_map]
      exact List.forall_mem_map.mpr fun entry hmem => ih entry hmem (hvalues entry hmem)
  | record handle entries _ => exact htree

/-- Every node is read again at its address. -/
theorem at?_reread (tree : Tree) (address : Address) : tree.reread.at? address = (tree.at? address).map reread := by
  induction address generalizing tree with
  | nil => rfl
  | cons step address ih =>
      rw [at?, at?, under?_reread]
      cases tree.under? step with
      | none => rfl
      | some child => exact ih child

/-! ### Text -/

theorem compactChars_rereadNumber (value : Decimal) :
    Json.compactChars (rereadNumber value) = Json.compactChars (decimal value) := by
  rcases rereadNumber_cases value with hnumber | ⟨hscale, hnumber⟩
  · rw [hnumber]
  · obtain ⟨mantissa, scale⟩ := value
    obtain rfl : scale = 0 := hscale
    rw [hnumber]
    rfl

/-- What comes back is written like the tree it came from. -/
theorem compactChars_reread (tree : Tree) : Json.compactChars tree.reread = Json.compactChars tree := by
  induction tree using Tree.induction with
  | scalar tree hscalar =>
      cases tree with
      | decimal value => exact compactChars_rereadNumber value
      | array items => cases hscalar
      | object entries => cases hscalar
      | _ => rfl
  | array items ih =>
      have hitems : items.map (Json.compactChars ∘ reread) = items.map Json.compactChars := List.map_congr_left ih
      rw [reread, rereadItems_eq_map, Json.compactChars, Json.compactChars, Json.compactItems_eq, Json.compactItems_eq,
        List.map_map, hitems]
  | object entries ih =>
      have hmembers : entries.map (Json.memberChars ∘ fun entry => (entry.1, entry.2.reread)) =
          entries.map Json.memberChars :=
        List.map_congr_left fun entry hmem => by simp only [Function.comp_apply, Json.memberChars, ih entry hmem]
      rw [reread, rereadEntries_eq_map, Json.compactChars, Json.compactChars, Json.compactEntries_eq,
        Json.compactEntries_eq, List.map_map, hmembers]
  | record handle entries ih => rfl

/-! ### Values -/

theorem sameValue_of_asDecimal? {left right : Tree} {value : Decimal} (hleft : left.asDecimal? = some value)
    (hright : right.asDecimal? = some value) : left.sameValue right = true := by
  have hcompare : left.compareNumbers right = some .eq := by
    have hself : value.compare value = .eq := by simp [Decimal.compare]
    simp only [compareNumbers, hleft, hright, hself]
  cases left <;> try cases hleft
  all_goals
    cases right <;> try cases hright
    all_goals simp [sameValue, isNumber, hcompare]

def isFloat : Tree → Bool
  | float _ => true
  | _ => false

/-- The tree holds no number beyond the range of decimals. -/
def floatFree (tree : Tree) : Bool := tree.everywhere (!·.isFloat)

theorem sameItems_map {f : Tree → Tree} {items : List Tree} (hitems : ∀ item ∈ items, (f item).sameValue item = true) :
    sameItems (items.map f) items = true := by
  induction items with
  | nil => rfl
  | cons item items ih =>
      obtain ⟨hitem, hothers⟩ := List.forall_mem_cons.mp hitems
      rw [List.map_cons, sameItems, hitem, ih hothers]
      rfl

theorem sameEntries_map {f : Tree → Tree} {entries others : Entries Tree} (hnodup : others.keys.Nodup)
    (hsub : ∀ entry ∈ entries, entry ∈ others) (hentries : ∀ entry ∈ entries, (f entry.2).sameValue entry.2 = true) :
    sameEntries (entries.map fun entry => (entry.1, f entry.2)) others = true := by
  induction entries with
  | nil => rfl
  | cons entry entries ih =>
      obtain ⟨hentry, hrest⟩ := List.forall_mem_cons.mp hentries
      obtain ⟨hmem, hmems⟩ := List.forall_mem_cons.mp hsub
      rw [List.map_cons, sameEntries, Entries.find?_of_mem hnodup hmem, ih hmems hrest, Bool.and_true]
      exact hentry

/-- What comes back has the value of the tree it came from. -/
theorem sameValue_reread {tree : Tree} (hfloats : tree.floatFree = true) (hkeys : tree.keysDistinct = true) :
    tree.reread.sameValue tree = true := by
  induction tree using Tree.induction with
  | scalar tree hscalar =>
      cases tree with
      | integer value => exact sameValue_of_asDecimal? rfl rfl
      | decimal value =>
          refine sameValue_of_asDecimal? ?_ rfl
          rcases rereadNumber_cases value with hnumber | ⟨hscale, hnumber⟩ <;> rw [reread, hnumber]
          · rfl
          · obtain ⟨mantissa, scale⟩ := value
            obtain rfl : scale = 0 := hscale
            rfl
      | float value => cases hfloats
      | array items => cases hscalar
      | object entries => cases hscalar
      | record handle entries => cases hscalar
      | _ => simp [reread, sameValue]
  | array items ih =>
      obtain ⟨-, hfloats⟩ := everywhere_array.mp hfloats
      rw [keysDistinct_array] at hkeys
      have hitems := sameItems_map fun item hmem => ih item hmem (hfloats item hmem) (hkeys item hmem)
      simp [reread, rereadItems_eq_map, sameValue, hitems]
  | object entries ih =>
      obtain ⟨-, hfloats⟩ := everywhere_object.mp hfloats
      obtain ⟨hnodup, hkeys⟩ := keysDistinct_object.mp hkeys
      have hentries := sameEntries_map hnodup (fun _ hmem => hmem) fun entry hmem =>
        ih entry hmem (hfloats entry hmem) (hkeys entry hmem)
      simp [reread, rereadEntries_eq_map, sameValue, hentries]
  | record handle entries ih => simp [reread, sameValue]

end TreeQuery.Tree
