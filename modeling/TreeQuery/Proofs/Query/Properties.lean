import TreeQuery.Proofs.Json.Resolving
import TreeQuery.Query.Eval

/-!
# Paths of properties

Each property is read from what the properties before it gave. Over an array it is read from the items, whose values
are collected into one array, and so on at any depth.
-/

namespace TreeQuery

namespace Tree

variable {dropNulls : Bool} {name : String} {tree : Tree}

def isObjectText : Tree → Bool
  | string text => (embeddedObject? text).isSome
  | _ => false

/-- No string in the tree reads as an object. -/
def objectTextFree (tree : Tree) : Bool := tree.everywhere (!·.isObjectText)

theorem objectTextFree_of_isScalar (hscalar : tree.isScalar = true) (htext : tree.isObjectText = false) :
    tree.objectTextFree = true := by
  cases tree with
  | array items => cases hscalar
  | object entries => cases hscalar
  | record handle entries => cases hscalar
  | _ => simp [objectTextFree, everywhere, htext]

theorem isObjectText_of_objectTextFree (htext : tree.objectTextFree = true) : tree.isObjectText = false := by
  cases tree with
  | string text => simpa [objectTextFree, everywhere] using htext
  | _ => rfl

/-- Null and an empty array count as nothing. -/
def isNothing : Tree → Bool
  | null => true
  | array items => items.isEmpty
  | _ => false

/-- Reads properties one after another. -/
def readAll (dropNulls : Bool) : List String → Tree → Tree
  | [], tree => tree
  | name :: names, tree => readAll dropNulls names (tree.property dropNulls name)

theorem propertyOfItems_eq (items : List Tree) :
    propertyOfItems dropNulls name items = items.flatMap fun item => (item.property dropNulls name).spliced dropNulls := by
  induction items with
  | nil => rfl
  | cons item items ih => rw [propertyOfItems, ih, List.flatMap_cons]

theorem property_array (hname : isSizeName name = false) (items : List Tree) :
    (array items).property dropNulls name =
      array (items.flatMap fun item => (item.property dropNulls name).spliced dropNulls) := by
  rw [property, hname, if_neg Bool.false_ne_true, propertyOfItems_eq]

theorem property_array_size (hname : isSizeName name = true) (items : List Tree) :
    (array items).property dropNulls name = integer items.length := by
  rw [property, hname, if_pos rfl]

theorem property_object (hname : isSizeName name = false) (entries : Entries Tree) :
    (object entries).property dropNulls name = (Entries.find? entries name).getD null := by
  rw [property, Entries.property, hname, Bool.and_false, if_neg Bool.false_ne_true]

theorem property_of_isScalar (hscalar : tree.isScalar = true) (htext : tree.objectTextFree = true) :
    tree.property dropNulls name = null := by
  cases tree with
  | string text =>
      have hnone : embeddedObject? text = none := by
        simpa [objectTextFree, everywhere, isObjectText] using htext
      rw [property, hnone]
  | array items => cases hscalar
  | object entries => cases hscalar
  | record handle entries => cases hscalar
  | _ => rfl

theorem spliced_of_isNothing (hnothing : tree.isNothing = true) : tree.spliced true = [] := by
  cases tree with
  | null => rfl
  | array items => exact List.isEmpty_iff.mp hnothing
  | _ => cases hnothing

theorem spliced_of_single (hnull : tree.isNull = false) (harray : tree.isArray = false) (dropNulls : Bool) :
    tree.spliced dropNulls = [tree] := by
  cases tree with
  | null => cases hnull
  | array items => cases harray
  | _ => rfl

theorem everywhere_spliced {test : Tree → Bool} (htest : tree.everywhere test = true) :
    ∀ item ∈ tree.spliced dropNulls, item.everywhere test = true := by
  cases tree with
  | array items => exact (everywhere_array.mp htest).2
  | null => cases dropNulls <;> simp [spliced, htest]
  | _ => simpa [spliced] using htest

theorem everywhere_entriesProperty {test : Tree → Bool} {entries : Entries Tree} (hinteger : ∀ n, test (integer n) = true)
    (hnull : test null = true) (htest : ∀ entry ∈ entries, entry.2.everywhere test = true) (name : String) :
    (entries.property name).everywhere test = true := by
  rw [Entries.property]
  split
  · exact hinteger _
  · exact Entries.everywhere_getD_find? hnull htest name

/-- What a property gives is part of the tree, or a new number or array. -/
theorem everywhere_property {test : Tree → Bool} (hinteger : ∀ n, test (integer n) = true) (hnull : test null = true)
    (harray : ∀ items, test (array items) = true) (hrecordFree : tree.recordFree = true)
    (htext : tree.objectTextFree = true) (htest : tree.everywhere test = true) :
    (tree.property dropNulls name).everywhere test = true := by
  induction tree using Tree.induction with
  | scalar tree hscalar => rw [property_of_isScalar hscalar htext]; exact hnull
  | array items ih =>
      cases hname : isSizeName name with
      | true => rw [property_array_size hname]; exact hinteger _
      | false =>
          rw [property_array hname, everywhere_array]
          refine ⟨harray _, fun found hfound => ?_⟩
          obtain ⟨item, hitem, hfound⟩ := List.mem_flatMap.mp hfound
          have hvalue := ih item hitem ((everywhere_array.mp hrecordFree).2 item hitem)
            ((everywhere_array.mp htext).2 item hitem) ((everywhere_array.mp htest).2 item hitem)
          exact everywhere_spliced hvalue found hfound
  | object entries _ => exact everywhere_entriesProperty hinteger hnull (everywhere_object.mp htest).2 name
  | record handle entries _ => cases hrecordFree

theorem recordFree_of_embeddedObject? {text : String} {entries : Entries Tree}
    (hembedded : embeddedObject? text = some entries) : (object entries).recordFree = true := by
  simp only [embeddedObject?] at hembedded
  split at hembedded
  · split at hembedded
    · next hparse =>
        obtain rfl := Option.some.inj hembedded
        exact Json.recordFree_of_parseChars hparse
    · cases hembedded
  · cases hembedded

theorem recordFree_property (hrecordFree : tree.recordFree = true) :
    (tree.property dropNulls name).recordFree = true := by
  have hobject : ∀ entries, (object entries).recordFree = true → (Entries.property entries name).recordFree = true :=
    fun entries hentries => everywhere_entriesProperty (fun _ => rfl) rfl (everywhere_object.mp hentries).2 name
  induction tree using Tree.induction with
  | scalar tree hscalar =>
      cases tree with
      | string text =>
          rw [property]
          split
          · next hembedded => exact hobject _ (recordFree_of_embeddedObject? hembedded)
          · rfl
      | array items => cases hscalar
      | object entries => cases hscalar
      | record handle entries => cases hscalar
      | _ => rfl
  | array items ih =>
      cases hname : isSizeName name with
      | true =>
          rw [property_array_size hname]
          rfl
      | false =>
          rw [property_array hname]
          refine everywhere_array.mpr ⟨rfl, fun found hfound => ?_⟩
          obtain ⟨item, hitem, hfound⟩ := List.mem_flatMap.mp hfound
          exact everywhere_spliced (ih item hitem ((everywhere_array.mp hrecordFree).2 item hitem)) found hfound
  | object entries _ => exact hobject entries hrecordFree
  | record handle entries _ => cases hrecordFree

theorem recordFree_readAll {names : List String} (hrecordFree : tree.recordFree = true) :
    (tree.readAll dropNulls names).recordFree = true := by
  induction names generalizing tree with
  | nil => exact hrecordFree
  | cons name names ih => exact ih (recordFree_property hrecordFree)

theorem readAll_concat (tree : Tree) (names : List String) (last : String) :
    tree.readAll dropNulls (names ++ [last]) = (tree.readAll dropNulls names).property dropNulls last := by
  induction names generalizing tree with
  | nil => rfl
  | cons name names ih => exact ih _

theorem readAll_null (names : List String) : readAll dropNulls names null = null := by
  induction names with
  | nil => rfl
  | cons name names ih => exact ih

/-- From an array the properties are read item by item. -/
theorem readAll_array {names : List String} (hnonempty : names ≠ []) (hnames : ∀ name ∈ names, isSizeName name = false)
    (items : List Tree) :
    (array items).readAll dropNulls names =
      array (items.flatMap fun item => (item.readAll dropNulls names).spliced dropNulls) := by
  induction names generalizing items with
  | nil => exact absurd rfl hnonempty
  | cons name names ih =>
      obtain ⟨hname, hnames⟩ := List.forall_mem_cons.mp hnames
      cases names with
      | nil => exact property_array hname items
      | cons next names =>
          have hitem (tree : Tree) : ((tree.spliced dropNulls).flatMap fun found =>
              (found.readAll dropNulls (next :: names)).spliced dropNulls) =
              (tree.readAll dropNulls (next :: names)).spliced dropNulls := by
            cases tree with
            | array items => rw [ih (List.cons_ne_nil _ _) hnames]; rfl
            | null => rw [readAll_null]; cases dropNulls <;> simp [spliced, readAll_null]
            | _ => exact List.flatMap_singleton ..
          rw [readAll, property_array hname, ih (List.cons_ne_nil _ _) hnames, List.flatMap_assoc]
          simp only [hitem]
          rfl

end Tree

/-- Properties one after another. -/
def Segment.ofNames (names : List String) : List Segment := names.map fun name => .property (.ofText name) false

theorem Segment.ofNames_cons (name : String) (names : List String) :
    ofNames (name :: names) = .property name false :: ofNames names := rfl

theorem Segment.ofNames_concat (names : List String) (last : String) :
    ofNames (names ++ [last]) = ofNames names ++ [.property last false] := by
  rw [ofNames, List.map_append]
  rfl

theorem Segment.applyAll_ofNames {root tree : Tree} {dropNulls : Bool} (names : List String) :
    Segment.applyAll root dropNulls (Segment.ofNames names) tree =
      .ok (tree.readAll dropNulls names) := by
  induction names generalizing tree with
  | nil => rw [ofNames, List.map_nil, Segment.applyAll, Tree.readAll]
  | cons name names ih =>
      rw [ofNames_cons, Segment.applyAll, Segment.apply, Tree.readAll, ← ih]
      rfl

/-- **Paths of properties distribute over arrays.** From an array such a path gives what it gives from the items, one
after another: the items of each result that is an array, each other result as it is, and a null for each null unless
nulls are dropped. -/
theorem Path.eval_array {path : Path} {names : List String} (hpath : path.segments = Segment.ofNames names)
    (hnonempty : names ≠ []) (hnames : ∀ name ∈ names, isSizeName name = false) (items : List Tree) :
    ∃ results, items.mapM path.eval = .ok results ∧
      path.eval (.array items) = .ok (.array (results.flatMap (Tree.spliced path.dropNulls))) := by
  have heval (tree : Tree) : path.eval tree = .ok (tree.readAll path.dropNulls names) := by
    rw [eval, hpath, Segment.applyAll_ofNames]
  refine ⟨items.map (Tree.readAll path.dropNulls names), ?_, ?_⟩
  · rw [funext heval]
    exact List.mapM_pure
  · rw [heval, Tree.readAll_array hnonempty hnames, List.flatMap_map]

/-- The first property gives an array with a null, a text that reads as an object and a number; the nulls are kept. -/
theorem Path.eval_array_nulls :
    let path := Path.mk "$.a.b" [.property "a" false, .property "b" false] false false
    let items := [Tree.object [("a", .array [.object [("b", .array [.integer 1, .null])], .null])], .integer 2,
      .object [("a", .string "\x7b\"b\":3\x7d")]]
    items.mapM path.eval = .ok [.array [.integer 1, .null, .null], .null, .integer 3] ∧
      path.eval (.array items) = .ok (.array [.integer 1, .null, .null, .null, .integer 3]) := by
  intro path items
  have hpath : path.segments = Segment.ofNames ["a", "b"] := rfl
  obtain ⟨results, hresults, hall⟩ := eval_array hpath (by decide) (by decide) items
  have heach : items.mapM path.eval = .ok [.array [.integer 1, .null, .null], .null, .integer 3] := rfl
  rw [heach] at hresults
  cases hresults
  exact ⟨heach, hall⟩

theorem Path.contains_eq (path : Path) (root : Tree) :
    path.contains root = (path.eval root).map fun found => !found.isNothing := by
  rw [contains]
  cases path.eval root with
  | error fault => rfl
  | ok found => cases found <;> rfl

end TreeQuery
