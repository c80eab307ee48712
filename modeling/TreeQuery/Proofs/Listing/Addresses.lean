import TreeQuery.Proofs.Listing.Steps

/-!
# Listed paths are addresses

Every path of a listing leads back to the node that it is listed with, whatever the keys on the way are.
-/

namespace TreeQuery

namespace Tree

def ownKeysNonempty (tree : Tree) : Bool := !tree.ownEntries.keys.contains ""

/-- No object in the tree has an empty key. -/
def keysNonempty (tree : Tree) : Bool := tree.everywhere ownKeysNonempty

def ownLengthFits : Tree → Bool
  | array items => decide (items.length ≤ twoTo 63)
  | _ => true

/-- The positions of every array in the tree fit a word. -/
def lengthsFit (tree : Tree) : Bool := tree.everywhere ownLengthFits

structure Addressable (tree : Tree) : Prop where
  recordFree : tree.recordFree = true
  keysDistinct : tree.keysDistinct = true
  keysNonempty : tree.keysNonempty = true
  lengthsFit : tree.lengthsFit = true

theorem Addressable.of_array {items : List Tree} (htree : Addressable (array items)) :
    items.length ≤ twoTo 63 ∧ ∀ item ∈ items, Addressable item := by
  obtain ⟨-, hrecords⟩ := everywhere_array.mp htree.recordFree
  obtain ⟨-, hnames⟩ := everywhere_array.mp htree.keysNonempty
  obtain ⟨hlength, hlengths⟩ := everywhere_array.mp htree.lengthsFit
  have hkeys := keysDistinct_array.mp htree.keysDistinct
  exact ⟨of_decide_eq_true hlength,
    fun item hmem => ⟨hrecords item hmem, hkeys item hmem, hnames item hmem, hlengths item hmem⟩⟩

theorem Addressable.of_object {entries : Entries Tree} (htree : Addressable (object entries)) :
    entries.keys.Nodup ∧ "" ∉ entries.keys ∧ ∀ entry ∈ entries, Addressable entry.2 := by
  obtain ⟨-, hrecords⟩ := everywhere_object.mp htree.recordFree
  obtain ⟨hname, hnames⟩ := everywhere_object.mp htree.keysNonempty
  obtain ⟨-, hlengths⟩ := everywhere_object.mp htree.lengthsFit
  obtain ⟨hnodup, hkeys⟩ := keysDistinct_object.mp htree.keysDistinct
  have hempty : "" ∉ entries.keys := by simpa [ownKeysNonempty, ownEntries] using hname
  exact ⟨hnodup, hempty, fun entry hmem =>
    ⟨hrecords entry hmem, hkeys entry hmem, hnames entry hmem, hlengths entry hmem⟩⟩

theorem Addressable.not_record {handle : Nat} {entries : Entries Tree} : ¬Addressable (record handle entries) := by
  intro htree
  have hrecords := htree.recordFree
  rw [Tree.recordFree, everywhere, Bool.and_eq_true] at hrecords
  cases hrecords.1

end Tree

/-! ### Addresses -/

/-- The text of a path in front of a further step. -/
def stem (path : String) : List Char := if path == "/" then [] else path.toList

theorem toList_childPath (path step : String) :
    (Listing.childPath path step).toList = stem path ++ '/' :: step.toList := by
  rw [Listing.childPath, stem]
  split <;> simp

theorem childPath_ne {path step : String} (hstep : step ≠ "") : Listing.childPath path step ≠ "/" := by
  intro heq
  have hlength := congrArg (fun path => path.toList.length) heq
  have hroot : "/".toList.length = 1 := rfl
  simp only [toList_childPath, List.length_append, List.length_cons, hroot] at hlength
  have hnil : step.toList = [] := List.eq_nil_of_length_eq_zero (by omega)
  exact hstep (String.toList_eq_nil_iff.mp hnil)

/-- The path leads along plain segments from the root to the node. -/
structure Leads (root : Tree) (path : String) (segments : List Segment) (node : Tree) : Prop where
  atRoot : path = "/" ↔ segments = []
  isPlain : ∀ segment ∈ segments, segment.isPlain = true
  descend : root.descend? segments = some node
  text : ∀ {rest more}, PathText rest more → PathText (stem path ++ rest) (segments ++ more)

theorem Leads.root (root : Tree) : Leads root "/" [] root where
  atRoot := iff_of_true rfl rfl
  isPlain := by simp
  descend := rfl
  text := id

theorem Leads.child {root node child : Tree} {path step : String} {segments : List Segment} {segment : Segment}
    (hleads : Leads root path segments node) (hstep : IsStep step segment) (hchild : node.child? segment = some child) :
    Leads root (Listing.childPath path step) (segments ++ [segment]) child where
  atRoot := iff_of_false (childPath_ne hstep.ne_empty) (by simp)
  isPlain := by
    intro other hmem
    rcases List.mem_append.mp hmem with hmem | hmem
    · exact hleads.isPlain other hmem
    · rw [List.mem_singleton.mp hmem]
      exact hstep.isPlain
  descend := by rw [Tree.descend?_append hleads.descend, hchild]
  text := by
    intro rest more hrest
    have hstem : stem (Listing.childPath path step) = stem path ++ '/' :: step.toList := by
      rw [stem, if_neg (by simpa using childPath_ne hstep.ne_empty), toList_childPath]
    -- Paths grow at their end but are read from their start, so what follows is carried along.
    have hcons : PathText ('/' :: step.toList ++ rest) (segment :: more) :=
      .cons (by decide) (hstep.reads hrest.endsSegment) hrest
    rw [hstem, List.append_assoc, List.append_assoc]
    exact hleads.text hcons

theorem Leads.eval {root node : Tree} {path : String} {segments : List Segment} (hleads : Leads root path segments node)
    (hnull : node.isNull = false) (dropNulls : Bool) :
    ∃ compiled, Path.compile path dropNulls = .ok compiled ∧ compiled.eval root = .ok node := by
  refine ⟨.mk path segments false dropNulls, ?_,
    Segment.applyAll_of_descend? hleads.isPlain hleads.descend fun _ _ _ => hnull⟩
  cases hsegments : segments with
  | nil =>
      rw [hleads.atRoot.mpr hsegments]
      rfl
  | cons first others =>
      have hne : segments ≠ [] := by simp [hsegments]
      have hstem : stem path = path.toList := by
        rw [stem, if_neg (by simpa using fun hpath => hne (hleads.atRoot.mp hpath))]
      have htext := hleads.text .nil
      rw [List.append_nil, List.append_nil, hstem] at htext
      rw [← hsegments, ← String.ofList_toList (s := path)]
      exact htext.compile hne dropNulls

/-! ### Listings -/

namespace Listing

/-- Every listed path leads to the node it is listed with, which is not null. -/
def Sound (root : Tree) (listing : Listing) : Prop :=
  ∀ entry ∈ listing.nodes, entry.2.isNull = false ∧ ∃ segments, Leads root entry.1 segments entry.2

variable {root : Tree}

theorem Sound.add {listing : Listing} (hlisting : Sound root listing) {path : String} {segments : List Segment}
    {node : Tree} (hleads : Leads root path segments node) (hnull : node.isNull = false) :
    Sound root (listing.add path node) := by
  intro entry hmem
  rcases Entries.mem_insert hmem with rfl | hmem
  · exact ⟨hnull, segments, hleads⟩
  · exact hlisting entry hmem

mutual

/-- Listing a node keeps a listing sound: the node is at its path, and so is everything below it. -/
theorem Sound.collect : ∀ {node : Tree} {path : String} {segments : List Segment} {listing : Listing},
    Leads root path segments node → node.Addressable → Sound root listing →
      Sound root (Listing.collect path node listing)
  | .null, _, _, _, _, _, hlisting => hlisting
  | .array items, path, segments, listing, hleads, htree, hlisting => by
      obtain ⟨hlength, hitems⟩ := htree.of_array
      rw [Listing.collect]
      exact @Sound.collectItems items [] _ _ _ hleads hlength hitems (hlisting.add hleads rfl)
  | .object entries, path, segments, listing, hleads, htree, hlisting => by
      obtain ⟨hnodup, hempty, hentries⟩ := htree.of_object
      rw [Listing.collect]
      exact @Sound.collectEntries entries [] _ _ _ hleads hnodup hempty hentries (hlisting.add hleads rfl)
  | .record _ _, _, _, _, _, htree, _ => absurd htree Tree.Addressable.not_record
  | .bool _, _, _, _, hleads, _, hlisting => hlisting.add hleads rfl
  | .integer _, _, _, _, hleads, _, hlisting => hlisting.add hleads rfl
  | .decimal _, _, _, _, hleads, _, hlisting => hlisting.add hleads rfl
  | .float _, _, _, _, hleads, _, hlisting => hlisting.add hleads rfl
  | .string _, _, _, _, hleads, _, hlisting => hlisting.add hleads rfl

theorem Sound.collectItems : ∀ {items before : List Tree} {path : String} {segments : List Segment} {listing : Listing},
    Leads root path segments (.array (before ++ items)) → (before ++ items).length ≤ twoTo 63 →
      (∀ item ∈ items, item.Addressable) → Sound root listing →
      Sound root (Listing.collectItems path before.length items listing)
  | [], _, _, _, _, _, _, _, hlisting => by
      rw [Listing.collectItems]
      exact hlisting
  | item :: items, before, path, segments, listing, hleads, hlength, hitems, hlisting => by
      obtain ⟨hitem, hothers⟩ := List.forall_mem_cons.mp hitems
      -- The items already listed stand before, and their number is the position.
      have hlt : before.length < (before ++ item :: items).length := by simp
      have hword : InWord before.length := ⟨by omega, Int.ofNat_lt.mpr (Nat.lt_of_lt_of_le hlt hlength)⟩
      have hchild : (Tree.array (before ++ item :: items)).child? (.index before.length) = some item := by
        rw [child?_position hlt]
        simp
      have hfirst := Sound.collect (hleads.child (isStep_position hword) hchild) hitem hlisting
      have hshift : before ++ item :: items = (before ++ [item]) ++ items := by simp
      rw [Listing.collectItems]
      rw [hshift] at hleads hlength
      have hrest := Sound.collectItems hleads hlength hothers hfirst
      rwa [List.length_append] at hrest

theorem Sound.collectEntries : ∀ {entries before : List (String × Tree)} {path : String} {segments : List Segment}
    {listing : Listing}, Leads root path segments (.object (before ++ entries)) →
      (Entries.keys (before ++ entries)).Nodup → "" ∉ Entries.keys (before ++ entries) →
      (∀ entry ∈ entries, entry.2.Addressable) → Sound root listing →
      Sound root (Listing.collectEntries path entries listing)
  | [], _, _, _, _, _, _, _, _, hlisting => by
      rw [Listing.collectEntries]
      exact hlisting
  | (key, value) :: entries, before, path, segments, listing, hleads, hnodup, hempty, hentries, hlisting => by
      obtain ⟨hvalue, hothers⟩ := List.forall_mem_cons.mp hentries
      have hne : key ≠ "" := by
        rintro rfl
        exact hempty (by simp [Entries.keys])
      have hchild : (Tree.object (before ++ (key, value) :: entries)).child? (keySegment key) = some value := by
        -- The lookup finds the first entry of a key, which is this one as keys do not repeat.
        rw [child?_keySegment, Entries.find?_append_cons hnodup]
      have hfirst := Sound.collect (hleads.child (isStep_key hne) hchild) hvalue hlisting
      have hshift : before ++ (key, value) :: entries = (before ++ [(key, value)]) ++ entries := by simp
      rw [Listing.collectEntries]
      rw [hshift] at hleads hnodup hempty
      exact Sound.collectEntries hleads hnodup hempty hothers hfirst

end

end Listing

/-- **Listed paths are addresses.** Each of them compiles, and evaluates to the node that it is listed with. -/
theorem Tree.eval_of_mem_listing {tree : Tree} (hrecords : tree.recordFree = true) (hkeys : tree.keysDistinct = true)
    (hnames : tree.keysNonempty = true) (hlengths : tree.lengthsFit = true) {text : String} {node : Tree}
    (hmem : (text, node) ∈ tree.listing) (dropNulls : Bool) :
    ∃ path, Path.compile text dropNulls = .ok path ∧ path.eval tree = .ok node := by
  have hsound : Listing.Sound tree (Listing.collect "/" tree ⟨[], []⟩) :=
    Listing.Sound.collect (.root tree) ⟨hrecords, hkeys, hnames, hlengths⟩ (by simp [Listing.Sound])
  obtain ⟨hnull, segments, hleads⟩ := hsound (text, node) hmem
  exact hleads.eval hnull dropNulls

/-- A key of digits, a position behind a null, and a key that has to be escaped. -/
theorem Tree.eval_of_mem_listing_digits :
    (∃ path, Path.compile "/7/1" true = .ok path ∧
        path.eval (.object [("7", .array [.null, .string "x"]), ("07.$", .bool true)]) = .ok (.string "x")) ∧
      ∃ path, Path.compile "/\\07\\.$" true = .ok path ∧
        path.eval (.object [("7", .array [.null, .string "x"]), ("07.$", .bool true)]) = .ok (.bool true) :=
  ⟨eval_of_mem_listing rfl rfl rfl rfl (List.mem_of_getElem? (i := 2) rfl) true,
    eval_of_mem_listing rfl rfl rfl rfl (List.mem_of_getElem? (i := 3) rfl) true⟩

end TreeQuery
