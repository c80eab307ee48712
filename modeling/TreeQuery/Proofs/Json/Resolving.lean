import TreeQuery.Proofs.Json.Reading
import TreeQuery.Proofs.Running
import TreeQuery.Proofs.Tree.Everywhere

/-!
# What written trees stand for

A text is read as it is written before its objects are resolved. Where no object repeats a key, and none announces a
number by its first key, a written tree stands for itself, so the value of the text has the shape that the text shows.
-/

namespace TreeQuery

open Json

namespace Tree

def ownAnnouncesNumber : Tree → Bool
  | object members => announcesNumber members
  | _ => false

/-- No object in the tree begins with the key that stands for numbers. -/
def numberKeyFree (tree : Tree) : Bool := tree.everywhere (!·.ownAnnouncesNumber)

theorem recordFree_of_isScalar {tree : Tree} (hscalar : tree.isScalar = true) : tree.recordFree = true := by
  cases tree <;> first | rfl | cases hscalar

end Tree

namespace Json

open Tree

/-- The text is JSON, and no object in it repeats a key. -/
def repeatsNoKey (text : String) : Bool := (parseWritten text.toList).any keysDistinct

/-- The text is JSON, and no object in it begins with the key that stands for numbers. -/
def announcesNoNumber (text : String) : Bool := (parseWritten text.toList).any numberKeyFree

variable {tree found : Tree} {items : List Tree} {members : List (String × Tree)} {depth : Nat} {text : List Char}

/-! ### Items and members -/

theorem resolveItems?_eq_mapM (items : List Tree) : resolveItems? items = items.mapM resolve? := by
  induction items with
  | nil => rfl
  | cons item items ih => rw [resolveItems?, List.mapM_cons, ih]

theorem resolveMembers?_eq_mapM (members : List (String × Tree)) :
    resolveMembers? members =
      members.mapM fun member => (resolve? member.2).map fun value => (member.1, value) := by
  induction members with
  | nil => rfl
  | cons member members ih =>
      rw [resolveMembers?, List.mapM_cons, ih]
      cases resolve? member.2 <;> rfl

/-- Whatever a container stands for, each part of it stands for something. -/
theorem isSome_resolve?_item (hsome : (resolve? (.array items)).isSome = true) :
    ∀ item ∈ items, (resolve? item).isSome = true := by
  rw [resolve?, Option.isSome_map, resolveItems?_eq_mapM] at hsome
  exact isSome_of_isSome_mapM hsome

theorem isSome_resolve?_member (hsome : (resolve? (.object members)).isSome = true) :
    ∀ member ∈ members, (resolve? member.2).isSome = true := by
  obtain ⟨tree, htree⟩ := Option.isSome_iff_exists.mp hsome
  rw [resolve?, resolveMembers?_eq_mapM, Option.bind_eq_some_iff] at htree
  obtain ⟨values, hvalues, -⟩ := htree
  intro member hmem
  simpa using isSome_of_isSome_mapM (Option.isSome_iff_exists.mpr ⟨values, hvalues⟩) member hmem

/-! ### Trees that stand for themselves -/

theorem resolve?_eq_self (hkeys : tree.keysDistinct = true) (hplain : tree.numberKeyFree = true) :
    resolve? tree = some tree := by
  induction tree using Tree.induction with
  | scalar tree hscalar => cases tree <;> first | rfl | cases hscalar
  | array items ih =>
      have hitems : items.mapM resolve? = some items := by
        refine mapM_eq_some_iff.mpr (List.map_congr_left fun item hmem => ?_)
        exact ih item hmem (keysDistinct_array.mp hkeys item hmem) ((everywhere_array.mp hplain).2 item hmem)
      rw [resolve?, resolveItems?_eq_mapM, hitems]
      rfl
  | object members ih =>
      obtain ⟨hnodup, hkeys⟩ := keysDistinct_object.mp hkeys
      obtain ⟨hannounces, hplain⟩ := everywhere_object.mp hplain
      have hmembers : resolveMembers? members = some members := by
        rw [resolveMembers?_eq_mapM]
        refine mapM_eq_some_iff.mpr (List.map_congr_left fun member hmem => ?_)
        rw [ih member hmem (hkeys member hmem) (hplain member hmem)]
        rfl
      have hobject : announcesNumber members = false := by simpa [ownAnnouncesNumber] using hannounces
      rw [resolve?, hmembers, Option.bind_some, ofMembers?, hobject, if_neg Bool.false_ne_true,
        Entries.ofList_of_nodup hnodup]
  | record handle entries _ => rfl

/-- What a tree stands for, if it stands for something. -/
def meaning (tree : Tree) : Tree := (resolve? tree).getD .null

theorem resolve?_eq_meaning (hsome : (resolve? tree).isSome = true) : resolve? tree = some (meaning tree) := by
  obtain ⟨found, hfound⟩ := Option.isSome_iff_exists.mp hsome
  rw [meaning, hfound, Option.getD_some]

theorem meaning_eq_self (hkeys : tree.keysDistinct = true) (hplain : tree.numberKeyFree = true) :
    meaning tree = tree := by
  rw [meaning, resolve?_eq_self hkeys hplain, Option.getD_some]

/-! ### No handles -/

/-- JSON text has no way to write a handle. -/
theorem Spells.recordFree (hspells : Spells depth text tree) : tree.recordFree = true := by
  induction depth generalizing text tree with
  | zero => exact recordFree_of_isScalar (ScalarText.isScalar hspells)
  | succ depth ih =>
      cases hspells with
      | scalar hscalar => exact recordFree_of_isScalar hscalar.isScalar
      | array hitems =>
          refine everywhere_array.mpr ⟨rfl, fun item hmem => ?_⟩
          obtain ⟨text, hitem⟩ := hitems.exists_text item hmem
          exact ih hitem
      | object hmembers =>
          refine everywhere_object.mpr ⟨rfl, fun member hmem => ?_⟩
          obtain ⟨text, hmember⟩ := hmembers.exists_text member hmem
          cases hmember with
          | mk _ _ _ hvalue => exact ih hvalue

theorem recordFree_ofMembers? (hmembers : ∀ member ∈ members, member.2.recordFree = true)
    (hfound : ofMembers? members = some found) : found.recordFree = true := by
  rw [ofMembers?] at hfound
  split at hfound
  · unfold numberOfMembers? numberOfText? at hfound
    split at hfound
    · split at hfound
      · cases hfound
        exact recordFree_of_isScalar (isScalar_ofNumberChars _)
      · cases hfound
    · cases hfound
  · cases hfound
    exact everywhere_object.mpr ⟨rfl, fun entry hmem => hmembers entry (Entries.mem_of_mem_ofList hmem)⟩

theorem recordFree_resolve? (hrecordFree : tree.recordFree = true) (hfound : resolve? tree = some found) :
    found.recordFree = true := by
  induction tree using Tree.induction generalizing found with
  | scalar tree hscalar =>
      have hself : resolve? tree = some tree := by cases tree <;> first | rfl | cases hscalar
      rw [hself] at hfound
      cases hfound
      exact hrecordFree
  | array items ih =>
      rw [resolve?, resolveItems?_eq_mapM, Option.map_eq_some_iff] at hfound
      obtain ⟨values, hvalues, rfl⟩ := hfound
      refine everywhere_array.mpr ⟨rfl, fun value hmem => ?_⟩
      obtain ⟨item, hitem, hvalue⟩ := exists_of_mem_mapM hvalues hmem
      exact ih item hitem ((everywhere_array.mp hrecordFree).2 item hitem) hvalue
  | object members ih =>
      rw [resolve?, resolveMembers?_eq_mapM, Option.bind_eq_some_iff] at hfound
      obtain ⟨values, hvalues, hfound⟩ := hfound
      refine recordFree_ofMembers? (fun value hmem => ?_) hfound
      obtain ⟨member, hmember, hvalue⟩ := exists_of_mem_mapM hvalues hmem
      obtain ⟨resolved, hresolved, rfl⟩ := Option.map_eq_some_iff.mp hvalue
      exact ih member hmember ((everywhere_object.mp hrecordFree).2 member hmember) hresolved
  | record handle entries _ => cases hrecordFree

/-! ### Whole texts -/

theorem parseChars_eq_some_iff :
    parseChars text = some tree ↔ ∃ written, parseWritten text = some written ∧ resolve? written = some tree :=
  Option.bind_eq_some_iff

theorem recordFree_of_parseChars (hparse : parseChars text = some tree) : tree.recordFree = true := by
  obtain ⟨written, hwritten, hresolve⟩ := parseChars_eq_some_iff.mp hparse
  obtain ⟨_, _, _, -, -, -, hspells⟩ := parseWritten_eq_some_iff.mp hwritten
  exact recordFree_resolve? hspells.recordFree hresolve

theorem parse_of_parseWritten {text : String} (hwritten : parseWritten text.toList = some tree)
    (hkeys : tree.keysDistinct = true) (hplain : tree.numberKeyFree = true) : Tree.parse text = some tree :=
  parseChars_eq_some_iff.mpr ⟨tree, hwritten, resolve?_eq_self hkeys hplain⟩

/-- A text in which no object repeats a key or announces a number is the text of the tree that it shows. -/
theorem parseWritten_of_parse {text : String} (hparse : Tree.parse text = some tree) (hkeys : repeatsNoKey text = true)
    (hplain : announcesNoNumber text = true) :
    parseWritten text.toList = some tree ∧ tree.keysDistinct = true ∧ tree.numberKeyFree = true := by
  obtain ⟨written, hwritten, hresolve⟩ := parseChars_eq_some_iff.mp hparse
  rw [repeatsNoKey, hwritten] at hkeys
  rw [announcesNoNumber, hwritten] at hplain
  have hself := resolve?_eq_self hkeys hplain
  rw [hself] at hresolve
  cases hresolve
  exact ⟨hwritten, hkeys, hplain⟩

end Json

end TreeQuery
