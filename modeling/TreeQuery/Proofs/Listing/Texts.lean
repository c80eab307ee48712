import TreeQuery.Proofs.Edit.Places
import TreeQuery.Proofs.Listing.Addresses
import TreeQuery.Proofs.Listing.Nodes

/-!
# Listed paths are different

Steps are read back from the text of an address, so that nodes have different texts. Only an empty key at the root is
no step: what it holds has the path of the root itself.
-/

namespace TreeQuery

variable {tree child node : Tree} {step : Step} {address : Address} {path : String}

/-! ### Reading texts back -/

/-- What a step asks for. -/
def Step.name : Step → String
  | key name => name
  | position index => toString index

theorem toList_toString_nat (n : Nat) : (toString n).toList = Nat.toDigits 10 n := Nat.toList_repr

theorem toString_nat_inj {n m : Nat} (heq : toString n = toString m) : n = m := by
  have hdigits := congrArg (fun text => digitsValue text.toList) heq
  simpa only [toList_toString_nat, digitsValue_toDigits] using hdigits

theorem splitName_of_isNameChar {name rest : List Char} (hname : ∀ c ∈ name, isNameChar c = true)
    (hrest : EndsName rest) : splitName (name ++ rest) = (some name, rest) := by
  induction name with
  | nil => exact splitName_of_endsName hrest
  | cons c name ih =>
      obtain ⟨hc, hothers⟩ := List.forall_mem_cons.mp hname
      rw [List.cons_append, splitName_nameChar hc, ih hothers]
      rfl

theorem isNameChar_of_isDigit {c : Char} (hdigit : c.isDigit = true) : isNameChar c = true := by
  simp [isNameChar, Char.isAlphanum, hdigit]

theorem splitName_step (step : Step) {rest : List Char} (hrest : EndsName rest) :
    splitName (step.text.toList ++ rest) = (some step.name.toList, rest) := by
  cases step with
  | key name =>
      rw [Step.text, Step.name, escapeKey]
      split
      · next hkey =>
          obtain ⟨-, hdigits, -⟩ := isIndexKey_facts hkey
          exact splitName_of_isNameChar (fun c hmem => isNameChar_of_isDigit (hdigits c hmem)) hrest
      · rw [String.toList_ofList]
        exact splitName_escapeName hrest
  | position index =>
      refine splitName_of_isNameChar (fun c hmem => isNameChar_of_isDigit ?_) hrest
      rw [Step.text, toList_toString_nat] at hmem
      exact Nat.isDigit_of_mem_toDigits (by decide) (by decide) hmem

theorem Step.eq_key_of_text_eq_empty (htext : step.text = "") : step = .key "" := by
  have hend : EndsName [] := by simp [EndsName]
  have hread := splitName_step step hend
  rw [htext] at hread
  have hname : step.name = "" :=
    String.toList_eq_nil_iff.mp (Option.some.inj (Prod.mk.inj hread).1).symm
  cases step with
  | key name => rw [show name = "" from hname]
  | position index =>
      have hdigits := congrArg String.toList hname
      rw [Step.name, toList_toString_nat] at hdigits
      exact absurd hdigits Nat.toDigits_ne_nil

/-- The steps of an address, each behind a slash. -/
def Address.trail (address : Address) : List Char := address.flatMap fun step => '/' :: step.text.toList

theorem Address.trail_cons (step : Step) (address : Address) :
    trail (step :: address) = '/' :: (step.text.toList ++ trail address) := List.flatMap_cons

theorem Address.endsName_trail (address : Address) : EndsName address.trail := by
  cases address with
  | nil => simp [trail, EndsName]
  | cons step address => exact endsName_cons.mpr (by decide)

theorem Address.map_name_of_trail {address other : Address} (htrail : address.trail = other.trail) :
    address.map Step.name = other.map Step.name := by
  induction address generalizing other with
  | nil =>
      cases other with
      | nil => rfl
      | cons step other => cases htrail
  | cons step address ih =>
      cases other with
      | nil => cases htrail
      | cons step' other =>
          rw [trail_cons, trail_cons] at htrail
          have htexts := (List.cons.inj htrail).2
          have hread := splitName_step step (Address.endsName_trail address)
          rw [htexts, splitName_step step' (Address.endsName_trail other)] at hread
          obtain ⟨hname, hrest⟩ := Prod.mk.inj hread
          rw [List.map_cons, List.map_cons, ih hrest.symm, String.toList_inj.mp (Option.some.inj hname)]

/-! ### Texts of addresses -/

/-- In one tree the steps to different children ask for different names. -/
theorem Tree.step_eq_of_name {step' : Step} {child' : Tree} (hchild : tree.under? step = some child)
    (hchild' : tree.under? step' = some child') (hname : step.name = step'.name) : step = step' := by
  cases tree with
  | array items =>
      cases step with
      | key name => cases hchild
      | position index =>
          cases step' with
          | key name => cases hchild'
          | position index' => rw [toString_nat_inj hname]
  | object entries =>
      cases step with
      | key name =>
          cases step' with
          | key name' => rw [show name = name' from hname]
          | position index => cases hchild'
      | position index => cases hchild
  | _ => cases step <;> cases hchild

theorem Tree.address_eq_of_names {other : Address} {found : Tree} (hnode : tree.at? address = some node)
    (hfound : tree.at? other = some found) (hnames : address.map Step.name = other.map Step.name) :
    address = other := by
  induction address generalizing tree other with
  | nil =>
      cases other with
      | nil => rfl
      | cons step other => cases hnames
  | cons step address ih =>
      cases other with
      | nil => cases hnames
      | cons step' other =>
          obtain ⟨hname, hothers⟩ := List.cons.inj hnames
          obtain ⟨child, hchild, hnode⟩ := at?_cons_eq_some.mp hnode
          obtain ⟨child', hchild', hfound⟩ := at?_cons_eq_some.mp hfound
          obtain rfl := step_eq_of_name hchild hchild' hname
          obtain rfl : child = child' := Option.some.inj (hchild.symm.trans hchild')
          rw [ih hnode hfound hothers]

/-- Paths of two characters or more only grow by their steps. -/
theorem Address.toList_textBelow (hlong : 2 ≤ path.toList.length) (address : Address) :
    (textBelow path address).toList = path.toList ++ trail address := by
  induction address generalizing path with
  | nil => exact (List.append_nil _).symm
  | cons step address ih =>
      have hpath : path ≠ "/" := by
        rintro rfl
        exact absurd hlong (by decide)
      have hchild : (Listing.childPath path step.text).toList = path.toList ++ '/' :: step.text.toList := by
        rw [toList_childPath, stem, if_neg (by simpa using hpath)]
      have hgrown : 2 ≤ (Listing.childPath path step.text).toList.length := by
        rw [hchild, List.length_append]
        omega
      calc
        _ = (Listing.childPath path step.text).toList ++ trail address := ih hgrown
        _ = path.toList ++ trail (step :: address) := by
          rw [hchild, trail_cons, List.append_assoc, List.cons_append]

theorem Address.toList_text_cons (hstep : step ≠ .key "") (address : Address) :
    (text (step :: address)).toList = trail (step :: address) := by
  have hne : step.text.toList ≠ [] := fun hnil =>
    hstep (Step.eq_key_of_text_eq_empty (String.toList_eq_nil_iff.mp hnil))
  have hchild : (Listing.childPath "/" step.text).toList = '/' :: step.text.toList := toList_childPath _ _
  have hlong : 2 ≤ (Listing.childPath "/" step.text).toList.length := by
    have hpos := List.length_pos_iff.mpr hne
    rw [hchild, List.length_cons]
    omega
  calc
    _ = (Listing.childPath "/" step.text).toList ++ trail address := toList_textBelow hlong address
    _ = trail (step :: address) := by rw [hchild, trail_cons, List.cons_append]

theorem Address.text_cons_ne (hstep : step ≠ .key "") (address : Address) : text (step :: address) ≠ "/" := by
  intro htext
  have hchars := congrArg String.toList htext
  rw [toList_text_cons hstep, trail_cons] at hchars
  have hnil : step.text.toList = [] := (List.append_eq_nil_iff.mp (List.cons.inj hchars).2).1
  exact hstep (Step.eq_key_of_text_eq_empty (String.toList_eq_nil_iff.mp hnil))

theorem Tree.address_eq_of_text {other : Address} {found : Tree} (hnode : tree.at? address = some node)
    (hfound : tree.at? other = some found) (haddress : address.head? ≠ some (.key ""))
    (hother : other.head? ≠ some (.key "")) (htext : address.text = other.text) : address = other := by
  cases address with
  | nil =>
      cases other with
      | nil => rfl
      | cons step other => exact absurd htext.symm (Address.text_cons_ne (by simpa using hother) other)
  | cons step address =>
      cases other with
      | nil => exact absurd htext (Address.text_cons_ne (by simpa using haddress) address)
      | cons step' other =>
          have htrail := congrArg String.toList htext
          rw [Address.toList_text_cons (by simpa using haddress), Address.toList_text_cons (by simpa using hother)]
            at htrail
          exact address_eq_of_names hnode hfound (Address.map_name_of_trail htrail)

/-! ### Inserting members one after another -/

namespace Entries

variable {α : Type} {name : String} {value : α} {entries members : Entries α}

theorem length_insert_le (name : String) (value : α) (entries : Entries α) :
    (insert name value entries).length ≤ entries.length + 1 := by
  induction entries with
  | nil => exact Nat.le_refl _
  | cons entry entries ih =>
      rw [insert]
      split <;> simp only [List.length_cons] <;> omega

/-- Later members of a name replace earlier ones. -/
def insertAll (entries members : Entries α) : Entries α :=
  members.foldl (fun entries member => insert member.1 member.2 entries) entries

theorem length_insertAll_le (entries members : Entries α) :
    (insertAll entries members).length ≤ entries.length + members.length := by
  induction members generalizing entries with
  | nil => exact Nat.le_refl _
  | cons member members ih =>
      calc
        _ ≤ (insert member.1 member.2 entries).length + members.length := ih _
        _ ≤ entries.length + 1 + members.length := Nat.add_le_add_right (length_insert_le _ _ _) _
        _ = entries.length + (member :: members).length := by rw [List.length_cons]; omega

theorem length_insertAll_lt (hentries : name ∈ entries.keys) (hmembers : name ∈ members.keys) :
    (insertAll entries members).length < entries.length + members.length := by
  induction members generalizing entries with
  | nil => cases hmembers
  | cons member members ih =>
      rcases List.mem_cons.mp hmembers with rfl | hothers
      · calc
          _ ≤ (insert member.1 member.2 entries).length + members.length := length_insertAll_le _ _
          _ = entries.length + members.length := by rw [length_insert_of_mem hentries]
          _ < entries.length + (member :: members).length := by rw [List.length_cons]; omega
      · calc
          _ < (insert member.1 member.2 entries).length + members.length :=
            ih ((keys_prefix_insert _ _ _).subset hentries) hothers
          _ ≤ entries.length + 1 + members.length := Nat.add_le_add_right (length_insert_le _ _ _) _
          _ = entries.length + (member :: members).length := by rw [List.length_cons]; omega

theorem find?_insertAll_of_not_mem (hname : name ∉ members.keys) :
    find? (insertAll entries members) name = find? entries name := by
  induction members generalizing entries with
  | nil => rfl
  | cons member members ih =>
      obtain ⟨hne, hothers⟩ := not_or.mp (mt List.mem_cons.mpr hname)
      exact (ih hothers).trans (find?_insert_of_ne hne member.2 entries)

theorem mem_of_find?_insertAll (hname : name ∈ members.keys)
    (hfind : find? (insertAll entries members) name = some value) : (name, value) ∈ members := by
  induction members generalizing entries with
  | nil => cases hname
  | cons member members ih =>
      by_cases hothers : name ∈ keys members
      · exact List.mem_cons_of_mem _ (ih hothers hfind)
      · obtain rfl := (List.mem_cons.mp hname).resolve_right hothers
        have hlast : some value = some member.2 :=
          calc
            some value = find? (insert member.1 member.2 entries) member.1 :=
              (find?_insertAll_of_not_mem hothers).symm.trans hfind |>.symm
            _ = some member.2 := find?_insert_self _ _ _
        rw [Option.some.inj hlast]
        exact List.mem_cons_self

end Entries

/-! ### Listings -/

namespace Tree

/-- What is not null behind an empty key of the root. -/
def HidesRoot (tree : Tree) : Prop := ∃ child, tree.under? (.key "") = some child ∧ child.isNull = false

theorem head?_ne_of_mem_nodes (hdistinct : tree.keysDistinct = true) (hroot : ¬tree.HidesRoot)
    (hmem : (address, node) ∈ tree.nodes) : address.head? ≠ some (.key "") := by
  intro hhead
  obtain ⟨hat, hnull⟩ := (mem_nodes hdistinct).mp hmem
  cases address with
  | nil => cases hhead
  | cons step address =>
      obtain rfl := Option.some.inj hhead
      obtain ⟨child, hchild, hat⟩ := at?_cons_eq_some.mp hat
      exact hroot ⟨child, hchild, isNull_of_at? hat hnull⟩

theorem nodup_texts (hdistinct : tree.keysDistinct = true) (hroot : ¬tree.HidesRoot) :
    (Entries.keys tree.namedNodes).Nodup := by
  rw [namedNodes, Entries.keys, List.map_map, List.nodup_iff_pairwise_ne, List.pairwise_map]
  refine (List.pairwise_map.mp (nodup_nodes hdistinct)).imp_of_mem fun hleft hright hne htext => hne ?_
  exact address_eq_of_text ((mem_nodes hdistinct).mp hleft).1 ((mem_nodes hdistinct).mp hright).1
    (head?_ne_of_mem_nodes hdistinct hroot hleft) (head?_ne_of_mem_nodes hdistinct hroot hright) htext

theorem namedNodes_eq (hnull : tree.isNull = false) :
    ∃ below, tree.namedNodes = ("/", tree) :: below ∧
      ∀ name value, (name, value) ∈ below → ∃ step address, (step :: address, value) ∈ tree.nodes := by
  refine ⟨_, by rw [namedNodes, nodes_eq hnull, List.map_cons]; rfl, fun name value hmem => ?_⟩
  obtain ⟨slot, hslot, heq⟩ := List.mem_map.mp hmem
  obtain ⟨-, rfl⟩ := Prod.mk.inj heq
  obtain ⟨child, hchild, hbelow⟩ := List.mem_flatMap.mp hslot
  obtain ⟨rest, hrest, rfl⟩ := List.mem_map.mp hbelow
  refine ⟨child.1, rest.1, ?_⟩
  rw [nodes_eq hnull]
  exact List.mem_cons_of_mem _ hslot

/-- **Listings lose nothing but a hidden root.** Every node that is not null has one entry of a tree's listing, in
document order and under a path of its own, and the tree itself is found at the root, unless an entry of the root with
an empty key has its path. -/
theorem listing_nodes (hrecords : tree.recordFree = true) (hdistinct : tree.keysDistinct = true) :
    ((tree.nodes.map Prod.fst).Nodup ∧
        ∀ address node, (address, node) ∈ tree.nodes ↔ tree.at? address = some node ∧ node.isNull = false) ∧
      (¬tree.HidesRoot →
        tree.listing = (tree.nodes.map fun node => (node.1.text, node.2)) ∧ (Entries.keys tree.listing).Nodup ∧
          (tree.isNull = false → tree.listing.head? = some ("/", tree))) ∧
      (tree.HidesRoot → tree.listing.length < tree.nodes.length ∧ Entries.find? tree.listing "/" ≠ some tree) := by
  refine ⟨⟨nodup_nodes hdistinct, fun _ _ => mem_nodes hdistinct⟩, fun hroot => ?_, fun hroot => ?_⟩
  · have hnodup := nodup_texts hdistinct hroot
    have hlisting : tree.listing = tree.namedNodes := by
      rw [listing_eq_ofList hrecords, Entries.ofList_of_nodup hnodup]
    rw [hlisting]
    refine ⟨rfl, hnodup, fun hnull => ?_⟩
    obtain ⟨below, hbelow, -⟩ := namedNodes_eq hnull
    rw [hbelow, List.head?_cons]
  · obtain ⟨child, hchild, hnull⟩ := hroot
    obtain ⟨below, hbelow, hdeeper⟩ := namedNodes_eq (isNull_of_under? hchild)
    have hat : tree.at? [.key ""] = some child := at?_cons hchild
    have hempty : ([.key ""], child) ∈ tree.nodes := (mem_nodes hdistinct).mpr ⟨hat, hnull⟩
    have htext : Address.text [.key ""] = "/" := by decide
    -- What is behind the empty key comes after the root in the listing, and takes its place there.
    have hagain : "/" ∈ Entries.keys below := by
      have hmem : (Address.text [.key ""], child) ∈ tree.namedNodes :=
        List.mem_map_of_mem (f := fun node : Address × Tree => (node.1.text, node.2)) hempty
      rw [htext, hbelow] at hmem
      rcases List.mem_cons.mp hmem with heq | hmem
      · exact absurd (Prod.mk.inj heq).2 (ne_of_at?_cons hat)
      · exact List.mem_map_of_mem hmem
    have hlisting : tree.listing = Entries.insertAll [("/", tree)] below := by
      rw [listing_eq_ofList hrecords, hbelow]
      rfl
    rw [hlisting]
    constructor
    · have hlength := congrArg List.length hbelow
      have hfirst : "/" ∈ Entries.keys [("/", tree)] := List.mem_singleton.mpr rfl
      have hlt := Entries.length_insertAll_lt hfirst hagain
      rw [namedNodes, List.length_map, List.length_cons] at hlength
      rw [List.length_singleton] at hlt
      omega
    · intro hfind
      obtain ⟨step, address, hmem⟩ := hdeeper _ _ (Entries.mem_of_find?_insertAll hagain hfind)
      exact ne_of_at?_cons ((mem_nodes hdistinct).mp hmem).1 rfl

/-- Keys with slashes and empty keys below the root, a null and an array. -/
theorem listing_nodes_slashes :
    let tree := object [("a/b", object [("", integer 1)]), ("a", object [("b", array [null, bool true])])]
    tree.listing = (tree.nodes.map fun node => (node.1.text, node.2)) ∧
      tree.listing.head? = some ("/", tree) ∧
      Entries.keys tree.listing = ["/", "/a\\/b", "/a\\/b/", "/a", "/a/b", "/a/b/1"] := by
  intro tree
  have hdistinct : tree.keysDistinct = true := by decide
  have hroot : ¬tree.HidesRoot := by
    rintro ⟨child, hchild, -⟩
    cases hchild
  obtain ⟨-, hcomplete, -⟩ := listing_nodes (rfl : tree.recordFree = true) hdistinct
  obtain ⟨hlisting, -, hhead⟩ := hcomplete hroot
  exact ⟨hlisting, hhead rfl, by decide⟩

/-- An entry with an empty key replaces the root in the listing. -/
theorem listing_nodes_hidden :
    let tree := object [("", integer 1)]
    (tree.recordFree = true ∧ tree.keysDistinct = true) ∧ tree.nodes = [([], tree), ([.key ""], integer 1)] ∧
      tree.listing = [("/", integer 1)] := by
  exact ⟨⟨rfl, by decide⟩, rfl, rfl⟩

end Tree

end TreeQuery
