import TreeQuery.Proofs.Query.DocumentOrder
import TreeQuery.Proofs.Stream.Deep

/-!
# In and out of a container

A cursor that stands on a value may look into it: for a field, for an item, or for a field at any depth. It counts
brackets on some of these ways and steps over whole values on others. Whatever was found, it ends up behind the value,
at the depth at which it began.

Where a value stands is said by the grammar, from the whole text inwards, and not by the movements that lead there.
-/

namespace TreeQuery

open Json Text TreeQuery.Tree

/-! ### Where a value stands -/

/-- Among the items of a container, the one at an index with its text, and what remains of the container behind it. -/
inductive Json.ItemAt {α : Type} (item : List Char → α → Prop) (close : Char) :
    List Char → List α → Nat → List Char → α → List Char → Prop
  | first {before text rest : List Char} {a : α} {as : List α} (hbefore : Blank before) (hitem : item text a)
      (hrest : RestText item close rest as) : ItemAt item close (before ++ text ++ rest) (a :: as) 0 text a rest
  | later {before other after others text rest : List Char} {a b : α} {as : List α} {index : Nat}
      (hbefore : Blank before) (hother : item other b) (hafter : Blank after)
      (hothers : ItemAt item close others as index text a rest) :
      ItemAt item close (before ++ other ++ after ++ ',' :: others) (b :: as) (index + 1) text a rest

/-- At an address in the text stands what is written for a part of its tree, with at most `nesting` containers open
at once. Behind it comes the last argument, up to the end of the text. -/
inductive Json.StandsAt (text : String) : Address → Nat → List Char → Tree → List Char → Prop
  | root {before value after : List Char} {tree : Tree} (hbefore : Blank before) (hafter : Blank after)
      (htext : text.toList = before ++ value ++ after) (hspells : Spells maxDepth value tree) :
      StandsAt text [] maxDepth value tree after
  | item {address : Address} {nesting index : Nat} {inner value rest after : List Char} {items : List Tree}
      {part : Tree} (harray : StandsAt text address (nesting + 1) ('[' :: inner) (.array items) after)
      (hitem : ItemAt (Spells nesting) ']' inner items index value part rest) :
      StandsAt text (address ++ [.position index]) nesting value part (rest ++ after)
  | member {address : Address} {nesting index : Nat} {inner content key before blank value rest after : List Char}
      {members : List (String × Tree)} {part : Tree}
      (hobject : StandsAt text address (nesting + 1) ('\x7b' :: inner) (.object members) after)
      (hkey : QuotedText content key) (hbefore : Blank before) (hblank : Blank blank)
      (hvalue : Spells nesting value part)
      (hmember : ItemAt (MemberText (Spells nesting)) '\x7d' inner members index
        ('"' :: key ++ before ++ ':' :: (blank ++ value)) (String.ofList content, part) rest) :
      StandsAt text (address ++ [.key (String.ofList content)]) nesting value part (rest ++ after)

section ItemAt

variable {α : Type} {item : List Char → α → Prop} {close : Char} {inner text rest : List Char} {a : α} {as : List α}
  {index : Nat}

theorem Json.ItemAt.getElem?_eq (hitem : ItemAt item close inner as index text a rest) : as[index]? = some a := by
  induction hitem with
  | first _ _ _ => rfl
  | later _ _ _ _ ih => exact ih

theorem Json.ItemAt.form (hitem : ItemAt item close inner as index text a rest) : item text a := by
  induction hitem with
  | first _ hitem _ => exact hitem
  | later _ _ _ _ ih => exact ih

theorem Json.ItemAt.exists_rest (hitem : ItemAt item close inner as index text a rest) :
    ∃ others, RestText item close rest others := by
  induction hitem with
  | first _ _ hrest => exact ⟨_, hrest⟩
  | later _ _ _ _ ih => exact ih

theorem Json.ItemAt.exists_before (hitem : ItemAt item close inner as index text a rest) :
    ∃ before, inner = before ++ (text ++ rest) := by
  induction hitem with
  | first _ _ _ => exact ⟨_, List.append_assoc ..⟩
  | @later before other after others _ _ _ _ _ _ _ _ _ _ ih =>
      obtain ⟨others', rfl⟩ := ih
      exact ⟨before ++ other ++ after ++ ',' :: others', by simp⟩

theorem Json.exists_itemAt (hitems : ItemsText item close inner as) (hindex : as[index]? = some a) :
    ∃ text rest, ItemAt item close inner as index text a rest := by
  cases hitems with
  | none _ => cases hindex
  | some hsome =>
      induction hsome generalizing index with
      | @last before text after b hbefore hitem hafter =>
          cases index with
          | zero =>
              obtain rfl := Option.some.inj hindex
              rw [List.append_assoc]
              exact ⟨text, after ++ [close], .first hbefore hitem (.close hafter)⟩
          | succ index => cases hindex
      | @more before text after others b as hbefore hitem hafter hothers ih =>
          cases index with
          | zero =>
              obtain rfl := Option.some.inj hindex
              rw [List.append_assoc]
              exact ⟨text, after ++ ',' :: others, .first hbefore hitem (.comma hafter hothers)⟩
          | succ index =>
              obtain ⟨found, rest, hfound⟩ := ih hindex
              exact ⟨found, rest, .later hbefore hitem hafter hfound⟩

end ItemAt

namespace Json.StandsAt

variable {text : String} {written part child : Tree} {address below : Address} {step : Step} {nesting : Nat}
  {value after : List Char}

theorem at?_and_written (hparse : parseWritten text.toList = some written) (hdistinct : written.keysDistinct = true)
    (haccepted : (resolve? written).isSome = true) (hstands : StandsAt text address nesting value part after) :
    written.at? address = some part ∧ Written nesting value part ∧ Delimits after := by
  induction hstands with
  | @root before value after tree hbefore hafter htext hspells =>
      have htree : parseWritten text.toList = some tree :=
        parseWritten_eq_some_iff.mpr ⟨before, value, after, hbefore, hafter, htext, hspells⟩
      obtain rfl := Option.some.inj (hparse.symm.trans htree)
      exact ⟨rfl, ⟨hspells, hdistinct, haccepted, Nat.le_refl _⟩, by simpa using delimits_of_blank hafter .nil⟩
  | @item address nesting index inner value rest after items part harray hitem ih =>
      obtain ⟨hnode, hwritten, -⟩ := ih
      obtain ⟨others, hrest⟩ := hitem.exists_rest
      have hpart := hitem.getElem?_eq
      exact ⟨at?_concat hnode hpart, hwritten.item (List.mem_of_getElem? hpart) hitem.form,
        (hrest.followsItem (.inl rfl) after).delimits⟩
  | @member address nesting index inner content key before blank value rest after members part hobject hkey hbefore
      hblank hvalue hmember ih =>
      obtain ⟨hnode, hwritten, -⟩ := ih
      obtain ⟨others, hrest⟩ := hmember.exists_rest
      have hmem := List.mem_of_getElem? hmember.getElem?_eq
      have hpart : (Tree.object members).under? (.key (String.ofList content)) = some part :=
        Entries.find?_of_mem (keysDistinct_object.mp hwritten.distinct).1 hmem
      exact ⟨at?_concat hnode hpart, hwritten.member hmem hvalue, (hrest.followsItem (.inr rfl) after).delimits⟩

theorem exists_before (hstands : StandsAt text address nesting value part after) :
    ∃ before, text.toList = before ++ (value ++ after) := by
  induction hstands with
  | @root before value after _ _ _ htext _ => exact ⟨before, by rw [htext, List.append_assoc]⟩
  | @item _ _ _ _ value rest after _ _ _ hitem ih =>
      obtain ⟨before, htext⟩ := ih
      obtain ⟨front, rfl⟩ := hitem.exists_before
      exact ⟨before ++ '[' :: front, by simp [htext]⟩
  | @member _ _ _ _ _ key gap blank value rest after _ _ _ _ _ _ _ hmember ih =>
      obtain ⟨before, htext⟩ := ih
      obtain ⟨front, rfl⟩ := hmember.exists_before
      exact ⟨before ++ '\x7b' :: (front ++ ('"' :: key ++ gap ++ ':' :: blank)), by simp [htext]⟩

theorem exists_child (hstands : StandsAt text address nesting value part after) (hspells : Spells nesting value part)
    (hchild : part.under? step = some child) :
    ∃ nesting' value' after', StandsAt text (address ++ [step]) nesting' value' child after' := by
  rcases hspells.scalar_or_container with
    hscalar | ⟨inside, inner, items, rfl, rfl, rfl, hitems⟩ | ⟨inside, inner, members, rfl, rfl, rfl, hmembers⟩
  · rw [under?_of_isScalar hscalar.isScalar] at hchild
    cases hchild
  · cases step with
    | key name => cases hchild
    | position index =>
        obtain ⟨value, rest, hitem⟩ := exists_itemAt hitems hchild
        exact ⟨inside, value, rest ++ after, .item hstands hitem⟩
  · cases step with
    | position index => cases hchild
    | key name =>
        obtain ⟨index, hindex⟩ := List.mem_iff_getElem?.mp (Entries.mem_of_find? hchild)
        obtain ⟨first, rest, hmember⟩ := exists_itemAt hmembers hindex
        have hform := hmember.form
        generalize hpair : (name, child) = member at hform
        cases hform with
        | @mk content key before blank value tree hkey hbefore hblank hvalue =>
            obtain ⟨rfl, rfl⟩ := Prod.mk.inj hpair
            exact ⟨inside, value, rest ++ after, .member hstands hkey hbefore hblank hvalue hmember⟩

/-- Below a part, every node stands at its address. -/
theorem exists_below (hparse : parseWritten text.toList = some written) (hdistinct : written.keysDistinct = true)
    (haccepted : (resolve? written).isSome = true) (hstands : StandsAt text address nesting value part after)
    (hnode : part.at? below = some child) :
    ∃ nesting' value' after', StandsAt text (address ++ below) nesting' value' child after' := by
  induction below generalizing address nesting value part after with
  | nil =>
      obtain rfl := Option.some.inj hnode
      rw [List.append_nil]
      exact ⟨nesting, value, after, hstands⟩
  | cons step below ih =>
      obtain ⟨next, hnext, hnode⟩ := at?_cons_eq_some.mp hnode
      obtain ⟨-, hwritten, -⟩ := hstands.at?_and_written hparse hdistinct haccepted
      obtain ⟨nesting', value', after', hstands'⟩ := hstands.exists_child hwritten.spells hnext
      rw [List.append_cons]
      exact ih hstands' hnode

theorem exists_iff (hparse : parseWritten text.toList = some written) (hdistinct : written.keysDistinct = true)
    (haccepted : (resolve? written).isSome = true) :
    (∃ nesting value after, StandsAt text address nesting value part after) ↔ written.at? address = some part := by
  constructor
  · rintro ⟨nesting, value, after, hstands⟩
    exact (hstands.at?_and_written hparse hdistinct haccepted).1
  · intro hnode
    obtain ⟨before, value, after, hbefore, hafter, htext, hspells⟩ := parseWritten_eq_some_iff.mp hparse
    exact exists_below hparse hdistinct haccepted (.root hbefore hafter htext hspells) hnode

end Json.StandsAt

/-! ### In and out -/

namespace Movement

def readAndExit : Movement Tree := do
  let value ← readValue
  exitContainer
  return value

variable {nesting length depth : Nat} {scope : Option Nat} {value after rest : List Char} {part child : Tree}

theorem run_readAndExit (hchild : Written nesting value child) (hdelimits : Delimits rest)
    (hleaves : Leaves after rest ()) : readAndExit.run ⟨length, value ++ rest, depth + 1, scope⟩ =
      .ok (meaning child) ⟨length, skipBlank after, depth, scope⟩ := by
  simp only [readAndExit, EStateM.run_bind, hchild.run_readValue hdelimits, run_exitContainer hleaves]
  rfl

theorem run_seekField_of_under?_eq_none {name : String} (hspells : Spells nesting value part)
    (hdelimits : Delimits after) (hnone : part.under? (.key name) = none) :
    (seekField name (hashName name)).run ⟨length, value ++ after, depth, scope⟩ =
      .ok .nothing ⟨length, skipBlank after, depth, scope⟩ := by
  have hpassed (htoken : Cursor.token ⟨length, value ++ after, depth, scope⟩ ≠ .beginObject) :
      (seekField name (hashName name)).run ⟨length, value ++ after, depth, scope⟩ =
        .ok .nothing ⟨length, skipBlank after, depth, scope⟩ := by
    simp [seekField, htoken, run_skipValue hspells hdelimits]
  rcases hspells.scalar_or_container with
    hscalar | ⟨inside, inner, items, rfl, rfl, rfl, -⟩ | ⟨inside, inner, members, rfl, rfl, rfl, hmembers⟩
  · exact hpassed (token_ne_of_scalarText hscalar _ (by decide))
  · exact hpassed (by simp [Token.ofChar])
  · exact run_seekField_nothing after length depth scope hmembers hnone

theorem run_seekIndex_of_under?_eq_none {index : Nat} (hspells : Spells nesting value part)
    (hdelimits : Delimits after) (hnone : part.under? (.position index) = none) :
    (seekIndex index).run ⟨length, value ++ after, depth, scope⟩ =
      .ok false ⟨length, skipBlank after, depth, scope⟩ := by
  have hpassed (htoken : Cursor.token ⟨length, value ++ after, depth, scope⟩ ≠ .beginArray) :
      (seekIndex index).run ⟨length, value ++ after, depth, scope⟩ =
        .ok false ⟨length, skipBlank after, depth, scope⟩ := by
    simp [seekIndex, htoken, run_skipValue hspells hdelimits]
  rcases hspells.scalar_or_container with
    hscalar | ⟨inside, inner, items, rfl, rfl, rfl, hitems⟩ | ⟨inside, inner, members, rfl, rfl, rfl, -⟩
  · exact hpassed (token_ne_of_scalarText hscalar _ (by decide))
  · exact run_seekIndex_false after length depth scope hitems hnone
  · exact hpassed (by simp [Token.ofChar])

theorem exists_run_seekField_readAndExit {name : String} (hwritten : Written nesting value part)
    (hchild : part.under? (.key name) = some child) :
    ∃ found inside meant, found ≠ Found.nothing ∧ resolve? child = some meant ∧
      (seekField name (hashName name)).run ⟨length, value ++ after, depth, scope⟩ = .ok found inside ∧
      readAndExit.run inside = .ok meant ⟨length, skipBlank after, depth, scope⟩ := by
  rcases hwritten.spells.scalar_or_container with
    hscalar | ⟨inside, inner, items, rfl, rfl, rfl, -⟩ | ⟨inside, inner, members, rfl, rfl, rfl, hmembers⟩
  · rw [under?_of_isScalar hscalar.isScalar] at hchild
    cases hchild
  · cases hchild
  · obtain ⟨found, field, tail, others, hfound, hfield, htail, hseek⟩ :=
      exists_run_seekField after length depth scope hmembers hchild
    have hmember := hwritten.member (Entries.mem_of_find? hchild) hfield
    have hfollows := htail.followsItem (.inr rfl) after
    exact ⟨found, _, meaning child, hfound, resolve?_eq_meaning hmember.accepted, hseek,
      run_readAndExit hmember hfollows.delimits (Leaves.rest htail)⟩

theorem exists_run_seekIndex_readAndExit {index : Nat} (hwritten : Written nesting value part)
    (hchild : part.under? (.position index) = some child) :
    ∃ inside meant, resolve? child = some meant ∧
      (seekIndex index).run ⟨length, value ++ after, depth, scope⟩ = .ok true inside ∧
      readAndExit.run inside = .ok meant ⟨length, skipBlank after, depth, scope⟩ := by
  rcases hwritten.spells.scalar_or_container with
    hscalar | ⟨inside, inner, items, rfl, rfl, rfl, hitems⟩ | ⟨inside, inner, members, rfl, rfl, rfl, -⟩
  · rw [under?_of_isScalar hscalar.isScalar] at hchild
    cases hchild
  · obtain ⟨item, tail, others, hitem, htail, hseek⟩ :=
      exists_run_seekIndex after length depth scope hitems hchild
    have hpart := hwritten.item (List.mem_of_getElem? hchild) hitem
    have hfollows := htail.followsItem (.inl rfl) after
    exact ⟨_, meaning child, resolve?_eq_meaning hpart.accepted, hseek,
      run_readAndExit hpart hfollows.delimits (Leaves.restOfItems htail)⟩
  · cases hchild

end Movement

/-- **The cursor comes back out of a container behind it.** What stands in a text that is read, and that repeats no key,
are the nodes of its tree as it is written. From each of them, at any depth, the cursor goes on to what follows the
value, to the same depth and with no deep search pending: by seeking a field or an item that is not there; by seeking
one that is there, reading it and leaving the container; and by reading a field at any depth until there is no more. The
last reads, in document order, the entries of its name that lie in no other entry of the name. What is read is what the
written values stand for. -/
theorem Movement.run_behind {text : String} {written : Tree} (hparse : parseWritten text.toList = some written)
    (hdistinct : written.keysDistinct = true) (haccepted : (Tree.parse text).isSome = true) (address : Address)
    (part : Tree) :
    (written.at? address = some part ↔ ∃ nesting value after, StandsAt text address nesting value part after) ∧
    ∀ nesting value after, StandsAt text address nesting value part after → ∀ depth,
      let here : Cursor := ⟨byteLength text.toList, value ++ after, depth, none⟩
      let behind : Cursor := ⟨byteLength text.toList, skipBlank after, depth, none⟩
      let entries := part.entriesBelow
      (∃ before, text.toList = before ++ here.rest) ∧
      (∀ name, part.under? (.key name) = none →
        (seekField name (hashName name)).run here = .ok .nothing behind) ∧
      (∀ index, part.under? (.position index) = none → (seekIndex index).run here = .ok false behind) ∧
      (∀ name child, part.under? (.key name) = some child → ∃ found inside meant, found ≠ .nothing ∧
        resolve? child = some meant ∧ (seekField name (hashName name)).run here = .ok found inside ∧
        readAndExit.run inside = .ok meant behind) ∧
      (∀ index child, part.under? (.position index) = some child → ∃ inside meant, resolve? child = some meant ∧
        (seekIndex index).run here = .ok true inside ∧ readAndExit.run inside = .ok meant behind) ∧
      (∀ name fuel, here.rest.length < fuel → ∃ meant,
        (entries.filter fun entry => isOutermost name entry.1).mapM (resolve? ·.2) = some meant ∧
        (readDeep name fuel).run here = .ok meant behind) ∧
      (∀ address value, (address, value) ∈ entries ↔
        part.at? address = some value ∧ ∃ key, address.getLast? = some (.key key)) ∧
      entries.Pairwise fun before after => route before.1 part < route after.1 part := by
  replace haccepted : (resolve? written).isSome = true := by rwa [Tree.parse, parseChars, hparse] at haccepted
  refine ⟨(StandsAt.exists_iff hparse hdistinct haccepted).symm, fun nesting value after hstands depth => ?_⟩
  obtain ⟨-, hwritten, hdelimits⟩ := hstands.at?_and_written hparse hdistinct haccepted
  refine ⟨hstands.exists_before, fun name => run_seekField_of_under?_eq_none hwritten.spells hdelimits,
    fun index => run_seekIndex_of_under?_eq_none hwritten.spells hdelimits,
    fun name child => exists_run_seekField_readAndExit hwritten,
    fun index child => exists_run_seekIndex_readAndExit hwritten, fun name fuel hfuel => ?_,
    fun _ _ => mem_entriesBelow hwritten.distinct, pairwise_route hwritten.distinct⟩
  refine ⟨slotMeanings name part, ?_, run_readDeep hwritten hdelimits name _ depth hfuel⟩
  rw [← slots_eq_filter, mapM_eq_some_iff, slotMeanings, slotValues, List.map_map, List.map_map]
  exact List.map_congr_left fun slot hmem =>
    resolve?_eq_meaning (isSome_resolve?_slot hwritten.accepted slot.2 (List.mem_map_of_mem hmem))

/-- An array with a bracket in a string, and with an entry of the name inside another one. -/
theorem Movement.run_behind_array :
    let text := "\x7b\"k\": [\x7b\"n\": [1, \x7b\"n\": 2\x7d]\x7d, \"]\", 3 ] , \"n\": 0\x7d"
    let entry := Tree.array [.integer 1, .object [("n", .integer 2)]]
    let array := Tree.array [.object [("n", entry)], .string "]", .integer 3]
    let written := Tree.object [("k", array), ("n", .integer 0)]
    parseWritten text.toList = some written ∧ written.keysDistinct = true ∧ Tree.parse text = some written ∧
      ∃ nesting value after, StandsAt text [.key "k"] nesting value array after ∧ ∀ depth,
        let here : Cursor := ⟨byteLength text.toList, value ++ after, depth, none⟩
        let behind : Cursor := ⟨byteLength text.toList, skipBlank after, depth, none⟩
        (seekField "k" (hashName "k")).run here = .ok .nothing behind ∧
        (seekIndex 3).run here = .ok false behind ∧
        (∃ inside, (seekIndex 2).run here = .ok true inside ∧ readAndExit.run inside = .ok (.integer 3) behind) ∧
        (readDeep "n" (here.rest.length + 1)).run here = .ok [entry] behind := by
  intro text entry array written
  have hparse : parseWritten text.toList = some written := by
    subst text
    rfl
  have hdistinct : written.keysDistinct = true := by decide
  have htree : Tree.parse text = some written := parse_of_parseWritten hparse hdistinct (by decide)
  have haccepted : (Tree.parse text).isSome = true := by rw [htree]; rfl
  obtain ⟨hstands, hruns⟩ := run_behind hparse hdistinct haccepted [.key "k"] array
  obtain ⟨nesting, value, after, hstands⟩ := hstands.mp rfl
  refine ⟨hparse, hdistinct, htree, nesting, value, after, hstands, fun depth => ?_⟩
  obtain ⟨-, hnoField, hnoItem, -, hitem, hdeep, -⟩ := hruns nesting value after hstands depth
  obtain ⟨inside, meant, hmeant, hseek, hread⟩ := hitem 2 (.integer 3) rfl
  cases hmeant
  obtain ⟨meant, hmeant, hrun⟩ := hdeep "n" _ (Nat.lt_succ_self _)
  have hentry : resolve? entry = some entry := resolve?_eq_self (by decide) (by decide)
  have hentries : array.entriesBelow.filter (fun entry => isOutermost "n" entry.1) =
      [([.position 0, .key "n"], entry)] := by rfl
  rw [hentries, mapM_eq_some_iff, List.map_singleton, hentry] at hmeant
  obtain rfl : meant = [entry] := List.map_injective_iff.mpr (fun _ _ => Option.some.inj) hmeant.symm
  exact ⟨hnoField "k" rfl, hnoItem 3 rfl, ⟨inside, hseek, hread⟩, hrun⟩

end TreeQuery
