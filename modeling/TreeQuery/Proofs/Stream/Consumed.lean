import TreeQuery.Proofs.Stream.Repeating

/-!
# What an answer depends on

Extraction looks at no byte beyond the one that the cursor is left at. What texts have in common is counted in bytes,
and the characters of which all bytes are common are common, as no encoding of a text continues another one otherwise.
-/

namespace TreeQuery

open Text

/-- The bytes of a text. -/
def bytesOf (text : List Char) : List UInt8 := text.flatMap String.utf8EncodeChar

variable {front rest text text' : List Char} {c c' : Char}

theorem bytesOf_append (front rest : List Char) : bytesOf (front ++ rest) = bytesOf front ++ bytesOf rest :=
  List.flatMap_append

theorem length_bytesOf (text : List Char) : (bytesOf text).length = byteLength text := by
  have hlength := length_byteChars text
  rwa [byteChars, List.length_map] at hlength

theorem take_bytesOf {text text' : String} {count : Nat}
    (hbytes : text'.toUTF8.extract 0 count = text.toUTF8.extract 0 count) :
    (bytesOf text'.toList).take count = (bytesOf text.toList).take count := by
  have hlist : ∀ text : String, (text.toUTF8.extract 0 count).data.toList = (bytesOf text.toList).take count := by
    intro text
    have hencode : text.toUTF8 = (bytesOf text.toList).toByteArray := String.utf8Encode_toList.symm
    rw [hencode]
    simp
  rw [← hlist, ← hlist, hbytes]

/-- A text whose bytes begin with those of another one begins with it. -/
theorem exists_of_bytesOf_eq {bytes : List UInt8} (hbytes : bytesOf text = bytesOf front ++ bytes) :
    ∃ rest, text = front ++ rest ∧ bytesOf rest = bytes := by
  have hencode : front.utf8Encode ++ bytes.toByteArray = text.utf8Encode := by
    rw [List.utf8Encode, List.utf8Encode, ← List.toByteArray_append]
    exact congrArg List.toByteArray hbytes.symm
  obtain ⟨rest, rfl⟩ := List.isPrefix_of_utf8Encode_append_eq_utf8Encode _ hencode
  rw [bytesOf_append] at hbytes
  exact ⟨rest, rfl, List.append_cancel_left hbytes⟩

theorem isHigh_of_head? {byte : UInt8} (hhead : (String.utf8EncodeChar c).head? = some byte) (hhigh : IsHigh c) :
    0x80 ≤ byte.toNat := le_of_mem_utf8EncodeChar hhigh byte (List.mem_of_head? hhead)

theorem toNat_of_head? {byte : UInt8} (hhead : (String.utf8EncodeChar c).head? = some byte) (hlow : ¬IsHigh c) :
    byte.toNat = c.toNat := by
  have hcode : c.toNat ≤ 127 := by
    rw [IsHigh] at hlow
    omega
  have hencode : String.utf8EncodeChar c = [UInt8.ofNat c.toNat] := if_pos hcode
  rw [hencode] at hhead
  obtain rfl := Option.some.inj hhead
  rw [UInt8.toNat_ofNat']
  omega

theorem exists_head? (c : Char) : ∃ byte, (String.utf8EncodeChar c).head? = some byte := by
  have hlength := String.length_utf8EncodeChar c
  have hsize := c.utf8Size_pos
  cases hencode : String.utf8EncodeChar c with
  | nil =>
      rw [hencode, List.length_nil] at hlength
      omega
  | cons byte bytes => exact ⟨byte, rfl⟩

theorem head?_bytesOf_cons (c : Char) (text : List Char) :
    (bytesOf (c :: text)).head? = (String.utf8EncodeChar c).head? := by
  obtain ⟨byte, hbyte⟩ := exists_head? c
  rw [bytesOf, List.flatMap_cons, List.head?_append, hbyte, Option.some_or]

/-- The first byte tells texts apart unless they begin alike. -/
theorem alike_of_head? (hhead : (bytesOf rest).head? = (bytesOf text).head?) : Alike rest text := by
  cases rest with
  | nil =>
      cases text with
      | nil => exact .nothing
      | cons c text =>
          obtain ⟨byte, hbyte⟩ := exists_head? c
          rw [head?_bytesOf_cons, hbyte] at hhead
          cases hhead
  | cons c rest =>
      obtain ⟨byte, hbyte⟩ := exists_head? c
      rw [head?_bytesOf_cons, hbyte] at hhead
      cases text with
      | nil => cases hhead
      | cons c' text =>
          have hbyte' : (String.utf8EncodeChar c').head? = some byte := by
            rw [← head?_bytesOf_cons c' text, ← hhead]
          by_cases hc : IsHigh c
          · have hge := isHigh_of_head? hbyte hc
            by_cases hc' : IsHigh c'
            · exact .high hc hc' rest text
            · rw [toNat_of_head? hbyte' hc'] at hge
              exact absurd hge hc'
          · have hcode := toNat_of_head? hbyte hc
            by_cases hc' : IsHigh c'
            · have hge := isHigh_of_head? hbyte' hc'
              rw [hcode] at hge
              exact absurd hge hc
            · rw [toNat_of_head? hbyte' hc'] at hcode
              obtain rfl := Char.toNat_inj.mp hcode
              exact .same c' rest text

/-- Texts with the same bytes up to a place, and one more if there is one, are the same up to there and go on alike. -/
theorem exists_alike_of_take
    (htake : (bytesOf text).take (byteLength front + 1) = (bytesOf (front ++ rest)).take (byteLength front + 1)) :
    ∃ tail, text = front ++ tail ∧ Alike rest tail := by
  rw [bytesOf_append, ← length_bytesOf, List.take_length_add_append] at htake
  have hprefix : bytesOf front <+: bytesOf text := by
    have htaken := List.prefix_append (bytesOf front) ((bytesOf rest).take 1)
    rw [← htake] at htaken
    exact htaken.trans (List.take_prefix _ _)
  obtain ⟨bytes, hbytes⟩ := hprefix
  obtain ⟨tail, rfl, -⟩ := exists_of_bytesOf_eq hbytes.symm
  rw [bytesOf_append, List.take_length_add_append] at htake
  have hfirst := congrArg List.head? (List.append_cancel_left htake)
  rw [List.head?_take, List.head?_take, if_neg Nat.one_ne_zero, if_neg Nat.one_ne_zero] at hfirst
  exact ⟨tail, rfl, alike_of_head? hfirst.symm⟩

namespace Path

/-- **An answer depends only on the text consumed.** When extraction succeeds and leaves the cursor at some byte, it gives
the same answer at the same place for every text that has the same bytes up to and including that one, be the texts
JSON or not. -/
theorem extract_of_consumed (path : Path) {text text' : String} {tree : Tree} {cursor : Cursor}
    (hrun : path.extract.run (Cursor.ofString text) = .ok tree cursor)
    (hbytes : text'.toUTF8.extract 0 (cursor.position + 1) = text.toUTF8.extract 0 (cursor.position + 1)) :
    ∃ cursor', path.extract.run (Cursor.ofString text') = .ok tree cursor' ∧ cursor'.position = cursor.position := by
  obtain ⟨blank, hblank, hskip⟩ := Json.exists_blank text.toList
  obtain ⟨hlength, front, hfront, -, hagain⟩ :=
    path.repeats_extract ((skipBlank text.toList).length + 1) (Cursor.ofString text) tree cursor hrun
  have hshown : skipBlank text.toList = front ++ cursor.rest := hfront
  have htext : text.toList = (blank ++ front) ++ cursor.rest := by rw [List.append_assoc, ← hshown, ← hskip]
  have hposition : cursor.position = byteLength (blank ++ front) := by
    have hcursor : cursor.length = byteLength text.toList := hlength
    rw [Cursor.position, hcursor, htext, byteLength_append, Nat.add_sub_cancel]
  have htake := take_bytesOf hbytes
  rw [hposition, htext] at htake
  obtain ⟨tail, htext', halike⟩ := exists_alike_of_take htake
  have hskip' : skipBlank text'.toList = front ++ tail := by
    have hbehind : Alike (skipBlank text.toList) (front ++ tail) := hshown ▸ halike.append front
    rw [htext', List.append_assoc]
    exact hbehind.skipBlank_append hblank
  have hfuel : front.length < (skipBlank text.toList).length + 1 := by
    rw [hshown, List.length_append]
    omega
  have hrun' := hagain hfuel (byteLength text'.toList) tail halike
  refine ⟨⟨byteLength text'.toList, tail, cursor.depth, cursor.deepScope⟩, ?_, ?_⟩
  · rw [Cursor.ofString, hskip']
    exact hrun'
  · rw [hposition, Cursor.position, htext', byteLength_append, Nat.add_sub_cancel]

/-- Both texts are no JSON, the items that are passed included, and they part inside the character that the cursor is
left at. -/
theorem extract_of_consumed_malformed :
    let path : Path := .mk "/1" [.index 1] false true
    ∃ cursor, (path.extract.run (Cursor.ofString "[[,], true é") = .ok (.bool true) cursor ∧ cursor.position = 11) ∧
      ∃ cursor', path.extract.run (Cursor.ofString "[[,], true ê, 2]") = .ok (.bool true) cursor' ∧
        cursor'.position = 11 := by
  intro path
  have hanswer : ∃ cursor, path.extract.run (Cursor.ofString "[[,], true é") = .ok (.bool true) cursor ∧
      cursor.position = 11 := by
    have hchecked : EStateM.Result.casesOn (motive := fun _ => Bool) (path.extract.run (Cursor.ofString "[[,], true é"))
        (fun found cursor => found.asBool? == some true && cursor.position == 11) (fun _ _ => false) = true := by
      decide +kernel
    generalize path.extract.run (Cursor.ofString "[[,], true é") = result at hchecked ⊢
    cases result with
    | ok found cursor =>
        obtain ⟨hfound, hposition⟩ := Bool.and_eq_true_iff.mp hchecked
        rw [beq_iff_eq] at hfound hposition
        obtain rfl : found = .bool true := by
          cases found with
          | bool value => exact congrArg Tree.bool (Option.some.inj hfound)
          | _ => cases hfound
        exact ⟨cursor, rfl, hposition⟩
    | error fault cursor => cases hchecked
  obtain ⟨cursor, hrun, hposition⟩ := hanswer
  have hbytes : "[[,], true ê, 2]".toUTF8.extract 0 (cursor.position + 1) =
      "[[,], true é".toUTF8.extract 0 (cursor.position + 1) := by
    rw [hposition]
    decide +kernel
  obtain ⟨cursor', hrun', hposition'⟩ := extract_of_consumed path hrun hbytes
  exact ⟨cursor, ⟨hrun, hposition⟩, cursor', hrun', hposition'.trans hposition⟩

end Path

end TreeQuery
