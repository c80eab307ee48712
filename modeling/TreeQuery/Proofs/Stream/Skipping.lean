import TreeQuery.Proofs.Stream.ByteSteps

/-!
# Where a value ends

The cursor counts brackets and minds quotes and knows nothing else of JSON. In front of a value that is JSON this is
enough to find its end to the byte.
-/

namespace TreeQuery

open Text

/-- There is no white space at either end of the text. -/
structure Trimmed (text : List Char) : Prop where
  start : ∀ c ∈ text.head?, isBlank c = false
  stop : ∀ c ∈ text.getLast?, isBlank c = false

/-- A text that is accepted and has no white space around it is the text of a value. -/
theorem Trimmed.spells {text : List Char} {tree : Tree} (htrimmed : Trimmed text)
    (hparse : Json.parseWritten text = some tree) : Json.Spells Json.maxDepth text tree := by
  obtain ⟨before, written, after, hbefore, hafter, rfl, hspells⟩ := Json.parseWritten_eq_some_iff.mp hparse
  obtain ⟨hstart, hstop⟩ := htrimmed
  have hnone : before = [] := by
    cases before with
    | nil => rfl
    | cons c before =>
        have hc := hbefore c List.mem_cons_self
        rw [hstart c rfl] at hc
        cases hc
  have hnone' : after = [] := by
    rcases List.eq_nil_or_concat after with hnil | ⟨front, c, hlast⟩
    · exact hnil
    · rw [List.concat_eq_append] at hlast
      subst hlast
      have hc := hafter c (List.mem_append_right front List.mem_cons_self)
      rw [hstop c (by rw [← List.append_assoc, List.getLast?_concat]; rfl)] at hc
      cases hc
  rw [hnone, hnone', List.nil_append, List.append_nil]
  exact hspells

namespace Movement

open Cursor

variable {text blank behind : List Char} {value : String} {tree : Tree} {cursor : Cursor}

/-- What reading a value gives: its tree, with the cursor behind it, or the fault that it has none. -/
def reading (tree : Option Tree) (here behind : Cursor) : EStateM.Result Fault Cursor Tree :=
  match tree with
  | some tree => .ok tree behind
  | none => .error .malformedJson here

/-- **Skipping a value stops exactly at its end.** The cursor stands at a value that strict JSON accepts, which has no
white space around it. Behind it the text is over, or goes on with white space, a comma, a colon or a closing bracket.
Then the end is found at the byte just past the value. The value is skipped up to the first byte behind it that is no
white space, and it is read up to there as the tree that it is the text of. Only if it is the text of no tree, as it
announces a number and does not have one, reading fails. -/
theorem run_of_parse {written : Tree} (hin : In text cursor) (hrest : cursor.rest = value.toList ++ (blank ++ behind))
    (htrimmed : Trimmed value.toList) (hvalue : Json.parseWritten value.toList = some written)
    (hdelimits : Delimits (blank ++ behind)) (hblank : Json.Blank blank) (hbehind : ∀ c ∈ behind.head?, isBlank c = false) :
    let stop := cursor.position + value.utf8ByteSize
    let next := { cursor with rest := behind }
    ByteMovement.valueEnd.run (cursor.toBytes text) = .ok stop (cursor.toBytes text) ∧
      next.position = stop + byteLength blank ∧
      (skipValue.run cursor = .ok () next ∧ readValue.run cursor = reading (Tree.parse value) cursor next) ∧
      ByteMovement.skipValue.run (cursor.toBytes text) = .ok () (next.toBytes text) ∧
      ByteMovement.readValue.run (cursor.toBytes text) =
        toBytes text (reading (Tree.parse value) cursor next) := by
  intro stop next
  have hsplit := (htrimmed.spells hvalue).splitValue_append hdelimits
  rw [← hrest] at hsplit
  have hsize : value.utf8ByteSize = byteLength value.toList := by
    rw [← utf8ByteSize_ofList, String.ofList_toList]
  have hland : skipBlank (blank ++ behind) = behind := by
    rw [Json.skipBlank_append hblank]
    cases behind with
    | nil => rfl
    | cons c behind => exact Json.skipBlank_cons (hbehind c rfl) behind
  have hskip : skipValue.run cursor = .ok () next := by
    unfold skipValue
    rw [EStateM.run_bind, run_valueText hsplit]
    exact congrArg (fun rest => EStateM.Result.ok () { cursor with rest := rest }) hland
  have hread : readValue.run cursor = reading (Tree.parse value) cursor next := by
    unfold readValue
    rw [EStateM.run_bind, run_valueText hsplit]
    cases htree : Tree.parse value with
    | none =>
        have hparse : Json.parseChars value.toList = none := htree
        simp only [hparse]
        rfl
    | some tree =>
        have hparse : Json.parseChars value.toList = some tree := htree
        simp only [hparse]
        exact congrArg (fun rest => EStateM.Result.ok tree { cursor with rest := rest }) hland
  refine ⟨?_, ?_, ⟨hskip, hread⟩, ?_, ?_⟩
  · rw [run_valueEnd hin, hsplit]
    exact congrArg (fun size => EStateM.Result.ok (cursor.position + size) _) hsize.symm
  · obtain ⟨front, rfl, hposition⟩ := hin.exists_front
    change cursor.length - byteLength behind = cursor.position + value.utf8ByteSize + byteLength blank
    rw [hin.length_eq, hposition, hrest, byteLength_append, byteLength_append, byteLength_append, hsize]
    omega
  · rw [(mirrorsAt_skipValue hin).run_eq, hskip]
    rfl
  · rw [(mirrorsAt_readValue hin).run_eq, hread]

/-- An item of an array, with an escape, brackets and a character beyond ASCII in its strings. -/
theorem run_of_parse_item :
    let value := "[\"é\\\"]\",\x7b\"\x7d\":[]\x7d]"
    let tree : Tree := .array [.string "é\"]", .object [("\x7d", .array [])]]
    let behind := [',', ' ', '2', ']']
    let text := '[' :: (value.toList ++ ' ' :: '\n' :: behind)
    let cursor : Cursor := ⟨byteLength text, value.toList ++ ' ' :: '\n' :: behind, 1, none⟩
    (Tree.parse value = some tree ∧ cursor.position = 1) ∧
      ByteMovement.valueEnd.run (cursor.toBytes text) = .ok 19 (cursor.toBytes text) ∧
      readValue.run cursor = .ok tree { cursor with rest := behind } ∧
      ({ cursor with rest := behind } : Cursor).position = 21 := by
  intro value tree behind text cursor
  have hin : cursor.In text := ⟨rfl, ['['], rfl⟩
  have hwritten : Json.parseWritten value.toList = some tree := by
    subst value tree
    rfl
  have hvalue : Tree.parse value = some tree := Json.parse_of_parseWritten hwritten (by decide) (by decide)
  have hstart : value.toList.head? = some '[' := by decide +kernel
  have hstop : value.toList.getLast? = some ']' := by decide +kernel
  have htrimmed : Trimmed value.toList := by
    refine ⟨fun c hc => ?_, fun c hc => ?_⟩
    · rw [Option.some.inj (hc.symm.trans hstart)]
      rfl
    · rw [Option.some.inj (hc.symm.trans hstop)]
      rfl
  have hdelimits : Delimits ([' ', '\n'] ++ behind) := delimits_cons.mpr (by decide)
  have hblank : Json.Blank [' ', '\n'] :=
    List.forall_mem_cons.mpr ⟨by decide, List.forall_mem_singleton.mpr (by decide)⟩
  have hbehind : ∀ c ∈ behind.head?, isBlank c = false := fun c hc => by
    rw [← Option.some.inj hc]
    rfl
  have hplace : cursor.position = 1 := by decide +kernel
  have hsize : value.utf8ByteSize = 18 := by decide +kernel
  obtain ⟨hend, hnext, ⟨-, hread⟩, -⟩ := run_of_parse hin rfl htrimmed hwritten hdelimits hblank hbehind
  rw [hplace, hsize] at hend hnext
  rw [hvalue] at hread
  exact ⟨⟨hvalue, hplace⟩, hend, hread, hnext⟩

end Movement

end TreeQuery
