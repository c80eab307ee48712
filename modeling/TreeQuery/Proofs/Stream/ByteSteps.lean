import TreeQuery.Proofs.Stream.Mirroring

/-!
# Single movements among the bytes

The ends of values, and the text between two of them, are the same for both cursors. So each movement over a token or a
value is mirrored, and passes at least one character when it succeeds.
-/

namespace TreeQuery

open Text

namespace Movement

open Cursor

variable {text piece rest : List Char} {bound : Nat} {cursor : Cursor}

theorem passWhile_isBlank (front rest : List Char) :
    passWhile isBlank (bytesOf (front ++ rest)) (byteLength front) =
      byteLength (front ++ rest) - byteLength (skipBlank rest) := by
  have hrest : rest.takeWhile isBlank ++ skipBlank rest = rest := List.takeWhile_append_dropWhile
  have hlength := congrArg byteLength hrest
  have hpass := @passWhile_bytesOf isBlank false (fun _ => isBlank_of_isHigh) (bytesOf front) rest
  rw [byteLength_append] at hlength
  rw [← bytesOf_append, length_bytesOf] at hpass
  rw [hpass, byteLength_append]
  omega

theorem mirrorsAt_moveTo (hin : In text cursor) (hrest : cursor.rest = piece ++ rest) :
    MirrorsAt text piece.length cursor (ByteMovement.moveTo (cursor.position + byteLength piece)) (moveTo rest) := by
  obtain ⟨front, rfl, hposition⟩ := hin.exists_front
  have hlength := hin.length_eq
  rw [hrest, ← List.append_assoc] at hlength
  refine ⟨?_, rfl, ?_, ?_⟩
  · refine congrArg (EStateM.Result.ok ()) ?_
    have hplace : passWhile isBlank (bytesOf (front ++ cursor.rest)) (cursor.position + byteLength piece) =
        cursor.length - byteLength (skipBlank rest) := by
      rw [hposition, ← byteLength_append, hrest, ← List.append_assoc, passWhile_isBlank, hlength]
    exact congrArg (fun place => ByteCursor.mk _ place cursor.depth cursor.deepScope) hplace
  · rw [hrest]
    exact (List.dropWhile_suffix _).trans (List.suffix_append _ _)
  · have hle := length_skipBlank_le rest
    rw [hrest, List.length_append]
    change (skipBlank rest).length + _ ≤ _
    omega

/-! ### Ends -/

/-- Where the value at the cursor ends, when its text is cut off the rest. -/
def endOf (cursor : Cursor) (text : List Char) :
    Except CursorFault (List Char × List Char) → EStateM.Result (Breach ⊕ Fault) ByteCursor Nat
  | .ok (piece, _) => .ok (cursor.position + byteLength piece) (cursor.toBytes text)
  | .error cause => .error (.inr (.cursor cause cursor.position)) (cursor.toBytes text)

/-- Where the string at the cursor ends, when its content is cut off behind the quotation mark. -/
def endOfQuoted (cursor : Cursor) (text : List Char) :
    Option (List Char × List Char) → EStateM.Result (Breach ⊕ Fault) ByteCursor Nat
  | some (quoted, _) => .ok (cursor.position + byteLength ('"' :: quoted)) (cursor.toBytes text)
  | none => .error (.inr (.cursor .unterminatedString cursor.position)) (cursor.toBytes text)

theorem run_stringEnd {text' : List Char} (hin : In text cursor) (hrest : cursor.rest = '"' :: text') :
    (ByteMovement.stringEnd cursor.position).run (cursor.toBytes text) =
      endOfQuoted cursor text (splitQuoted text') := by
  obtain ⟨front, rfl, hposition⟩ := hin.exists_front
  have hstart : cursor.position + 1 = (bytesOf (front ++ ['"'])).length := by
    rw [length_bytesOf, byteLength_append, hposition]
    rfl
  have hbytes : bytesOf (front ++ cursor.rest) = bytesOf (front ++ ['"']) ++ bytesOf text' := by
    rw [hrest, ← bytesOf_append, List.append_assoc]
    rfl
  have hend := quoteEnd?_bytesOf (bytesOf (front ++ ['"'])) text'
  rw [← hbytes, ← hstart] at hend
  have hbytes' : (cursor.toBytes (front ++ cursor.rest)).bytes = bytesOf (front ++ cursor.rest) := rfl
  unfold ByteMovement.stringEnd
  simp only [EStateM.run_bind, EStateM.run_get, hbytes', hend]
  cases splitQuoted text' with
  | none => rfl
  | some found =>
      refine congrArg (fun place => EStateM.Result.ok place _) ?_
      exact Nat.add_assoc _ _ _

theorem run_scalarEnd (hin : In text cursor) :
    (ByteMovement.scalarEnd cursor.position).run (cursor.toBytes text) =
      .ok (cursor.position + byteLength (cursor.rest.takeWhile (!endsScalar ·))) (cursor.toBytes text) := by
  obtain ⟨front, rfl, hposition⟩ := hin.exists_front
  have hhigh : ∀ c, IsHigh c → (!endsScalar c) = true := fun c hhigh => by rw [endsScalar_of_isHigh hhigh]; rfl
  have hpass := passWhile_bytesOf hhigh (bytesOf front) cursor.rest
  rw [← bytesOf_append, length_bytesOf, ← hposition] at hpass
  exact congrArg (fun place => EStateM.Result.ok place _) hpass

theorem eq_quote_of_ofChar {c : Char} (htoken : Token.ofChar c = .string) : c = '"' := by
  unfold Token.ofChar at htoken
  simp only [apply_ite (· = Token.string), reduceCtorEq, if_false_left, ite_self, if_false_right, and_true] at htoken
  exact htoken.2.2.2.2

theorem opens_of_ofChar {c : Char} (htoken : Token.ofChar c = .beginObject ∨ Token.ofChar c = .beginArray) :
    opensContainer c = true := by
  unfold Token.ofChar at htoken
  simp only [apply_ite (· = Token.beginObject), apply_ite (· = Token.beginArray), reduceCtorEq, if_false_left, ite_self,
    if_false_right, and_true] at htoken
  rcases htoken with rfl | ⟨-, -, rfl⟩ <;> rfl

theorem run_bracketEnd {c : Char} {text' : List Char} (hin : In text cursor) (hrest : cursor.rest = c :: text')
    (hopens : opensContainer c = true) :
    (ByteMovement.bracketEnd cursor.position).run (cursor.toBytes text) =
      endOf cursor text (splitContainer (cursor.rest.length + 1) 0 cursor.rest) := by
  obtain ⟨front, rfl, hposition⟩ := hin.exists_front
  have hstart := containerEnd_start hopens (bytesOf front) text'
  rw [← bytesOf_append, ← hrest, length_bytesOf, ← hposition] at hstart
  have hbytes : (cursor.toBytes (front ++ cursor.rest)).bytes = bytesOf (front ++ cursor.rest) := rfl
  unfold ByteMovement.bracketEnd
  simp only [EStateM.run_bind, EStateM.run_get, hbytes, hstart]
  cases splitContainer (cursor.rest.length + 1) 0 cursor.rest <;> rfl

/-- The end of a value is found among the bytes where its text ends among the characters. -/
theorem run_valueEnd (hin : In text cursor) :
    ByteMovement.valueEnd.run (cursor.toBytes text) = endOf cursor text (splitValue cursor.rest) := by
  have hsame := hin.token_toBytes
  have hplace : (cursor.toBytes text).place = cursor.position := rfl
  unfold ByteMovement.valueEnd
  simp only [EStateM.run_bind, EStateM.run_get, hsame, hplace]
  cases hrest : cursor.rest with
  | nil =>
      rw [show cursor.token = .finish by rw [Cursor.token, hrest]]
      rfl
  | cons c text' =>
      rw [show cursor.token = Token.ofChar c by rw [Cursor.token, hrest]]
      by_cases hword : Token.ofChar c ∈ wordTokens
      · have hscalar := run_scalarEnd hin
        rw [hrest] at hscalar
        rw [splitValue_eq_of_word hword]
        simp only [wordTokens, List.mem_cons, List.not_mem_nil, or_false] at hword
        rcases hword with htoken | htoken | htoken | htoken <;> rw [htoken] <;> exact hscalar
      · cases htoken : Token.ofChar c with
        | string =>
            obtain rfl := eq_quote_of_ofChar htoken
            simp only [splitValue, htoken]
            rw [run_stringEnd hin hrest]
            cases splitQuoted text' <;> rfl
        | beginObject =>
            simp only [splitValue, htoken]
            rw [run_bracketEnd hin hrest (opens_of_ofChar (.inl htoken)), hrest]
        | beginArray =>
            simp only [splitValue, htoken]
            rw [run_bracketEnd hin hrest (opens_of_ofChar (.inr htoken)), hrest]
        | number => exact absurd (by rw [htoken]; decide) hword
        | true => exact absurd (by rw [htoken]; decide) hword
        | false => exact absurd (by rw [htoken]; decide) hword
        | null => exact absurd (by rw [htoken]; decide) hword
        | _ =>
            simp only [splitValue, htoken]
            rfl

/-! ### Values -/

/-- A value that cannot be cut off is refused by both. Otherwise both go on with its end. -/
theorem mirrorsAt_value {α : Type} {next' : Nat → ByteMovement α} {next : List Char × List Char → Movement α}
    (hin : In text cursor)
    (hnext : ∀ piece rest, cursor.rest = piece ++ rest → 1 ≤ piece.length →
      MirrorsAt text 1 cursor (next' (cursor.position + byteLength piece)) (next (piece, rest))) :
    MirrorsAt text 1 cursor (ByteMovement.valueEnd >>= next') (valueText >>= next) := by
  have hend := run_valueEnd hin
  cases hsplit : splitValue cursor.rest with
  | error cause =>
      rw [hsplit] at hend
      refine (mirrorsAt_throw (.cursor cause cursor.position)).congr ?_ ?_
      · rw [EStateM.run_bind, hend]
        rfl
      · unfold valueText
        simp only [EStateM.run_bind, run_rest, hsplit]
        rfl
  | ok found =>
      rw [hsplit] at hend
      obtain ⟨hrest, hne, -⟩ := splitValue_append hsplit
      refine (hnext found.1 found.2 hrest (List.length_pos_iff.mpr hne)).congr ?_ ?_
      · rw [EStateM.run_bind, hend]
        rfl
      · rw [EStateM.run_bind, run_valueText hsplit]

theorem mirrorsAt_skipValue (hin : In text cursor) : MirrorsAt text 1 cursor ByteMovement.skipValue skipValue :=
  mirrorsAt_value hin fun _ _ hrest hlength => (mirrorsAt_moveTo hin hrest).mono hlength

/-- A slice between two places where characters begin is the text between them. -/
theorem run_slice (front piece rest : List Char) (state : ByteCursor)
    (hbytes : state.bytes = bytesOf (front ++ (piece ++ rest))) :
    (ByteMovement.slice (byteLength front) (byteLength front + byteLength piece)).run state =
      .ok (bytesOf piece) state := by
  have hlength : byteLength front + byteLength piece ≤ state.bytes.length := by
    rw [hbytes, length_bytesOf, byteLength_append, byteLength_append]
    omega
  have hpiece : (state.bytes.drop (byteLength front)).take (byteLength piece) = bytesOf piece := by
    rw [hbytes, bytesOf_append, bytesOf_append, ← length_bytesOf front, List.drop_left, ← length_bytesOf piece,
      List.take_left]
  unfold ByteMovement.slice
  simp [hlength, hpiece]

theorem run_decode (text : List Char) (state : ByteCursor) :
    (ByteMovement.decode (bytesOf text)).run state = .ok text state := by
  have hdecode : (bytesOf text).toByteArray.utf8Decode? = some text.toArray := List.utf8Decode?_utf8Encode
  unfold ByteMovement.decode
  simp [hdecode]

theorem mirrorsAt_readValue (hin : In text cursor) : MirrorsAt text 1 cursor ByteMovement.readValue readValue := by
  unfold ByteMovement.readValue readValue
  refine MirrorsAt.get (mirrorsAt_value hin fun piece rest hrest hlength => ?_)
  have hplace : (cursor.toBytes text).place = cursor.position := rfl
  obtain ⟨front, htext, hposition⟩ := hin.exists_front
  have hslice := run_slice front piece rest (cursor.toBytes text) (by rw [← hrest, ← htext]; rfl)
  rw [← hposition] at hslice
  cases hparse : Json.parseChars piece with
  | none =>
      refine (mirrorsAt_throw .malformedJson).congr ?_ ?_
      · simp only [EStateM.run_bind, hplace, hslice, run_decode, hparse]
      · simp only [hparse]
  | some tree =>
      have hmove := (mirrorsAt_moveTo hin hrest).mono hlength
      refine (hmove.bind hin (Nat.lt_succ_self _) fun _ => mirrors_pure tree).congr ?_ ?_
      · simp only [EStateM.run_bind, hplace, hslice, run_decode, hparse]
      · simp only [hparse]

/-! ### Strings -/

theorem mem_bytesOf_backslash {text : List Char} : 0x5C ∈ bytesOf text ↔ '\\' ∈ text := by
  unfold bytesOf
  rw [List.mem_flatMap]
  refine ⟨fun ⟨c, hmem, hbyte⟩ => ?_, fun hmem => ⟨'\\', hmem, by decide⟩⟩
  rcases low_or_high c with ⟨byte, hbytes, rfl⟩ | ⟨-, hbytes⟩
  · rw [hbytes, List.mem_singleton] at hbyte
    rwa [← hbyte] at hmem
  · exact absurd (hbytes _ hbyte) (by decide)

theorem exists_of_splitQuoted {text quoted rest : List Char} (hsplit : splitQuoted text = some (quoted, rest)) :
    ∃ inner, quoted = inner ++ ['"'] := by
  fun_induction splitQuoted text generalizing quoted with
  | case1 => cases hsplit
  | case2 c text ih =>
      obtain ⟨⟨more, rest⟩, hmore, heq⟩ := Option.map_eq_some_iff.mp hsplit
      cases heq
      obtain ⟨inner, rfl⟩ := ih hmore
      exact ⟨'\\' :: c :: inner, rfl⟩
  | case3 text =>
      cases hsplit
      exact ⟨[], rfl⟩
  | case4 => cases hsplit
  | case5 c text _ hquote hslash ih =>
      obtain ⟨⟨more, rest⟩, hmore, heq⟩ := Option.map_eq_some_iff.mp hsplit
      cases heq
      obtain ⟨inner, rfl⟩ := ih hmore
      exact ⟨c :: inner, rfl⟩

section Content

variable {inner : List Char}

/-- What the content of a string is read as, if it can be decoded. -/
def contentOf (state : ByteCursor) : Option String → EStateM.Result (Breach ⊕ Fault) ByteCursor String
  | some found => .ok found state
  | none => .error (.inr .malformedJson) state

theorem run_slice_quoted (hin : In text cursor) (hrest : cursor.rest = '"' :: (inner ++ ['"'] ++ rest)) :
    (ByteMovement.slice cursor.position (cursor.position + byteLength ('"' :: (inner ++ ['"'])))).run
      (cursor.toBytes text) = .ok (bytesOf ('"' :: (inner ++ ['"']))) (cursor.toBytes text) := by
  obtain ⟨front, htext, hposition⟩ := hin.exists_front
  rw [hposition]
  refine run_slice front ('"' :: (inner ++ ['"'])) rest (cursor.toBytes text) ?_
  rw [List.cons_append, ← hrest, ← htext]
  rfl

theorem run_content_escaped (hin : In text cursor) (hrest : cursor.rest = '"' :: (inner ++ ['"'] ++ rest))
    (hescapes : '\\' ∈ inner ++ ['"']) :
    (ByteMovement.content cursor.position (cursor.position + byteLength ('"' :: (inner ++ ['"'])))).run
        (cursor.toBytes text) = contentOf (cursor.toBytes text) (decodeQuoted (inner ++ ['"'])) := by
  have hcontains : (bytesOf ('"' :: (inner ++ ['"']))).contains 0x5C = true := by
    rw [List.contains_iff_mem, mem_bytesOf_backslash]
    exact List.mem_cons_of_mem _ hescapes
  unfold ByteMovement.content
  rw [EStateM.run_bind, run_slice_quoted hin hrest]
  simp only [hcontains, if_true]
  rw [EStateM.run_bind, run_decode]
  simp only [List.drop_one, List.tail_cons]
  cases decodeQuoted (inner ++ ['"']) <;> rfl

/-- Without escapes the content is the slice between the quotation marks. -/
theorem run_content_plain (hin : In text cursor) (hrest : cursor.rest = '"' :: (inner ++ ['"'] ++ rest))
    (hescapes : '\\' ∉ inner ++ ['"']) :
    (ByteMovement.content cursor.position (cursor.position + byteLength ('"' :: (inner ++ ['"'])))).run
        (cursor.toBytes text) = .ok (String.ofList inner) (cursor.toBytes text) := by
  obtain ⟨front, htext, hposition⟩ := hin.exists_front
  have hcontains : ¬(bytesOf ('"' :: (inner ++ ['"']))).contains 0x5C = true := by
    rw [List.contains_iff_mem, mem_bytesOf_backslash, List.mem_cons, not_or]
    exact ⟨by decide, hescapes⟩
  have hbytes : (cursor.toBytes text).bytes = bytesOf ((front ++ ['"']) ++ (inner ++ ('"' :: rest))) := by
    change bytesOf text = _
    rw [htext, hrest]
    simp
  have hquote : byteLength ['"'] = 1 := by decide
  have hstart : byteLength (front ++ ['"']) = cursor.position + 1 := by
    rw [byteLength_append, hposition, hquote]
  have hsize : byteLength ('"' :: (inner ++ ['"'])) = 1 + byteLength inner + 1 := by
    rw [byteLength_cons, byteLength_append, hquote, ← Nat.add_assoc]
    rfl
  have hstop : cursor.position + byteLength ('"' :: (inner ++ ['"'])) - 1 = cursor.position + 1 + byteLength inner := by
    omega
  have hinner := run_slice (front ++ ['"']) inner ('"' :: rest) (cursor.toBytes text) hbytes
  rw [hstart, ← hstop] at hinner
  have hbefore : (ByteMovement.before (cursor.position + byteLength ('"' :: (inner ++ ['"'])))).run
      (cursor.toBytes text) =
        .ok (cursor.position + byteLength ('"' :: (inner ++ ['"'])) - 1) (cursor.toBytes text) := by
    unfold ByteMovement.before
    rw [if_neg (by omega)]
    rfl
  unfold ByteMovement.content
  rw [EStateM.run_bind, run_slice_quoted hin hrest]
  simp only [if_neg hcontains, EStateM.run_bind, hbefore, hinner, run_decode]
  rfl

theorem run_content (hin : In text cursor) (hrest : cursor.rest = '"' :: (inner ++ ['"'] ++ rest)) :
    (ByteMovement.content cursor.position (cursor.position + byteLength ('"' :: (inner ++ ['"'])))).run
        (cursor.toBytes text) = contentOf (cursor.toBytes text) (decodeQuoted (inner ++ ['"'])) := by
  by_cases hescapes : '\\' ∈ inner ++ ['"']
  · exact run_content_escaped hin hrest hescapes
  · have hdecode : decodeQuoted (inner ++ ['"']) = some (String.ofList inner) := by
      unfold decodeQuoted
      rw [if_neg (by rwa [List.contains_iff_mem]), List.dropLast_concat]
    rw [hdecode]
    exact run_content_plain hin hrest hescapes

end Content

theorem exists_of_token_string (htoken : cursor.token = .string) : ∃ text', cursor.rest = '"' :: text' := by
  unfold Cursor.token at htoken
  cases hrest : cursor.rest with
  | nil =>
      rw [hrest] at htoken
      cases htoken
  | cons c text' =>
      rw [hrest] at htoken
      obtain rfl := eq_quote_of_ofChar htoken
      exact ⟨text', rfl⟩

theorem mirrorsAt_readString (hin : In text cursor) (htoken : cursor.token = .string) :
    MirrorsAt text 1 cursor ByteMovement.readString readString := by
  obtain ⟨text', hrest⟩ := exists_of_token_string htoken
  have hplace : (cursor.toBytes text).place = cursor.position := rfl
  have hend := run_stringEnd hin hrest
  unfold ByteMovement.readString readString
  cases hsplit : splitQuoted text' with
  | none =>
      rw [hsplit] at hend
      refine (mirrorsAt_fail .unterminatedString).congr ?_ ?_
      · simp only [EStateM.run_bind, EStateM.run_get, hplace, hend]
        rfl
      · simp only [EStateM.run_bind, run_rest, hrest, List.drop_one, List.tail_cons, hsplit]
  | some found =>
      obtain ⟨quoted, rest⟩ := found
      rw [hsplit] at hend
      obtain ⟨htext', hne, -⟩ := splitQuoted_append hsplit
      obtain ⟨inner, rfl⟩ := exists_of_splitQuoted hsplit
      have hcontent := run_content hin (hrest.trans (congrArg ('"' :: ·) htext'))
      have hpiece : cursor.rest = ('"' :: (inner ++ ['"'])) ++ rest := hrest.trans (congrArg ('"' :: ·) htext')
      cases hdecode : decodeQuoted (inner ++ ['"']) with
      | none =>
          rw [hdecode] at hcontent
          refine (mirrorsAt_throw .malformedJson).congr ?_ ?_
          · simp only [EStateM.run_bind, EStateM.run_get, hplace, hend, endOfQuoted, hcontent, contentOf]
            rfl
          · simp only [EStateM.run_bind, run_rest, hrest, List.drop_one, List.tail_cons, hsplit, hdecode]
      | some key =>
          rw [hdecode] at hcontent
          have hmove := (mirrorsAt_moveTo hin hpiece).mono (Nat.succ_pos _)
          refine (hmove.bind hin (Nat.lt_succ_self _) fun _ => mirrors_pure key).congr ?_ ?_
          · simp only [EStateM.run_bind, EStateM.run_get, hplace, hend, endOfQuoted, hcontent, contentOf]
          · simp only [EStateM.run_bind, run_rest, hrest, List.drop_one, List.tail_cons, hsplit, hdecode]

/-! ### Tokens -/

/-- The symbols between values. -/
def symbolTokens : List Token := [.beginObject, .beginArray, .endObject, .endArray, .comma, .colon]

/-- A symbol is a single byte, and may change the depth. -/
theorem exists_run_advance (hin : In text cursor) (hsymbol : cursor.token ∈ symbolTokens) :
    ∃ depth, ByteMovement.advance.run (cursor.toBytes text) =
        (ByteMovement.moveTo (cursor.position + 1)).run ({ cursor with depth := depth }.toBytes text) ∧
      advance.run cursor = (moveTo (cursor.rest.drop 1)).run { cursor with depth := depth } := by
  have hsame := hin.token_toBytes
  unfold ByteMovement.advance advance
  simp only [symbolTokens, List.mem_cons, List.not_mem_nil, or_false] at hsymbol
  rcases hsymbol with htoken | htoken | htoken | htoken | htoken | htoken
  all_goals simp only [EStateM.run_bind, EStateM.run_get, run_token, hsame, htoken]
  · exact ⟨cursor.depth + 1, rfl, rfl⟩
  · exact ⟨cursor.depth + 1, rfl, rfl⟩
  · exact ⟨cursor.depth - 1, rfl, rfl⟩
  · exact ⟨cursor.depth - 1, rfl, rfl⟩
  · exact ⟨cursor.depth, rfl, rfl⟩
  · exact ⟨cursor.depth, rfl, rfl⟩

theorem mirrorsAt_symbol (hin : In text cursor) (hsymbol : cursor.token ∈ symbolTokens) :
    MirrorsAt text 1 cursor ByteMovement.advance advance := by
  obtain ⟨depth, hrun', hrun⟩ := exists_run_advance hin hsymbol
  unfold Cursor.token at hsymbol
  cases hrest : cursor.rest with
  | nil =>
      rw [hrest] at hsymbol
      exact absurd hsymbol (by decide)
  | cons c text' =>
      rw [hrest] at hsymbol hrun
      change Token.ofChar c ∈ symbolTokens at hsymbol
      have hlow : ¬IsHigh c := fun hhigh => by
        rw [ofChar_of_isHigh hhigh] at hsymbol
        exact absurd hsymbol (by decide)
      have hin' : In text { cursor with depth := depth } := ⟨hin.length_eq, hin.suffix⟩
      have hrest' : { cursor with depth := depth }.rest = [c] ++ text' := hrest
      have hmove := mirrorsAt_moveTo hin' hrest'
      rw [show byteLength [c] = 1 from utf8Size_of_low hlow] at hmove
      obtain ⟨hlength, hsuffix, hle⟩ : Passes 1 _ _ := hmove.lands
      refine ⟨(hrun'.trans hmove.run_eq).trans (congrArg (toBytes text) hrun.symm), ?_⟩
      rw [hrun]
      exact ⟨hlength, hsuffix, hle⟩

/-- What is no symbol is passed as a value. -/
theorem run_advance_eq_skipValue (hin : In text cursor) (hvalue : cursor.token ∈ .string :: wordTokens) :
    ByteMovement.advance.run (cursor.toBytes text) = ByteMovement.skipValue.run (cursor.toBytes text) ∧
      advance.run cursor = skipValue.run cursor := by
  have hsame := hin.token_toBytes
  simp only [wordTokens, List.mem_cons, List.not_mem_nil, or_false] at hvalue
  unfold ByteMovement.advance advance ByteMovement.skipValue ByteMovement.valueEnd
  rcases hvalue with htoken | htoken | htoken | htoken | htoken <;>
    simp only [EStateM.run_bind, EStateM.run_get, run_token, hsame, htoken, and_self]

theorem mem_tokens (token : Token) :
    token ∈ .string :: wordTokens ∨ token ∈ symbolTokens ∨ token = .finish ∨ token = .invalid := by
  cases token <;> decide

theorem mirrorsAt_advance (hin : In text cursor) : MirrorsAt text 1 cursor ByteMovement.advance advance := by
  have hsame := hin.token_toBytes
  rcases mem_tokens cursor.token with hvalue | hsymbol | htoken | htoken
  · obtain ⟨hrun', hrun⟩ := run_advance_eq_skipValue hin hvalue
    exact (mirrorsAt_skipValue hin).congr hrun' hrun
  · exact mirrorsAt_symbol hin hsymbol
  · unfold ByteMovement.advance advance
    refine (mirrorsAt_fail .unexpectedEnd).congr ?_ ?_
    · simp only [EStateM.run_bind, EStateM.run_get, hsame, htoken]
    · simp only [EStateM.run_bind, run_token, htoken]
  · unfold ByteMovement.advance advance
    refine (mirrorsAt_fail .unexpectedByte).congr ?_ ?_
    · simp only [EStateM.run_bind, EStateM.run_get, hsame, htoken]
    · simp only [EStateM.run_bind, run_token, htoken]

theorem mirrors_advance : Mirrors text 1 bound ByteMovement.advance advance := fun _ hin _ => mirrorsAt_advance hin

theorem mirrors_skipValue : Mirrors text 1 bound ByteMovement.skipValue skipValue :=
  fun _ hin _ => mirrorsAt_skipValue hin

theorem mirrors_readValue : Mirrors text 1 bound ByteMovement.readValue readValue :=
  fun _ hin _ => mirrorsAt_readValue hin

theorem mirrors_eat (separator : Token) : Mirrors text 0 bound (ByteMovement.eat separator) (eat separator) := by
  unfold ByteMovement.eat eat
  refine mirrors_token fun cursor hin hbound => .ite ?_ (mirrorsAt_pure false)
  exact (mirrors_advance.bind fun _ => mirrors_pure true).any cursor hin hbound

theorem mirrors_found : Mirrors text 0 bound ByteMovement.found found := by
  unfold ByteMovement.found found
  refine mirrors_token fun cursor _ _ => ?_
  cases cursor.token <;> exact mirrorsAt_pure _

end Movement

end TreeQuery
