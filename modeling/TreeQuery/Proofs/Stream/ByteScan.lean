import TreeQuery.Proofs.Stream.Consumed

/-!
# Scanning bytes

The end of a value is found among the bytes of the text, by an index that moves on and a count of open brackets. It is
the end that is found among the characters: no byte of a character beyond ASCII is taken for a delimiter, and the count
never falls below zero, as a container begins with a bracket that opens it.
-/

namespace TreeQuery

open Text

/-- What a check finds wrong. -/
inductive Breach
  /-- A counter that would fall below zero. -/
  | underflow
  /-- A slice that does not lie in the text. -/
  | outOfRange
  /-- A slice of bytes that encode nothing. -/
  | notText
  /-- A loop that goes on when it has had a round for each byte left and one more. -/
  | endless
deriving DecidableEq, Repr

/-- The byte at a place, as a character of its own. -/
def byteCharAt? (bytes : List UInt8) (place : Nat) : Option Char := bytes[place]?.map Scanner.byteChar

theorem lt_length_of_byteCharAt? {bytes : List UInt8} {place : Nat} {c : Char}
    (hchar : byteCharAt? bytes place = some c) : place < bytes.length := by
  obtain ⟨byte, hbyte, -⟩ := Option.map_eq_some_iff.mp hchar
  exact (List.getElem?_eq_some_iff.mp hbyte).1

/-- The first place from here on that does not pass a test. -/
def passWhile (accepts : Char → Bool) (bytes : List UInt8) (place : Nat) : Nat :=
  match hchar : byteCharAt? bytes place with
  | none => place
  | some c => if accepts c then passWhile accepts bytes (place + 1) else place
termination_by bytes.length - place
decreasing_by
  have hlt := lt_length_of_byteCharAt? hchar
  omega

/-- The place behind the closing quote of a string; a backslash takes the next byte with it. -/
def quoteEnd? (bytes : List UInt8) (place : Nat) : Option Nat :=
  match hchar : byteCharAt? bytes place with
  | none => none
  | some c =>
    if c = '\\' then quoteEnd? bytes (place + 2)
    else if c = '"' then some (place + 1)
    else quoteEnd? bytes (place + 1)
termination_by bytes.length - place
decreasing_by
  all_goals
    have hlt := lt_length_of_byteCharAt? hchar
    omega

theorem lt_of_quoteEnd? {bytes : List UInt8} {place stop : Nat} (hend : quoteEnd? bytes place = some stop) :
    place < stop := by
  fun_induction quoteEnd? bytes place with
  | case1 => cases hend
  | case2 place _ ih =>
      have hlt := ih hend
      omega
  | case3 place =>
      obtain rfl := Option.some.inj hend
      exact Nat.lt_succ_self place
  | case4 place _ _ _ _ ih =>
      have hlt := ih hend
      omega

/-- The place behind the bracket that closes the last of `nesting` open ones. -/
def containerEnd (bytes : List UInt8) (nesting place : Nat) : Except (Breach ⊕ CursorFault) Nat :=
  match hchar : byteCharAt? bytes place with
  | none => .error (.inr .unterminatedContainer)
  | some c =>
    if c = '"' then
      match _ : quoteEnd? bytes (place + 1) with
      | none => .error (.inr .unterminatedString)
      | some stop => containerEnd bytes nesting stop
    else if opensContainer c then containerEnd bytes (nesting + 1) (place + 1)
    else if closesContainer c then
      if nesting = 0 then .error (.inl .underflow)
      else if nesting = 1 then .ok (place + 1)
      else containerEnd bytes (nesting - 1) (place + 1)
    else containerEnd bytes nesting (place + 1)
termination_by bytes.length - place
decreasing_by
  all_goals have hlt := lt_length_of_byteCharAt? hchar
  · have hstop := lt_of_quoteEnd? (by assumption)
    omega
  all_goals omega

/-! ### Characters as bytes -/

variable {front back bytes : List UInt8} {byte : UInt8} {text piece rest : List Char} {c : Char}

theorem byteCharAt?_length (front back : List UInt8) :
    byteCharAt? (front ++ back) front.length = back.head?.map Scanner.byteChar := by
  unfold byteCharAt?
  rw [List.getElem?_append_right (Nat.le_refl _), Nat.sub_self, List.head?_eq_getElem?]

theorem byteCharAt?_cons (front : List UInt8) (byte : UInt8) (back : List UInt8) :
    byteCharAt? (front ++ byte :: back) front.length = some (Scanner.byteChar byte) := byteCharAt?_length front _

theorem byteCharAt?_nil (front : List UInt8) : byteCharAt? (front ++ bytesOf []) front.length = none :=
  byteCharAt?_length front []

theorem bytesOf_cons (c : Char) (text : List Char) : bytesOf (c :: text) = String.utf8EncodeChar c ++ bytesOf text :=
  List.flatMap_cons

/-- A character is its own single byte, or all its bytes are beyond ASCII like itself. -/
theorem low_or_high (c : Char) :
    (∃ byte, String.utf8EncodeChar c = [byte] ∧ Scanner.byteChar byte = c) ∨
      IsHigh c ∧ ∀ byte ∈ String.utf8EncodeChar c, IsHigh (Scanner.byteChar byte) := by
  by_cases hhigh : IsHigh c
  · refine .inr ⟨hhigh, fun byte hbyte => ?_⟩
    unfold IsHigh
    rw [toNat_byteChar]
    exact le_of_mem_utf8EncodeChar hhigh byte hbyte
  · have hchars := byteChars_cons_low hhigh []
    have hmap : (String.utf8EncodeChar c).map Scanner.byteChar = [c] := by
      simpa [byteChars, Scanner.bytesOf] using hchars
    obtain ⟨byte, hbytes, hbyte⟩ := List.map_eq_singleton_iff.mp hmap
    exact .inl ⟨byte, hbytes, hbyte⟩

/-- What holds of a character holds of its bytes, unless it tells characters beyond ASCII apart. -/
theorem forall_byte {p : Char → Prop} (hc : p c) (hhigh : IsHigh c → ∀ x, IsHigh x → p x) :
    ∀ byte ∈ String.utf8EncodeChar c, p (Scanner.byteChar byte) := by
  intro byte hbyte
  rcases low_or_high c with ⟨low, hbytes, rfl⟩ | ⟨hc', hbytes⟩
  · rw [hbytes, List.mem_singleton] at hbyte
    rwa [hbyte]
  · exact hhigh hc' _ (hbytes byte hbyte)

/-- A scan that goes on at every byte of some kind passes whole runs of them. -/
theorem scan_bytes {β : Type} {scan : List UInt8 → Nat → β} {p : Char → Prop}
    (hscan : ∀ front byte back, p (Scanner.byteChar byte) →
      scan (front ++ byte :: back) front.length = scan (front ++ byte :: back) (front.length + 1))
    (hbytes : ∀ byte ∈ bytes, p (Scanner.byteChar byte)) (front back : List UInt8) :
    scan (front ++ (bytes ++ back)) front.length = scan (front ++ bytes ++ back) (front ++ bytes).length := by
  induction bytes generalizing front with
  | nil => rw [List.nil_append, List.append_nil]
  | cons byte bytes ih =>
      obtain ⟨hbyte, hbytes⟩ := List.forall_mem_cons.mp hbytes
      have hrest := ih hbytes (front ++ [byte])
      rw [List.append_assoc, List.singleton_append, List.length_append, List.length_singleton] at hrest
      rw [List.cons_append, hscan front byte _ hbyte, hrest]
      simp only [List.append_assoc, List.singleton_append]

theorem length_append_encode (front : List UInt8) (c : Char) (text : List Char) :
    (front ++ String.utf8EncodeChar c).length + byteLength text = front.length + byteLength (c :: text) := by
  rw [List.length_append, String.length_utf8EncodeChar, byteLength_cons, Nat.add_assoc]

/-! ### Runs of characters -/

section Runs

variable {accepts : Char → Bool}

theorem passWhile_of_pos (hchar : accepts (Scanner.byteChar byte) = true) (front back : List UInt8) :
    passWhile accepts (front ++ byte :: back) front.length =
      passWhile accepts (front ++ byte :: back) (front.length + 1) := by
  rw [passWhile]
  split
  · next hnone =>
      rw [byteCharAt?_cons] at hnone
      cases hnone
  · next c hsome =>
      rw [byteCharAt?_cons] at hsome
      obtain rfl := Option.some.inj hsome
      rw [if_pos hchar]

theorem passWhile_of_neg (hchar : ∀ byte ∈ back.head?, accepts (Scanner.byteChar byte) = false) (front : List UInt8) :
    passWhile accepts (front ++ back) front.length = front.length := by
  rw [passWhile]
  split
  · rfl
  · next c hsome =>
      rw [byteCharAt?_length] at hsome
      obtain ⟨byte, hbyte, rfl⟩ := Option.map_eq_some_iff.mp hsome
      rw [hchar byte hbyte, if_neg Bool.false_ne_true]

/-- A test that does not tell characters beyond ASCII apart passes the same text byte by byte. -/
theorem passWhile_bytesOf {always : Bool} (haccepts : ∀ c, IsHigh c → accepts c = always) (front : List UInt8)
    (text : List Char) :
    passWhile accepts (front ++ bytesOf text) front.length = front.length + byteLength (text.takeWhile accepts) := by
  have hsame : ∀ c, IsHigh c → ∀ x, IsHigh x → accepts x = accepts c := fun c hc x hx =>
    (haccepts x hx).trans (haccepts c hc).symm
  induction text generalizing front with
  | nil => exact passWhile_of_neg (fun _ hbyte => absurd hbyte (Option.not_mem_none _)) front
  | cons c text ih =>
      by_cases hc : accepts c = true
      · have hbytes := forall_byte hc fun hhigh x hx => (hsame c hhigh x hx).trans hc
        have hpass := scan_bytes (p := fun c => accepts c = true)
          (fun front _ back hbyte => passWhile_of_pos hbyte front back) hbytes front (bytesOf text)
        rw [bytesOf_cons, hpass, ih, List.takeWhile_cons_of_pos hc, length_append_encode]
      · rw [List.takeWhile_cons_of_neg hc]
        refine passWhile_of_neg (fun byte hbyte => ?_) front
        have hne : accepts c = false := Bool.eq_false_iff.mpr hc
        have hbytes := forall_byte hne fun hhigh x hx => (hsame c hhigh x hx).trans hne
        rw [head?_bytesOf_cons] at hbyte
        exact hbytes byte (List.mem_of_head? hbyte)

end Runs

/-! ### Strings -/

theorem quoteEnd?_of_none {place : Nat} (hchar : byteCharAt? bytes place = none) : quoteEnd? bytes place = none := by
  rw [quoteEnd?]
  split
  · rfl
  · next hsome =>
      rw [hchar] at hsome
      cases hsome

theorem quoteEnd?_of_some {place : Nat} (hchar : byteCharAt? bytes place = some c) :
    quoteEnd? bytes place =
      if c = '\\' then quoteEnd? bytes (place + 2)
      else if c = '"' then some (place + 1)
      else quoteEnd? bytes (place + 1) := by
  rw [quoteEnd?]
  split
  · next hnone =>
      rw [hchar] at hnone
      cases hnone
  · next x hsome =>
      rw [hchar] at hsome
      obtain rfl := Option.some.inj hsome
      rfl

/-- Neither a backslash nor a quotation mark. -/
def IsOrdinary (c : Char) : Prop := c ≠ '\\' ∧ c ≠ '"'

theorem isOrdinary_of_isHigh (hhigh : IsHigh c) : IsOrdinary c :=
  ⟨ne_of_isHigh hhigh (by decide), ne_of_isHigh hhigh (by decide)⟩

theorem quoteEnd?_bytes (hbytes : ∀ byte ∈ bytes, IsOrdinary (Scanner.byteChar byte)) (front back : List UInt8) :
    quoteEnd? (front ++ (bytes ++ back)) front.length = quoteEnd? (front ++ bytes ++ back) (front ++ bytes).length := by
  refine scan_bytes (fun front byte back hbyte => ?_) hbytes front back
  rw [quoteEnd?_of_some (byteCharAt?_cons front byte back), if_neg hbyte.1, if_neg hbyte.2]

/-- A backslash takes the next character with it. -/
theorem quoteEnd?_backslash (front : List UInt8) (c : Char) (text : List Char) :
    quoteEnd? (front ++ bytesOf ('\\' :: c :: text)) front.length =
      quoteEnd? (front ++ bytesOf ['\\', c] ++ bytesOf text) (front ++ bytesOf ['\\', c]).length := by
  obtain ⟨byte, more, hencode, hmore⟩ : ∃ byte more, String.utf8EncodeChar c = byte :: more ∧
      ∀ byte ∈ more, IsOrdinary (Scanner.byteChar byte) := by
    rcases low_or_high c with ⟨byte, hbytes, -⟩ | ⟨-, hbytes⟩
    · exact ⟨byte, [], hbytes, fun _ hbyte => absurd hbyte List.not_mem_nil⟩
    · obtain ⟨byte, hbyte⟩ := exists_head? c
      obtain ⟨more, hencode⟩ := List.head?_eq_some_iff.mp hbyte
      rw [hencode] at hbytes
      exact ⟨byte, more, hencode, fun byte hbyte => isOrdinary_of_isHigh (hbytes byte (List.mem_cons_of_mem _ hbyte))⟩
  have hslash : String.utf8EncodeChar '\\' = [0x5C] := by decide
  have hpair : bytesOf ['\\', c] = [0x5C, byte] ++ more := by
    rw [bytesOf_cons, bytesOf_cons, hslash, hencode]
    exact congrArg (0x5C :: byte :: ·) (List.append_nil more)
  have htext : bytesOf ('\\' :: c :: text) = 0x5C :: byte :: (more ++ bytesOf text) := by
    rw [bytesOf_cons, bytesOf_cons, hslash, hencode]
    rfl
  have hpass := quoteEnd?_bytes hmore (front ++ [0x5C, byte]) (bytesOf text)
  rw [htext, hpair, quoteEnd?_of_some (byteCharAt?_cons front _ _), if_pos (by decide)]
  rw [List.append_assoc, List.length_append] at hpass
  rwa [← List.append_assoc front]

theorem quoteEnd?_bytesOf (front : List UInt8) (text : List Char) :
    quoteEnd? (front ++ bytesOf text) front.length =
      (splitQuoted text).map fun found => front.length + byteLength found.1 := by
  fun_induction splitQuoted text generalizing front with
  | case1 => exact quoteEnd?_of_none (byteCharAt?_nil front)
  | case2 c text ih =>
      rw [quoteEnd?_backslash, ih, Option.map_map, List.length_append, length_bytesOf]
      refine congrArg (Option.map · _) (funext fun found => ?_)
      exact (Nat.add_assoc ..).trans (congrArg (front.length + ·) (byteLength_append ['\\', c] found.1).symm)
  | case3 text =>
      rw [bytesOf_cons, show String.utf8EncodeChar '"' = [0x22] by decide]
      exact quoteEnd?_of_some (byteCharAt?_cons front 0x22 _)
  | case4 text hslash =>
      cases text with
      | cons c text => exact (hslash c text rfl rfl).elim
      | nil =>
          rw [show bytesOf ['\\'] = [0x5C] by decide, quoteEnd?_of_some (byteCharAt?_cons front 0x5C []),
            if_pos (by decide)]
          refine quoteEnd?_of_none ?_
          unfold byteCharAt?
          rw [List.getElem?_eq_none (by simp)]
          rfl
  | case5 c text _ hquote hslash ih =>
      have hbytes := forall_byte (p := IsOrdinary) ⟨hslash, hquote⟩ fun _ _ => isOrdinary_of_isHigh
      rw [bytesOf_cons, quoteEnd?_bytes hbytes, ih, Option.map_map]
      refine congrArg (Option.map · _) (funext fun found => ?_)
      exact length_append_encode front c found.1

/-! ### Containers -/

/-- Where the text that is split off ends, when it starts at a place. -/
def endFrom (start : Nat) : Except CursorFault (List Char × List Char) → Except (Breach ⊕ CursorFault) Nat
  | .ok (piece, _) => .ok (start + byteLength piece)
  | .error cause => .error (.inr cause)

theorem endFrom_map (start : Nat) (piece : List Char) (result : Except CursorFault (List Char × List Char)) :
    endFrom start (result.map fun (more, rest) => (piece ++ more, rest)) =
      endFrom (start + byteLength piece) result := by
  cases result with
  | error cause => rfl
  | ok found =>
      refine congrArg Except.ok ?_
      rw [byteLength_append, Nat.add_assoc]

theorem containerEnd_of_none {nesting place : Nat} (hchar : byteCharAt? bytes place = none) :
    containerEnd bytes nesting place = .error (.inr .unterminatedContainer) := by
  rw [containerEnd]
  split
  · rfl
  · next hsome =>
      rw [hchar] at hsome
      cases hsome

theorem containerEnd_of_some {nesting place : Nat} (hchar : byteCharAt? bytes place = some c) :
    containerEnd bytes nesting place =
      if c = '"' then
        match quoteEnd? bytes (place + 1) with
        | none => .error (.inr .unterminatedString)
        | some stop => containerEnd bytes nesting stop
      else if opensContainer c then containerEnd bytes (nesting + 1) (place + 1)
      else if closesContainer c then
        if nesting = 0 then .error (.inl .underflow)
        else if nesting = 1 then .ok (place + 1)
        else containerEnd bytes (nesting - 1) (place + 1)
      else containerEnd bytes nesting (place + 1) := by
  rw [containerEnd]
  split
  · next hnone =>
      rw [hchar] at hnone
      cases hnone
  · next x hsome =>
      rw [hchar] at hsome
      obtain rfl := Option.some.inj hsome
      refine ite_congr rfl (fun _ => ?_) fun _ => rfl
      split <;> next hend => rw [hend]

theorem isPlain_of_isHigh (hhigh : IsHigh c) : IsPlain c := by
  have hne : ∀ x, ¬IsHigh x → c ≠ x := fun x hx => ne_of_isHigh hhigh hx
  simp [IsPlain, opensContainer, closesContainer, hne '"' (by decide), hne '\x7b' (by decide), hne '[' (by decide),
    hne '\x7d' (by decide), hne ']' (by decide)]

theorem not_isHigh_of_closes (hcloses : closesContainer c = true) : ¬IsHigh c := fun hhigh =>
  Bool.false_ne_true ((isPlain_of_isHigh hhigh).2.2.symm.trans hcloses)

theorem containerEnd_bytes {nesting : Nat} (hbytes : ∀ byte ∈ bytes, IsPlain (Scanner.byteChar byte))
    (front back : List UInt8) :
    containerEnd (front ++ (bytes ++ back)) nesting front.length =
      containerEnd (front ++ bytes ++ back) nesting (front ++ bytes).length := by
  have hpass : ∀ (front : List UInt8) (byte : UInt8) (back : List UInt8), IsPlain (Scanner.byteChar byte) →
      containerEnd (front ++ byte :: back) nesting front.length =
        containerEnd (front ++ byte :: back) nesting (front.length + 1) := by
    intro front byte back hplain
    rw [containerEnd_of_some (byteCharAt?_cons front byte back), if_neg hplain.1, hplain.2.1, hplain.2.2,
      if_neg Bool.false_ne_true, if_neg Bool.false_ne_true]
  exact @scan_bytes bytes _ (fun bytes place => containerEnd bytes nesting place) IsPlain hpass hbytes front back

theorem append_bytesOf_cons (front : List UInt8) (c : Char) (text : List Char) :
    front ++ bytesOf (c :: text) = front ++ String.utf8EncodeChar c ++ bytesOf text := by
  rw [bytesOf_cons, List.append_assoc]

/-- An ASCII character is found at its place and passed by a single step. -/
theorem found_low (hlow : ¬IsHigh c) (front : List UInt8) (text : List Char) :
    byteCharAt? (front ++ bytesOf (c :: text)) front.length = some c ∧
      (front ++ String.utf8EncodeChar c).length = front.length + 1 := by
  rcases low_or_high c with ⟨byte, hbytes, rfl⟩ | ⟨hhigh, -⟩
  · rw [bytesOf_cons, hbytes]
    exact ⟨byteCharAt?_cons front byte _, List.length_append⟩
  · exact absurd hhigh hlow

section Container

variable {nesting nesting' fuel : Nat}

/-- Where both scans pass a character, they end at the same place if they do from the next one on. -/
theorem containerEnd_step {result : Except CursorFault (List Char × List Char)}
    (hpass : containerEnd (front ++ bytesOf (c :: text)) nesting front.length =
      containerEnd (front ++ String.utf8EncodeChar c ++ bytesOf text) nesting'
        (front ++ String.utf8EncodeChar c).length)
    (hrest : containerEnd (front ++ String.utf8EncodeChar c ++ bytesOf text) nesting'
      (front ++ String.utf8EncodeChar c).length = endFrom (front ++ String.utf8EncodeChar c).length result) :
    containerEnd (front ++ bytesOf (c :: text)) nesting front.length =
      endFrom front.length (result.map fun (piece, rest) => (c :: piece, rest)) := by
  rw [hpass, hrest]
  refine Eq.trans ?_ (endFrom_map front.length [c] result).symm
  rw [List.length_append, String.length_utf8EncodeChar, byteLength_cons]
  rfl

theorem ne_quote_of_opens (hopens : opensContainer c = true) : c ≠ '"' := by
  rintro rfl
  exact absurd hopens (by decide)

/-- A bracket that opens is counted. -/
theorem containerEnd_open (hopens : opensContainer c = true) (front : List UInt8) (text : List Char) :
    containerEnd (front ++ bytesOf (c :: text)) nesting front.length =
      containerEnd (front ++ String.utf8EncodeChar c ++ bytesOf text) (nesting + 1)
        (front ++ String.utf8EncodeChar c).length := by
  have hlow : ¬IsHigh c := fun hhigh => Bool.false_ne_true ((isPlain_of_isHigh hhigh).2.1.symm.trans hopens)
  obtain ⟨hchar, hlength⟩ := found_low hlow front text
  rw [containerEnd_of_some hchar, if_neg (ne_quote_of_opens hopens), if_pos hopens, hlength, append_bytesOf_cons]

/-- Within a container the end is found as among the characters, and the count stays above zero. -/
theorem containerEnd_bytesOf (hfuel : text.length < fuel) (hnesting : 1 ≤ nesting) (front : List UInt8) :
    containerEnd (front ++ bytesOf text) nesting front.length =
      endFrom front.length (splitContainer fuel nesting text) := by
  induction fuel, nesting, text using splitContainer.induct generalizing front with
  | case1 nesting text => exact absurd hfuel (Nat.not_lt_zero _)
  | case2 fuel nesting hzero =>
      rw [splitContainer]
      · exact containerEnd_of_none (byteCharAt?_nil front)
      · exact hzero
  | case3 fuel nesting text hquoted =>
      obtain ⟨hchar, hlength⟩ := found_low (show ¬IsHigh '"' by decide) front text
      rw [splitContainer, if_pos rfl, hquoted, containerEnd_of_some hchar, if_pos rfl, append_bytesOf_cons, ← hlength,
        quoteEnd?_bytesOf, hquoted]
      rfl
  | case4 fuel nesting text quoted text' hquoted ih =>
      obtain ⟨hchar, hlength⟩ := found_low (show ¬IsHigh '"' by decide) front text
      obtain ⟨htext, -, -⟩ := splitQuoted_append hquoted
      have hfuel' : text'.length < fuel := by
        rw [htext, List.length_cons, List.length_append] at hfuel
        omega
      have hmore := ih hfuel' hnesting (front ++ String.utf8EncodeChar '"' ++ bytesOf quoted)
      rw [List.append_assoc (front ++ _), ← bytesOf_append, ← htext, List.length_append, length_bytesOf] at hmore
      rw [splitContainer, if_pos rfl, hquoted, containerEnd_of_some hchar, if_pos rfl, append_bytesOf_cons, ← hlength,
        quoteEnd?_bytesOf, hquoted]
      refine hmore.trans (Eq.trans ?_ (endFrom_map front.length ('"' :: quoted) _).symm)
      rw [length_append_encode]
  | case5 fuel nesting c text hquote hopens ih =>
      rw [splitContainer, if_neg hquote, if_pos hopens]
      exact containerEnd_step (containerEnd_open hopens front text)
        (ih (nesting + 1) (Nat.lt_of_succ_lt_succ hfuel) (Nat.le_add_left _ _) _)
  | case6 fuel nesting c text hquote hopens hcloses hlast ih =>
      have hlow := not_isHigh_of_closes hcloses
      rw [splitContainer, if_neg hquote, if_neg hopens, if_pos hcloses, if_pos hlast,
        containerEnd_of_some (found_low hlow front text).1, if_neg hquote, if_neg hopens, if_pos hcloses,
        if_neg (by omega), if_pos (by omega)]
      exact congrArg (fun size => Except.ok (front.length + size)) (utf8Size_of_low hlow).symm
  | case7 fuel nesting c text hquote hopens hcloses hlast ih =>
      have hpass : containerEnd (front ++ bytesOf (c :: text)) nesting front.length =
          containerEnd (front ++ String.utf8EncodeChar c ++ bytesOf text) (nesting - 1)
            (front ++ String.utf8EncodeChar c).length := by
        obtain ⟨hchar, hlength⟩ := found_low (not_isHigh_of_closes hcloses) front text
        rw [containerEnd_of_some hchar, if_neg hquote, if_neg hopens, if_pos hcloses, if_neg (by omega),
          if_neg (by omega), hlength, append_bytesOf_cons]
      rw [splitContainer, if_neg hquote, if_neg hopens, if_pos hcloses, if_neg hlast]
      exact containerEnd_step hpass (ih (nesting - 1) (Nat.lt_of_succ_lt_succ hfuel) (by omega) _)
  | case8 fuel nesting c text hquote hopens hcloses ih =>
      have hplain : IsPlain c := ⟨hquote, Bool.eq_false_iff.mpr hopens, Bool.eq_false_iff.mpr hcloses⟩
      have hbytes := forall_byte hplain fun _ _ => isPlain_of_isHigh
      rw [splitContainer, if_neg hquote, if_neg hopens, if_neg hcloses]
      refine containerEnd_step ?_ (ih nesting (Nat.lt_of_succ_lt_succ hfuel) hnesting _)
      rw [bytesOf_cons]
      exact containerEnd_bytes hbytes front (bytesOf text)

/-- The bracket that a container begins with is the first one counted. -/
theorem containerEnd_start (hopens : opensContainer c = true) (front : List UInt8) (text : List Char) :
    containerEnd (front ++ bytesOf (c :: text)) 0 front.length =
      endFrom front.length (splitContainer ((c :: text).length + 1) 0 (c :: text)) := by
  rw [splitContainer, if_neg (ne_quote_of_opens hopens), if_pos hopens]
  exact containerEnd_step (containerEnd_open hopens front text)
    (containerEnd_bytesOf (Nat.lt_succ_self _) (Nat.le_refl 1) _)

end Container

end TreeQuery
