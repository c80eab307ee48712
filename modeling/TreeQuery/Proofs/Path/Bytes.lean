import TreeQuery.Path.Parser

/-!
# Bytes of texts

Where raw text ends is looked for byte by byte. No byte of a character beyond ASCII is an ASCII character, so the search
stops where one by whole characters would, and what it cuts out is never cut inside a character.
-/

namespace TreeQuery

variable {c : Char} {text front back : List Char} {length depth : Nat} {quote : Option Char}

theorem byteLength_append (front back : List Char) :
    byteLength (front ++ back) = byteLength front + byteLength back := by
  induction front with
  | nil => simp [byteLength]
  | cons c front ih =>
      simp only [byteLength, List.cons_append, List.foldr_cons] at ih ⊢
      rw [ih, Nat.add_assoc]

theorem byteLength_cons (c : Char) (text : List Char) : byteLength (c :: text) = c.utf8Size + byteLength text := rfl

theorem utf8ByteSize_ofList (text : List Char) : (String.ofList text).utf8ByteSize = byteLength text := by
  induction text with
  | nil => rfl
  | cons c text ih => simp [byteLength_cons, ih]

/-- The bytes of a text, each as a character of its own. -/
def byteChars (text : List Char) : List Char := (text.flatMap Scanner.bytesOf).map Scanner.byteChar

theorem byteChars_append (front back : List Char) : byteChars (front ++ back) = byteChars front ++ byteChars back := by
  simp [byteChars]

theorem length_byteChars (text : List Char) : (byteChars text).length = byteLength text := by
  induction text with
  | nil => rfl
  | cons c text ih =>
      rw [← List.singleton_append, byteChars_append, List.length_append, ih, List.singleton_append, byteLength_cons]
      simp [byteChars, Scanner.bytesOf, String.length_utf8EncodeChar]

theorem isEmpty_byteChars (text : List Char) : (byteChars text).isEmpty = text.isEmpty := by
  cases text with
  | nil => rfl
  | cons c text =>
      have hlength := length_byteChars (c :: text)
      have hsize := c.utf8Size_pos
      rw [byteLength_cons] at hlength
      rw [List.isEmpty_cons, List.isEmpty_eq_false_iff, ← List.length_pos_iff]
      omega

theorem bytes_eq_byteChars (length : Nat) (text : List Char) :
    (Scanner.bytes ⟨length, text, 0⟩).map Scanner.byteChar = byteChars text := rfl

theorem toNat_byteChar (byte : UInt8) : (Scanner.byteChar byte).toNat = byte.toNat := by
  have hbyte := byte.toNat_lt
  have hvalid : byte.toNat.isValidChar := .inl (by omega)
  rw [Scanner.byteChar, Char.ofNat, dif_pos hvalid]
  rfl

/-- Characters beyond ASCII, and the single bytes of such characters. -/
def IsHigh (c : Char) : Prop := 0x80 ≤ c.toNat

instance (c : Char) : Decidable (IsHigh c) := inferInstanceAs (Decidable (_ ≤ _))

theorem byteChars_cons_low (hlow : ¬IsHigh c) (text : List Char) : byteChars (c :: text) = c :: byteChars text := by
  have hcode : c.toNat ≤ 127 := by
    rw [IsHigh] at hlow
    omega
  have hencode : String.utf8EncodeChar c = [UInt8.ofNat c.toNat] := if_pos hcode
  have hchar : Scanner.byteChar (UInt8.ofNat c.toNat) = c := by
    rw [← Char.toNat_inj, toNat_byteChar, UInt8.toNat_ofNat']
    omega
  simp [byteChars, Scanner.bytesOf, hencode, hchar]

theorem le_of_mem_utf8EncodeChar (hhigh : IsHigh c) : ∀ byte ∈ String.utf8EncodeChar c, 0x80 ≤ byte.toNat := by
  have hcode : ¬c.val.toNat ≤ 127 := Nat.not_le_of_lt hhigh
  rw [String.utf8EncodeChar, if_neg hcode]
  repeat' split
  all_goals simp only [List.mem_cons, List.not_mem_nil, or_false, forall_eq_or_imp, forall_eq, UInt8.toNat_ofNat']
  all_goals omega

theorem isHigh_of_mem_byteChars (hhigh : IsHigh c) : ∀ x ∈ byteChars [c], IsHigh x := by
  intro x hmem
  rw [byteChars, List.flatMap_singleton] at hmem
  obtain ⟨byte, hbyte, rfl⟩ := List.mem_map.mp hmem
  rw [IsHigh, toNat_byteChar]
  exact le_of_mem_utf8EncodeChar hhigh byte hbyte

/-! ### Looking for an end -/

theorem isHigh_facts (hhigh : IsHigh c) :
    isQuote c = false ∧ opensBracket c = false ∧ closesBracket c = false := by
  have hne : ∀ x, ¬IsHigh x → c ≠ x := by
    rintro x hx rfl
    exact hx hhigh
  simp [isQuote, opensBracket, closesBracket, hne '\'' (by decide), hne '"' (by decide), hne '[' (by decide),
    hne '(' (by decide), hne ']' (by decide), hne ')' (by decide)]

theorem not_isHigh_of_isQuote (hquote : isQuote c = true) : ¬IsHigh c := fun hhigh => by
  rw [(isHigh_facts hhigh).1] at hquote
  cases hquote

/-- Only ASCII characters open a quoted part. -/
def QuoteIsLow (quote : Option Char) : Prop := ∀ c ∈ quote, ¬IsHigh c

theorem quoteIsLow_none : QuoteIsLow none := fun _ hmem => by cases hmem

theorem quoteIsLow_some (hquote : isQuote c = true) : QuoteIsLow (some c) := fun _ hmem =>
  Option.some.inj hmem ▸ not_isHigh_of_isQuote hquote

variable {ends : Char → Bool}

theorem append_splitOutside (ends : Char → Bool) (depth : Nat) (quote : Option Char) (text : List Char) :
    (splitOutside ends depth quote text).1 ++ (splitOutside ends depth quote text).2 = text := by
  induction text generalizing depth quote with
  | nil => cases quote <;> rfl
  | cons c text ih =>
      cases quote with
      | some quote => simp [splitOutside, ih]
      | none =>
          simp only [splitOutside]
          repeat' split
          all_goals simp [ih]

theorem splitOutside_high (hends : ∀ c, IsHigh c → ends c = false) (hlow : QuoteIsLow quote)
    (hfront : ∀ c ∈ front, IsHigh c) (depth : Nat) (back : List Char) :
    splitOutside ends depth quote (front ++ back) =
      (front ++ (splitOutside ends depth quote back).1, (splitOutside ends depth quote back).2) := by
  induction front with
  | nil => rfl
  | cons c front ih =>
      obtain ⟨hc, hfront⟩ := List.forall_mem_cons.mp hfront
      obtain ⟨hquote, hopen, hclose⟩ := isHigh_facts hc
      rw [List.cons_append]
      cases quote with
      | none => simp [splitOutside, hquote, hopen, hclose, hends c hc, ih hfront]
      | some quote =>
          have hne : c ≠ quote := fun heq => hlow quote rfl (heq ▸ hc)
          simp [splitOutside, hne, ih hfront]

/-- Looking through the bytes stops in front of the same character as looking through the characters. -/
theorem splitOutside_byteChars (hends : ∀ c, IsHigh c → ends c = false) (hlow : QuoteIsLow quote) (depth : Nat)
    (text : List Char) :
    splitOutside ends depth quote (byteChars text) =
      (splitOutside ends depth quote text).map byteChars byteChars := by
  induction text generalizing depth quote with
  | nil => cases quote <;> rfl
  | cons c text ih =>
      by_cases hhigh : IsHigh c
      · have hchar : ∀ x ∈ [c], IsHigh x := List.forall_mem_singleton.mpr hhigh
        rw [← List.singleton_append, byteChars_append, splitOutside_high hends hlow (isHigh_of_mem_byteChars hhigh),
          splitOutside_high hends hlow hchar, ih hlow, Prod.map, Prod.map, byteChars_append]
      · have hpass : ∀ depth {quote}, QuoteIsLow quote →
            (c :: (splitOutside ends depth quote (byteChars text)).1,
                (splitOutside ends depth quote (byteChars text)).2) =
              Prod.map byteChars byteChars
                (c :: (splitOutside ends depth quote text).1, (splitOutside ends depth quote text).2) := by
          intro depth quote hlow
          rw [ih hlow, Prod.map, Prod.map, byteChars_cons_low hhigh]
        rw [byteChars_cons_low hhigh]
        cases quote with
        | some quote =>
            refine hpass depth ?_
            split
            · exact quoteIsLow_none
            · exact hlow
        | none =>
            simp only [splitOutside]
            split
            · next hquote => exact hpass depth (quoteIsLow_some hquote)
            · split
              · exact hpass (depth + 1) quoteIsLow_none
              · split
                · exact hpass (depth - 1) quoteIsLow_none
                · split
                  · rw [Prod.map, byteChars_cons_low hhigh]
                    rfl
                  · exact hpass depth quoteIsLow_none

/-! ### Passing bytes -/

theorem utf8Size_of_low (hlow : ¬IsHigh c) : c.utf8Size = 1 := by
  have hlength := congrArg List.length (byteChars_cons_low hlow [])
  rw [length_byteChars] at hlength
  exact hlength

theorem skipBytes_append (length : Nat) (front back : List Char) :
    Scanner.skipBytes length 0 (byteLength front) (front ++ back) = ⟨length, back, 0⟩ := by
  induction front with
  | nil =>
      cases back with
      | nil => rfl
      | cons c back => exact if_pos c.utf8Size_pos
  | cons c front ih =>
      rw [List.cons_append, byteLength_cons, Scanner.skipBytes, if_neg (by omega), Nat.sub_zero,
        Nat.add_sub_cancel_left]
      exact ih

/-- As many bytes as whole characters have lead behind these characters. -/
theorem advance_append (length : Nat) (front back : List Char) :
    Scanner.advance ⟨length, front ++ back, 0⟩ (byteLength front) = ⟨length, back, 0⟩ :=
  skipBytes_append length front back

end TreeQuery
