import TreeQuery.Path.Parser
import TreeQuery.Proofs.Path.Bytes
import TreeQuery.Proofs.Path.Words
import TreeQuery.Proofs.Running

/-!
# Single readings of the scanner

What each reading gives on text of which the beginning is known, and where it leaves the scanner.
-/

namespace TreeQuery

@[simp]
theorem Parser.afterScan_ok {α : Type} (refers : Bool) (a : α) (s : Scanner) :
    afterScan refers (.ok a s) = .ok a ⟨s, refers⟩ := rfl

/-- Reading with the scanner alone leaves alone what has been noted about references. -/
@[simp]
theorem Scan.run_parse {α : Type} (scan : Scan α) (s : Scanner) (refers : Bool) :
    (liftM scan : Parse α).run ⟨s, refers⟩ = Parser.afterScan refers (scan.run s) := rfl

namespace Scan

variable {length : Nat} {text rest : List Char}

@[simp]
theorem run_peek? (s : Scanner) : peek?.run s = .ok s.rest.head? s := rfl

@[simp]
theorem run_rest (length : Nat) (text : List Char) :
    Scan.rest.run ⟨length, text, 0⟩ = .ok text ⟨length, text, 0⟩ := rfl

@[simp]
theorem run_atEnd (s : Scanner) : atEnd.run s = .ok s.rest.isEmpty s := rfl

@[simp]
theorem run_moveTo (text : List Char) (s : Scanner) : (moveTo text).run s = .ok () ⟨s.length, text, 0⟩ := rfl

/-- Characters of one byte are passed one by one. -/
@[simp]
theorem run_advance_cons {c : Char} (hlow : c.toNat < 0x80) (count : Nat) :
    (advance (count + 1)).run ⟨length, c :: rest, 0⟩ = (advance count).run ⟨length, rest, 0⟩ := by
  have hsize : c.utf8Size = 1 := utf8Size_of_low (Nat.not_le_of_lt hlow)
  have hskip : Scanner.skipBytes length 0 (count + 1) (c :: rest) = Scanner.skipBytes length 0 count rest := by
    rw [Scanner.skipBytes, hsize, if_neg (by omega), Nat.sub_zero, Nat.add_sub_cancel]
  exact congrArg (EStateM.Result.ok ()) hskip

@[simp]
theorem run_advance_zero (length : Nat) (rest : List Char) :
    (advance 0).run ⟨length, rest, 0⟩ = .ok () ⟨length, rest, 0⟩ :=
  congrArg (EStateM.Result.ok ()) (advance_append length [] rest)

theorem run_advance_append (length : Nat) (front back : List Char) :
    (advance (byteLength front)).run ⟨length, front ++ back, 0⟩ = .ok () ⟨length, back, 0⟩ :=
  congrArg (EStateM.Result.ok ()) (advance_append length front back)

@[simp]
theorem run_textFrom (length : Nat) (front back : List Char) :
    (textFrom ⟨length, front ++ back, 0⟩).run ⟨length, back, 0⟩ = .ok front ⟨length, back, 0⟩ := by
  simp [textFrom]

theorem run_eat_self (c : Char) : (eat c).run ⟨length, c :: rest, 0⟩ = .ok true ⟨length, rest, 0⟩ := by
  simp [eat]

theorem run_eat_of_head?_ne {c : Char} (hne : rest.head? ≠ some c) :
    (eat c).run ⟨length, rest, 0⟩ = .ok false ⟨length, rest, 0⟩ := by
  cases rest with
  | nil => rfl
  | cons first rest =>
      have hfirst : first ≠ c := by simpa using hne
      simp [eat, hfirst]

theorem run_expect (c : Char) : (expect c).run ⟨length, c :: rest, 0⟩ = .ok () ⟨length, rest, 0⟩ := by
  simp [expect, run_eat_self]

theorem run_skipBlank (hrest : ∀ c ∈ rest.head?, Text.isBlank c = false) :
    skipBlank.run ⟨length, rest, 0⟩ = .ok () ⟨length, rest, 0⟩ := by
  cases rest with
  | nil => rfl
  | cons c rest =>
      have hc : Text.isBlank c = false := hrest c rfl
      simp [skipBlank, hc]

theorem run_name (length : Nat) {name : List Char} (hne : name ≠ []) (hrest : EndsName rest) :
    Scan.name.run ⟨length, escapeName name ++ rest, 0⟩ = .ok (String.ofList name) ⟨length, rest, 0⟩ := by
  cases name with
  | nil => exact absurd rfl hne
  | cons c name => simp [Scan.name, splitName_escapeName hrest]

theorem run_string {quote : Char} (hquote : isQuote quote = true) :
    string.run ⟨length, quote :: (quoteText quote text ++ quote :: rest), 0⟩ =
      .ok (String.ofList text) ⟨length, rest, 0⟩ := by
  have hlow : quote.toNat < 0x80 := Nat.lt_of_not_le (not_isHigh_of_isQuote hquote)
  simp [string, hquote, hlow, splitString_quoteText hquote]

/-- Characters that stand for themselves in raw text. -/
def isRaw (c : Char) : Bool := !isQuote c && !opensBracket c && !closesBracket c

theorem run_textUntil_eq {close : Char} (hclose : ¬IsHigh close) (length : Nat) (text : List Char) :
    (textUntil close).run ⟨length, text, 0⟩ =
      if (splitOutside (· == close) 0 none text).2.isEmpty then
        .error (.path (.missingClose close) (Scanner.position ⟨length, text, 0⟩)) ⟨length, [], 0⟩
      else .ok (String.ofList (splitOutside (· == close) 0 none text).1)
        ⟨length, (splitOutside (· == close) 0 none text).2, 0⟩ := by
  have hends : ∀ c, IsHigh c → (c == close) = false := fun c hhigh =>
    beq_eq_false_iff_ne.mpr fun heq => hclose (heq ▸ hhigh)
  have hbytes := splitOutside_byteChars hends quoteIsLow_none 0 text
  have happend := append_splitOutside (· == close) 0 none text
  generalize splitOutside (· == close) 0 none text = split at hbytes happend ⊢
  obtain ⟨front, back⟩ := split
  subst happend
  simp only [textUntil, EStateM.run_bind, EStateM.run_get, bytes_eq_byteChars, hbytes, Prod.map, length_byteChars,
    run_advance_append, isEmpty_byteChars]
  cases back with
  | nil => rfl
  | cons c back => simp

theorem isHigh_endsReference {c : Char} (hhigh : IsHigh c) : endsReference c = false := by
  have hne : ∀ x, ¬IsHigh x → c ≠ x := by
    rintro x hx rfl
    exact hx hhigh
  simp [endsReference, (isHigh_facts hhigh).2.2, Text.isBlank, hne '&' (by decide), hne '|' (by decide),
    hne ',' (by decide), hne ' ' (by decide), hne '\t' (by decide), hne '\n' (by decide), hne '\r' (by decide)]

theorem run_reference (length : Nat) (text : List Char) :
    reference.run ⟨length, text, 0⟩ = .ok (String.ofList (splitReference 0 none text).1)
      ⟨length, (splitReference 0 none text).2, 0⟩ := by
  have hbytes := splitOutside_byteChars (fun _ => isHigh_endsReference) quoteIsLow_none 0 text
  have happend := append_splitOutside endsReference 0 none text
  rw [splitReference]
  generalize splitOutside endsReference 0 none text = split at hbytes happend ⊢
  obtain ⟨front, back⟩ := split
  subst happend
  simp [reference, bytes_eq_byteChars, hbytes, length_byteChars, run_advance_append]

theorem splitOutside_raw {close : Char} (hclose : closesBracket close = true) (htext : ∀ c ∈ text, isRaw c = true) :
    splitOutside (· == close) 0 none (text ++ close :: rest) = (text, close :: rest) := by
  induction text with
  | nil =>
      have hquote : isQuote close = false ∧ opensBracket close = false := by
        simp only [closesBracket, Bool.or_eq_true, beq_iff_eq] at hclose
        rcases hclose with rfl | rfl <;> decide
      simp [splitOutside, hquote]
  | cons c text ih =>
      obtain ⟨hc, htail⟩ := List.forall_mem_cons.mp htext
      simp only [isRaw, Bool.and_eq_true, Bool.not_eq_true'] at hc
      have hne : c ≠ close := by
        rintro rfl
        rw [hclose] at hc
        cases hc.2
      simp [splitOutside, hc, hne, ih htail]

theorem run_textUntil {close : Char} (hclose : closesBracket close = true) (htext : ∀ c ∈ text, isRaw c = true) :
    (textUntil close).run ⟨length, text ++ close :: rest, 0⟩ =
      .ok (String.ofList text) ⟨length, close :: rest, 0⟩ := by
  have hlow : ¬IsHigh close := fun hhigh => by
    rw [(isHigh_facts hhigh).2.2] at hclose
    cases hclose
  rw [run_textUntil_eq hlow, splitOutside_raw hclose htext]
  rfl

end Scan

end TreeQuery
