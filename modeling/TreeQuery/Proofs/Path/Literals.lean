import TreeQuery.Proofs.Decimal.Places
import TreeQuery.Proofs.Path.Brackets

/-!
# Keywords and numbers

The words that filters are made of besides names and quoted strings, each in front of something that cannot belong
to it.
-/

namespace TreeQuery

/-- What may follow a word of a filter directly. -/
def endsWord (c : Char) : Bool := Text.isBlank c || c == ')' || c == ',' || c == '&' || c == '|'

def EndsWord (text : List Char) : Prop := ∀ c ∈ text.head?, endsWord c = true

theorem endsWord_cons {c : Char} {text : List Char} : EndsWord (c :: text) ↔ endsWord c = true := by
  simp [EndsWord]

theorem endsWord_facts {c : Char} (hends : endsWord c = true) :
    (isNameChar c = false ∧ c ≠ '\\') ∧ c ≠ '(' ∧ c ≠ '=' ∧ c ≠ '~' ∧
      c.isDigit = false ∧ c ≠ '.' ∧ Decimal.isExponentMark c = false := by
  simp only [endsWord, Text.isBlank, Bool.or_eq_true, beq_iff_eq] at hends
  rcases hends with ((((((rfl | rfl) | rfl) | rfl) | rfl) | rfl) | rfl) | rfl <;> decide

variable {rest text : List Char} {length : Nat}

theorem EndsWord.endsName (hends : EndsWord rest) : EndsName rest := fun c hmem => (endsWord_facts (hends c hmem)).1

theorem EndsWord.head?_ne (hends : EndsWord rest) {c : Char} (hc : endsWord c = false) : rest.head? ≠ some c := by
  intro hhead
  have hword := hends c hhead
  rw [hc] at hword
  cases hword

namespace Scan

theorem run_skipBlank_append (length : Nat) {blank : List Char} (hblank : ∀ c ∈ blank, Text.isBlank c = true)
    (hrest : ∀ c ∈ rest.head?, Text.isBlank c = false) :
    skipBlank.run ⟨length, blank ++ rest, 0⟩ = .ok () ⟨length, rest, 0⟩ := by
  cases blank with
  | nil => exact run_skipBlank hrest
  | cons c blank =>
      have hc : Text.isBlank c = true := hblank c (by simp)
      have hdrop : Text.skipBlank (c :: blank ++ rest) = rest := by
        rw [Text.skipBlank, List.dropWhile_append_of_pos hblank]
        cases rest with
        | nil => rfl
        | cons first rest => exact List.dropWhile_cons_of_neg (by simp [hrest first rfl])
      rw [List.cons_append] at hdrop ⊢
      simp [skipBlank, hc, Scanner.moveTo, hdrop]

/-! ### Keywords -/

theorem run_eatKeyword {word : String} (htext : text = word.toList ++ rest) (hrest : EndsWord rest) :
    (eatKeyword word).run ⟨length, text, 0⟩ = .ok true ⟨length, rest, 0⟩ := by
  have hname : (rest.head?.map isNameChar).getD false = false := by
    cases rest with
    | nil => rfl
    | cons c rest => simpa using (endsWord_facts (endsWord_cons.mp hrest)).1.1
  have hdrop : dropKeyword? word.toList (word.toList ++ rest) = some rest := by simp [dropKeyword?, hname]
  simp [eatKeyword, htext, hdrop]

/-- Keywords that begin otherwise than the text are passed over. -/
theorem run_eatKeyword_of_ne {c : Char} {words : List String}
    (hwords : ∀ word ∈ words, word.toList.head?.any (·.toLower != c.toLower) = true) :
    ∀ word ∈ words, (eatKeyword word).run ⟨length, c :: text, 0⟩ = .ok false ⟨length, c :: text, 0⟩ := by
  intro word hmem
  have hhead := hwords word hmem
  cases hchars : word.toList with
  | nil =>
      rw [hchars] at hhead
      cases hhead
  | cons w ws =>
      have hne : c.toLower ≠ w.toLower := by
        rw [hchars] at hhead
        exact Ne.symm (bne_iff_ne.mp hhead)
      have hdrop : dropKeyword? (w :: ws) (c :: text) = none := by simp [dropKeyword?, hne]
      simp [eatKeyword, hchars, hdrop]

/-! ### Numbers -/

theorem splitFraction_pointed {fraction : List Char} (hfraction : ∀ c ∈ fraction, c.isDigit = true)
    (hrest : EndsWord rest) : splitFraction (Decimal.pointed fraction ++ rest) = (Decimal.pointed fraction, rest) := by
  cases fraction with
  | nil =>
      cases rest with
      | nil => rfl
      | cons c rest =>
          have hpoint : c ≠ '.' := (endsWord_facts (endsWord_cons.mp hrest)).2.2.2.2.2.1
          rw [Decimal.pointed, List.isEmpty_nil, if_pos rfl, List.nil_append, splitFraction]
          exact fun _ _ heq => absurd (List.cons.inj heq).1 hpoint
  | cons c fraction =>
      have hends : rest.takeWhile Char.isDigit = [] ∧ rest.dropWhile Char.isDigit = rest := by
        cases rest with
        | nil => exact ⟨rfl, rfl⟩
        | cons x rest => simp [(endsWord_facts (endsWord_cons.mp hrest)).2.2.2.2.1]
      have htext : Decimal.pointed (c :: fraction) ++ rest = '.' :: c :: (fraction ++ rest) := rfl
      have htake : (c :: (fraction ++ rest)).takeWhile Char.isDigit = c :: fraction := by
        rw [← List.cons_append, List.takeWhile_append_of_pos hfraction, hends.1, List.append_nil]
      have hdrop : (c :: (fraction ++ rest)).dropWhile Char.isDigit = rest := by
        rw [← List.cons_append, List.dropWhile_append_of_pos hfraction, hends.2]
      rw [htext, splitFraction, if_pos (hfraction c (by simp)), htake, hdrop]
      rfl

theorem splitExponent_of_endsWord (hrest : EndsWord rest) : splitExponent rest = ([], rest) := by
  cases rest with
  | nil => rfl
  | cons mark rest =>
      have hmark : Decimal.isExponentMark mark = false := (endsWord_facts (endsWord_cons.mp hrest)).2.2.2.2.2.2
      cases rest with
      | nil => rfl
      | cons c rest => rw [splitExponent, hmark, Bool.false_and, if_neg Bool.false_ne_true]

theorem splitSign_append {sign : List Char} (hsign : sign = [] ∨ sign = ['-']) {c : Char} (hc : c.isDigit = true) :
    splitSign (sign ++ c :: text) = (sign, c :: text) := by
  rcases hsign with rfl | rfl
  · rw [List.nil_append, splitSign]
    · rintro tail heq
      rw [(List.cons.inj heq).1] at hc
      exact absurd hc (by decide)
    · rintro tail heq
      rw [(List.cons.inj heq).1] at hc
      exact absurd hc (by decide)
  · rfl

theorem splitNumber_append {sign whole fraction : List Char} (hsign : sign = [] ∨ sign = ['-']) (hwhole : whole ≠ [])
    (hdigits : ∀ c ∈ whole ++ fraction, c.isDigit = true) (hrest : EndsWord rest) :
    splitNumber (sign ++ (whole ++ Decimal.pointed fraction) ++ rest) =
      ⟨sign, whole, Decimal.pointed fraction, [], rest⟩ := by
  obtain ⟨hwholeDigits, hfraction⟩ := List.forall_mem_append.mp hdigits
  have htext : sign ++ (whole ++ Decimal.pointed fraction) ++ rest =
      sign ++ (whole ++ (Decimal.pointed fraction ++ rest)) := by simp
  have hends : (Decimal.pointed fraction ++ rest).takeWhile Char.isDigit = [] ∧
      (Decimal.pointed fraction ++ rest).dropWhile Char.isDigit = Decimal.pointed fraction ++ rest := by
    cases fraction with
    | cons c fraction => exact ⟨rfl, rfl⟩
    | nil =>
        cases rest with
        | nil => exact ⟨rfl, rfl⟩
        | cons x rest => simp [Decimal.pointed, (endsWord_facts (endsWord_cons.mp hrest)).2.2.2.2.1]
  have hparts : splitSign (sign ++ (whole ++ (Decimal.pointed fraction ++ rest))) =
      (sign, whole ++ (Decimal.pointed fraction ++ rest)) := by
    obtain ⟨c, tail, rfl⟩ := List.exists_cons_of_ne_nil hwhole
    exact splitSign_append hsign (hwholeDigits c (by simp))
  rw [htext]
  simp only [splitNumber, hparts, List.takeWhile_append_of_pos hwholeDigits,
    List.dropWhile_append_of_pos hwholeDigits, hends.1, hends.2, List.append_nil,
    splitFraction_pointed hfraction hrest, splitExponent_of_endsWord hrest]

theorem run_number {sign whole fraction : List Char} (hsign : sign = [] ∨ sign = ['-']) (hwhole : whole ≠ [])
    (hdigits : ∀ c ∈ whole ++ fraction, c.isDigit = true) (hrest : EndsWord rest) {value : Literal}
    (hvalue : NumberText.value? ⟨sign, whole, Decimal.pointed fraction, [], rest⟩ = some value) :
    number.run ⟨length, sign ++ (whole ++ Decimal.pointed fraction) ++ rest, 0⟩ = .ok value ⟨length, rest, 0⟩ := by
  have hsplit := splitNumber_append hsign hwhole hdigits hrest
  have hwritten := run_textFrom length (sign ++ (whole ++ Decimal.pointed fraction)) rest
  generalize sign ++ (whole ++ Decimal.pointed fraction) ++ rest = text at hsplit hwritten ⊢
  simp [number, hsplit, hwhole, hwritten, hvalue]

theorem run_number_intText (length : Nat) {value : Int} (hvalue : InWord value) (hrest : EndsWord rest) :
    number.run ⟨length, intText value ++ rest, 0⟩ = .ok (.integer value) ⟨length, rest, 0⟩ := by
  obtain ⟨sign, n, hsign, htext⟩ : ∃ sign n, (sign = [] ∨ sign = ['-']) ∧
      intText value = sign ++ (Nat.toDigits 10 n ++ Decimal.pointed []) := by
    rw [intText, toList_toString_int]
    split
    · exact ⟨[], value.toNat, .inl rfl, by simp [Decimal.pointed]⟩
    · exact ⟨['-'], (-value).toNat, .inr rfl, by simp [Decimal.pointed]⟩
  have hdigits : ∀ c ∈ Nat.toDigits 10 n ++ [], c.isDigit = true := by
    simpa using List.all_eq_true.mp (all_isDigit_toDigits n)
  have hliteral : NumberText.literal ⟨sign, Nat.toDigits 10 n, Decimal.pointed [], [], rest⟩ = intText value := by
    rw [htext, NumberText.literal]
    rcases hsign with rfl | rfl <;> simp
  have hread : wordOfChars? (intText value) = some value := wordOfChars?_toString hvalue
  rw [htext]
  refine run_number hsign Nat.toDigits_ne_nil hdigits hrest ?_
  rw [NumberText.value?, hliteral]
  simp [Decimal.pointed, hread]

theorem run_number_toChars (length : Nat) {value : Decimal} (hrange : value.InRange) (hscale : 1 ≤ value.scale)
    (hrest : EndsWord rest) :
    number.run ⟨length, value.toChars ++ rest, 0⟩ = .ok (.decimal value) ⟨length, rest, 0⟩ := by
  obtain ⟨whole, fraction, htext, hplaced⟩ := Decimal.exists_toChars value
  have hread := Decimal.ofPlain?_toChars hrange
  have hne : fraction ≠ [] := by
    rintro rfl
    exact absurd hplaced.length_fraction (by rw [List.length_nil]; omega)
  generalize hsignText : (if value.mantissa < 0 then ['-'] else []) = sign at htext
  have hsign : sign = [] ∨ sign = ['-'] := by
    rw [← hsignText]
    split
    · exact .inr rfl
    · exact .inl rfl
  have hliteral : NumberText.literal ⟨sign, whole, Decimal.pointed fraction, [], rest⟩ = value.toChars := by
    rw [htext, NumberText.literal]
    rcases hsign with rfl | rfl <;> simp
  rw [htext]
  refine run_number hsign hplaced.whole_ne_nil hplaced.isDigit hrest ?_
  rw [NumberText.value?, hliteral]
  simp [Decimal.pointed, hne, hread]

end Scan

end TreeQuery
