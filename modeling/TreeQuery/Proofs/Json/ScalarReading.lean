import TreeQuery.Proofs.Json.Grammar

/-!
# Reading strings, numbers and words

Reader and grammar agree on scalars: what is read from the front of a text is a written form of the value,
and a written form is read whatever follows it, as long as that does not go on with a number.
-/

namespace TreeQuery.Json

open Text

/-! ### Strings -/

theorem unescape?_u : unescape? 'u' = none := by decide

theorem readString_short {c found : Char} {text : List Char} (hescape : unescape? c = some found) :
    readString ('\\' :: c :: text) = (readString text).map fun (content, rest) => (found :: content, rest) := by
  rw [readString]
  · simp only [hescape, Option.bind_eq_bind, Option.bind_some]
    cases readString text <;> rfl
  · rintro a b d e rest rfl
    simp [unescape?_u] at hescape

theorem readString_plain {c : Char} {text : List Char} (hquote : c ≠ '"') (hslash : c ≠ '\\')
    (hprintable : 0x20 ≤ c.toNat) :
    readString (c :: text) = (readString text).map fun (content, rest) => (c :: content, rest) := by
  have hrefused : (decide (c = '\\') || decide (c.toNat < 0x20)) = false := by
    simp only [hslash, decide_false, Bool.false_or, decide_eq_false_iff_not]
    omega
  rw [readString]
  · simp only [hquote, ↓reduceIte, hrefused, Bool.false_eq_true]
    cases readString text <;> rfl
  · exact fun _ _ _ _ _ heq => absurd heq hslash
  · exact fun _ _ heq => absurd heq hslash

theorem QuotedText.readString_append {content quoted : List Char} (hquoted : QuotedText content quoted)
    (rest : List Char) : readString (quoted ++ rest) = some (content, rest) := by
  induction hquoted with
  | close =>
      rw [List.singleton_append, readString]
      · rfl
      all_goals simp
  | plain hquote hslash hprintable _ ih =>
      rw [List.cons_append, readString_plain hquote hslash hprintable, ih]
      rfl
  | short hescape _ ih =>
      rw [List.cons_append, List.cons_append, readString_short hescape, ih]
      rfl
  | code hcode hhigh hlow _ ih => simp [readString, hcode, hhigh, hlow, ih]
  | pair hcode hhigh hcode' hlow _ ih => simp [readString, hcode, hhigh, hcode', hlow, ih]

theorem exists_quotedText {text content rest : List Char} (hread : readString text = some (content, rest)) :
    ∃ quoted, text = quoted ++ rest ∧ QuotedText content quoted := by
  fun_induction readString text generalizing content rest with
  | case1 => cases hread
  | case2 a b c d tail ihPair ih =>
      simp only [Option.bind_eq_bind, Option.bind_eq_some_iff] at hread
      obtain ⟨code, hcode, hread⟩ := hread
      by_cases hhigh : isHighSurrogate code = true
      · rw [if_pos hhigh] at hread
        split at hread
        · simp only [Option.bind_eq_some_iff] at hread
          obtain ⟨low, hcode', hread⟩ := hread
          split at hread
          · next hlow =>
            simp only [Option.bind_eq_some_iff, Option.pure_def, Option.some.injEq, Prod.mk.injEq] at hread
            obtain ⟨⟨content', rest'⟩, htail, rfl, rfl⟩ := hread
            obtain ⟨quoted, rfl, hquoted⟩ := ihPair htail
            exact ⟨_, rfl, .pair hcode hhigh hcode' hlow hquoted⟩
          · cases hread
        · cases hread
      · rw [if_neg hhigh] at hread
        split at hread
        · cases hread
        · next hlow =>
          simp only [Option.bind_eq_some_iff, Option.pure_def, Option.some.injEq, Prod.mk.injEq] at hread
          obtain ⟨⟨content', rest'⟩, htail, rfl, rfl⟩ := hread
          obtain ⟨quoted, rfl, hquoted⟩ := ih htail
          exact ⟨_, rfl, .code hcode (Bool.eq_false_iff.mpr hhigh) (Bool.eq_false_iff.mpr hlow) hquoted⟩
  | case3 c tail _ ih =>
      simp only [Option.bind_eq_bind, Option.bind_eq_some_iff, Option.pure_def, Option.some.injEq,
        Prod.mk.injEq] at hread
      obtain ⟨found, hescape, ⟨content', rest'⟩, htail, rfl, rfl⟩ := hread
      obtain ⟨quoted, rfl, hquoted⟩ := ih htail
      exact ⟨_, rfl, .short hescape hquoted⟩
  | case4 tail =>
      cases hread
      exact ⟨['"'], rfl, .close⟩
  | case5 => cases hread
  | case6 c tail _ _ hquote joined hrefused =>
      rename_i ih
      simp only [Bool.or_eq_true, decide_eq_true_eq, not_or, Nat.not_lt] at hrefused
      cases htail : readString tail with
      | none => simp [joined, htail] at hread
      | some found =>
          obtain ⟨content', rest'⟩ := found
          simp only [joined, htail, Option.bind_eq_bind, Option.bind_some, Option.pure_def,
            Option.some.injEq, Prod.mk.injEq] at hread
          obtain ⟨rfl, rfl⟩ := hread
          obtain ⟨quoted, rfl, hquoted⟩ := ih htail
          exact ⟨_, rfl, .plain hquote hrefused.1 hrefused.2 hquoted⟩

/-! ### Numbers -/

def NoDigit (text : List Char) : Prop := ∀ c ∈ text.head?, c.isDigit = false

/-- A text that does not go on with a number. -/
def EndsNumber (text : List Char) : Prop :=
  ∀ c ∈ text.head?, c.isDigit = false ∧ c ≠ '.' ∧ Decimal.isExponentMark c = false

theorem EndsNumber.noDigit {text : List Char} (hends : EndsNumber text) : NoDigit text :=
  fun c hmem => (hends c hmem).1

theorem endsNumber_cons {c : Char} {text : List Char} :
    EndsNumber (c :: text) ↔ c.isDigit = false ∧ c ≠ '.' ∧ Decimal.isExponentMark c = false := by
  simp [EndsNumber]

theorem isDigit_of_isExponentMark {c : Char} (hmark : Decimal.isExponentMark c = true) :
    c.isDigit = false := by
  simp only [Decimal.isExponentMark, Bool.or_eq_true, beq_iff_eq] at hmark
  rcases hmark with rfl | rfl <;> decide

theorem readDigits_append {digits rest : List Char} (hdigits : Digits digits) (hrest : NoDigit rest) :
    readDigits (digits ++ rest) = some (digits, rest) := by
  have hstop : rest.takeWhile Char.isDigit = [] ∧ rest.dropWhile Char.isDigit = rest := by
    cases rest with
    | nil => exact ⟨rfl, rfl⟩
    | cons c rest =>
        have hhead : c.isDigit = false := hrest c rfl
        simp [hhead]
  have htake : (digits ++ rest).takeWhile Char.isDigit = digits := by
    rw [List.takeWhile_append_of_pos hdigits.2, hstop.1, List.append_nil]
  have hdrop : (digits ++ rest).dropWhile Char.isDigit = rest := by
    rw [List.dropWhile_append_of_pos hdigits.2, hstop.2]
  rw [readDigits, htake, hdrop]
  exact if_neg (by simp [hdigits.1])

theorem digits_of_readDigits {text digits rest : List Char} (hread : readDigits text = some (digits, rest)) :
    text = digits ++ rest ∧ Digits digits := by
  rw [readDigits] at hread
  split at hread
  · cases hread
  · next hne =>
    cases hread
    exact ⟨List.takeWhile_append_dropWhile.symm, by simpa using hne, List.all_eq_true.mp List.all_takeWhile⟩

theorem readWhole_of_head {text : List Char} (hlead : text.head? ≠ some '0') :
    readWhole text = readDigits text := by
  unfold readWhole
  split
  · simp at hlead
  · rfl

theorem WholeText.readWhole_append {whole rest : List Char} (hwhole : WholeText whole)
    (hrest : NoDigit rest) : readWhole (whole ++ rest) = some (whole, rest) := by
  cases hwhole with
  | zero =>
      have hhead : (rest.head?.map Char.isDigit).getD false = false := by
        cases rest with
        | nil => rfl
        | cons c rest => exact hrest c rfl
      simp [readWhole, hhead]
  | digits hdigits hlead =>
      rw [readWhole_of_head, readDigits_append hdigits hrest]
      obtain ⟨c, tail, rfl⟩ := List.exists_cons_of_ne_nil hdigits.1
      simpa using hlead

theorem wholeText_of_readWhole {text whole rest : List Char} (hread : readWhole text = some (whole, rest)) :
    text = whole ++ rest ∧ WholeText whole := by
  by_cases hlead : text.head? = some '0'
  · obtain ⟨tail, rfl⟩ : ∃ tail, text = '0' :: tail := by
      cases text with
      | nil => cases hlead
      | cons c tail => exact ⟨tail, by simpa using hlead⟩
    rw [readWhole] at hread
    split at hread
    · cases hread
    · cases hread
      exact ⟨rfl, .zero⟩
  · rw [readWhole_of_head hlead] at hread
    obtain ⟨rfl, hdigits⟩ := digits_of_readDigits hread
    refine ⟨rfl, .digits hdigits ?_⟩
    obtain ⟨c, tail, rfl⟩ := List.exists_cons_of_ne_nil hdigits.1
    simpa using hlead

theorem FractionText.readFraction_append {fraction rest : List Char} (hfraction : FractionText fraction)
    (hpoint : rest.head? ≠ some '.') (hrest : NoDigit rest) :
    readFraction (fraction ++ rest) = some (fraction, rest) := by
  cases hfraction with
  | absent =>
      unfold readFraction
      split
      · simp_all
      · rfl
  | present hdigits => simp [readFraction, readDigits_append hdigits hrest]

theorem fractionText_of_readFraction {text fraction rest : List Char}
    (hread : readFraction text = some (fraction, rest)) :
    text = fraction ++ rest ∧ FractionText fraction := by
  unfold readFraction at hread
  split at hread
  · simp only [Option.map_eq_some_iff, Prod.mk.injEq] at hread
    obtain ⟨⟨digits, rest'⟩, hread, rfl, rfl⟩ := hread
    obtain ⟨rfl, hdigits⟩ := digits_of_readDigits hread
    exact ⟨rfl, .present hdigits⟩
  · cases hread
    exact ⟨rfl, .absent⟩

theorem ExponentText.readExponent_append {exponent rest : List Char} (hexponent : ExponentText exponent)
    (hrest : EndsNumber rest) : readExponent (exponent ++ rest) = some (exponent, rest) := by
  cases hexponent with
  | absent =>
      cases rest with
      | nil => rfl
      | cons c rest =>
          have hmark : Decimal.isExponentMark c = false := (hrest c rfl).2.2
          simp [readExponent, hmark]
  | @plain mark text hmark hdigits =>
      have hread := readDigits_append hdigits hrest.noDigit
      obtain ⟨c, tail, rfl⟩ := List.exists_cons_of_ne_nil hdigits.1
      have hdigit : c.isDigit = true := hdigits.2 c (by simp)
      have hplus : c ≠ '+' := by
        rintro rfl
        simp at hdigit
      have hminus : c ≠ '-' := by
        rintro rfl
        simp at hdigit
      rw [List.cons_append] at hread
      simp only [List.cons_append, readExponent, hmark, ↓reduceIte]
      split
      · simp_all
      · simp_all
      · rw [hread]
        rfl
  | signed hmark hsign hdigits =>
      have hread := readDigits_append hdigits hrest.noDigit
      rcases hsign with rfl | rfl <;> simp [readExponent, hmark, hread]

theorem exponentText_of_readExponent {text exponent rest : List Char}
    (hread : readExponent text = some (exponent, rest)) :
    text = exponent ++ rest ∧ ExponentText exponent := by
  unfold readExponent at hread
  split at hread
  · next mark tail =>
    split at hread
    · next hmark =>
      split at hread
      all_goals
        simp only [Option.map_eq_some_iff, Prod.mk.injEq] at hread
        obtain ⟨⟨digits, rest'⟩, hread, rfl, rfl⟩ := hread
        obtain ⟨rfl, hdigits⟩ := digits_of_readDigits hread
      · exact ⟨rfl, .signed hmark (.inl rfl) hdigits⟩
      · exact ⟨rfl, .signed hmark (.inr rfl) hdigits⟩
      · exact ⟨rfl, .plain hmark hdigits⟩
    · cases hread
      exact ⟨rfl, .absent⟩
  · cases hread
    exact ⟨rfl, .absent⟩

theorem ExponentText.noDigit_append {exponent rest : List Char} (hexponent : ExponentText exponent)
    (hrest : EndsNumber rest) : NoDigit (exponent ++ rest) ∧ (exponent ++ rest).head? ≠ some '.' := by
  cases hexponent with
  | absent => exact ⟨hrest.noDigit, fun hpoint => (hrest '.' hpoint).2.1 rfl⟩
  | plain hmark _ | signed hmark _ _ =>
      refine ⟨fun c hmem => ?_, fun hpoint => ?_⟩
      · cases hmem
        exact isDigit_of_isExponentMark hmark
      · cases hpoint
        simp [Decimal.isExponentMark] at hmark

theorem FractionText.noDigit_append {fraction rest : List Char} (hfraction : FractionText fraction)
    (hrest : NoDigit rest) : NoDigit (fraction ++ rest) := by
  cases hfraction with
  | absent => exact hrest
  | present _ =>
      intro c hmem
      cases hmem
      decide

theorem UnsignedText.readUnsigned_append {text rest : List Char} (hunsigned : UnsignedText text)
    (hrest : EndsNumber rest) : readUnsigned (text ++ rest) = some (text, rest) := by
  cases hunsigned with
  | mk hwhole hfraction hexponent =>
      obtain ⟨hdigit, hpoint⟩ := hexponent.noDigit_append hrest
      simp only [List.append_assoc, readUnsigned, Option.bind_eq_bind, Option.pure_def]
      rw [hwhole.readWhole_append (hfraction.noDigit_append hdigit), Option.bind_some,
        hfraction.readFraction_append hpoint hdigit, Option.bind_some,
        hexponent.readExponent_append hrest, Option.bind_some]

theorem unsignedText_of_readUnsigned {text number rest : List Char}
    (hread : readUnsigned text = some (number, rest)) : text = number ++ rest ∧ UnsignedText number := by
  simp only [readUnsigned, Option.bind_eq_bind, Option.bind_eq_some_iff, Option.pure_def,
    Option.some.injEq, Prod.mk.injEq] at hread
  obtain ⟨⟨whole, rest₁⟩, hread₁, ⟨fraction, rest₂⟩, hread₂, ⟨exponent, rest₃⟩, hread₃, rfl, rfl⟩ := hread
  obtain ⟨rfl, hwhole⟩ := wholeText_of_readWhole hread₁
  obtain ⟨rfl, hfraction⟩ := fractionText_of_readFraction hread₂
  obtain ⟨rfl, hexponent⟩ := exponentText_of_readExponent hread₃
  exact ⟨by simp only [List.append_assoc], .mk hwhole hfraction hexponent⟩

theorem UnsignedText.exists_digit {text : List Char} (hunsigned : UnsignedText text) :
    ∃ c tail, text = c :: tail ∧ c.isDigit = true := by
  cases hunsigned with
  | @mk whole fraction exponent hwhole _ _ =>
      cases hwhole with
      | zero => exact ⟨'0', _, rfl, by decide⟩
      | digits hdigits _ =>
          obtain ⟨c, tail, rfl⟩ := List.exists_cons_of_ne_nil hdigits.1
          exact ⟨c, _, rfl, hdigits.2 c (by simp)⟩

theorem NumberText.exists_head {text : List Char} (hnumber : NumberText text) :
    ∃ c tail, text = c :: tail ∧ (c.isDigit = true ∨ c = '-') := by
  cases hnumber with
  | positive hunsigned =>
      obtain ⟨c, tail, rfl, hdigit⟩ := hunsigned.exists_digit
      exact ⟨c, tail, rfl, .inl hdigit⟩
  | negative _ => exact ⟨'-', _, rfl, .inr rfl⟩

theorem NumberText.readNumber_append {text rest : List Char} (hnumber : NumberText text)
    (hrest : EndsNumber rest) : readNumber (text ++ rest) = some (text, rest) := by
  cases hnumber with
  | positive hunsigned =>
      have hread := hunsigned.readUnsigned_append hrest
      obtain ⟨c, tail, rfl, hdigit⟩ := hunsigned.exists_digit
      unfold readNumber
      split
      · next heq =>
        cases heq
        exact absurd hdigit (by decide)
      · exact hread
  | negative hunsigned => simp [readNumber, hunsigned.readUnsigned_append hrest]

theorem numberText_of_readNumber {text number rest : List Char}
    (hread : readNumber text = some (number, rest)) : text = number ++ rest ∧ NumberText number := by
  unfold readNumber at hread
  split at hread
  · simp only [Option.map_eq_some_iff, Prod.mk.injEq] at hread
    obtain ⟨⟨number, rest'⟩, hread, rfl, rfl⟩ := hread
    obtain ⟨rfl, hunsigned⟩ := unsignedText_of_readUnsigned hread
    exact ⟨rfl, .negative hunsigned⟩
  · obtain ⟨rfl, hunsigned⟩ := unsignedText_of_readUnsigned hread
    exact ⟨rfl, .positive hunsigned⟩

/-! ### Scalars -/

theorem eq_append_of_dropWord? {word text rest : List Char} (hdrop : dropWord? word text = some rest) :
    text = word ++ rest := by
  induction word generalizing text with
  | nil => simpa [dropWord?] using hdrop
  | cons c word ih =>
      cases text with
      | nil => cases hdrop
      | cons found text =>
          rw [dropWord?] at hdrop
          split at hdrop
          · next heq =>
            rw [← heq, ih hdrop]
            rfl
          · cases hdrop

theorem readScalar_of_number {c : Char} {text : List Char} (hhead : c.isDigit = true ∨ c = '-') :
    readScalar (c :: text) =
      (readNumber (c :: text)).map fun (number, rest) => (Tree.ofNumberChars number, rest) := by
  unfold readScalar
  split
  all_goals first
    | rfl
    | next heq =>
      cases heq
      simp at hhead

theorem ScalarText.readScalar_append {text rest : List Char} {tree : Tree} (hscalar : ScalarText text tree)
    (hrest : EndsNumber rest) : readScalar (text ++ rest) = some (tree, rest) := by
  cases hscalar with
  | null => rfl
  | true => rfl
  | false => rfl
  | string hquoted => simp [readScalar, hquoted.readString_append]
  | number hnumber =>
      have hread := hnumber.readNumber_append hrest
      obtain ⟨c, tail, rfl, hhead⟩ := hnumber.exists_head
      rw [List.cons_append, readScalar_of_number hhead, ← List.cons_append, hread]
      rfl

theorem exists_scalarText {text rest : List Char} {tree : Tree}
    (hread : readScalar text = some (tree, rest)) : ∃ written, text = written ++ rest ∧ ScalarText written tree := by
  unfold readScalar at hread
  split at hread
  all_goals
    simp only [Option.map_eq_some_iff, Prod.mk.injEq] at hread
  · obtain ⟨rest, hread, rfl, rfl⟩ := hread
    rw [eq_append_of_dropWord? hread]
    exact ⟨_, rfl, .null⟩
  · obtain ⟨rest, hread, rfl, rfl⟩ := hread
    rw [eq_append_of_dropWord? hread]
    exact ⟨_, rfl, .true⟩
  · obtain ⟨rest, hread, rfl, rfl⟩ := hread
    rw [eq_append_of_dropWord? hread]
    exact ⟨_, rfl, .false⟩
  · obtain ⟨⟨content, rest⟩, hread, rfl, rfl⟩ := hread
    obtain ⟨quoted, rfl, hquoted⟩ := exists_quotedText hread
    exact ⟨_, rfl, .string hquoted⟩
  · obtain ⟨⟨number, rest⟩, hread, rfl, rfl⟩ := hread
    obtain ⟨rfl, hnumber⟩ := numberText_of_readNumber hread
    exact ⟨_, rfl, .number hnumber⟩

end TreeQuery.Json
