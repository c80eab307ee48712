import TreeQuery.Proofs.Json.Reading
import TreeQuery.Proofs.Running
import TreeQuery.Stream.Cursor

/-!
# Passing a value

The cursor finds the end of a value by counting brackets and minding quotes. On the written form of a
value it stops exactly where that form ends, whatever delimiter comes after it.
-/

namespace TreeQuery

open Json Text

/-! ### Strings -/

theorem hexValue?_special : hexValue? '"' = none ∧ hexValue? '\\' = none := by decide

theorem ne_of_hexCode? {a b c d : Char} {code : Nat} (hcode : hexCode? a b c d = some code) :
    ∀ x ∈ [a, b, c, d], x ≠ '"' ∧ x ≠ '\\' := by
  simp only [hexCode?, Option.bind_eq_bind, Option.bind_eq_some_iff] at hcode
  obtain ⟨va, ha, vb, hb, vc, hc, vd, hd, -⟩ := hcode
  intro x hmem
  have hvalue : hexValue? x ≠ none := by
    simp only [List.mem_cons, List.not_mem_nil, or_false] at hmem
    rcases hmem with rfl | rfl | rfl | rfl
    all_goals simp_all
  exact ⟨fun heq => hvalue (heq ▸ hexValue?_special.1), fun heq => hvalue (heq ▸ hexValue?_special.2)⟩

theorem splitQuoted_cons {c : Char} (hne : c ≠ '"' ∧ c ≠ '\\') (text : List Char) :
    splitQuoted (c :: text) = (splitQuoted text).map fun (found, rest) => (c :: found, rest) := by
  rw [splitQuoted]
  · simp [hne]
  · exact fun _ _ heq => absurd heq hne.2

theorem splitQuoted_escape (c : Char) (text : List Char) :
    splitQuoted ('\\' :: c :: text) = (splitQuoted text).map fun (found, rest) => ('\\' :: c :: found, rest) := by
  rw [splitQuoted]

/-- A string ends for the cursor where it ends for the reader. -/
theorem Json.QuotedText.splitQuoted_append {content quoted : List Char} (hquoted : QuotedText content quoted)
    (rest : List Char) : splitQuoted (quoted ++ rest) = some (quoted, rest) := by
  induction hquoted with
  | close =>
      rw [List.singleton_append, splitQuoted]
      · rfl
      · exact fun _ _ heq => absurd heq (by decide)
  | plain hquote hslash _ _ ih =>
      rw [List.cons_append, splitQuoted_cons ⟨hquote, hslash⟩, ih]
      rfl
  | short _ _ ih =>
      rw [List.cons_append, List.cons_append, splitQuoted_escape, ih]
      rfl
  | code hcode _ _ _ ih =>
      have hne := ne_of_hexCode? hcode
      simp only [List.cons_append, splitQuoted_escape]
      rw [splitQuoted_cons (hne _ (by simp)), splitQuoted_cons (hne _ (by simp)),
        splitQuoted_cons (hne _ (by simp)), splitQuoted_cons (hne _ (by simp)), ih]
      rfl
  | pair hcode _ hcode' _ _ ih =>
      have hne := ne_of_hexCode? hcode
      have hne' := ne_of_hexCode? hcode'
      simp only [List.cons_append, splitQuoted_escape]
      rw [splitQuoted_cons (hne _ (by simp)), splitQuoted_cons (hne _ (by simp)),
        splitQuoted_cons (hne _ (by simp)), splitQuoted_cons (hne _ (by simp)), splitQuoted_escape,
        splitQuoted_cons (hne' _ (by simp)), splitQuoted_cons (hne' _ (by simp)),
        splitQuoted_cons (hne' _ (by simp)), splitQuoted_cons (hne' _ (by simp)), ih]
      rfl

theorem Json.QuotedText.eq_content {content quoted : List Char} (hquoted : QuotedText content quoted)
    (hslash : '\\' ∉ quoted) : quoted = content ++ ['"'] := by
  induction hquoted with
  | close => rfl
  | plain _ _ _ _ ih =>
      rw [ih fun hmem => hslash (List.mem_cons_of_mem _ hmem)]
      rfl
  | short _ _ _ => simp at hslash
  | code _ _ _ _ _ => simp at hslash
  | pair _ _ _ _ _ _ => simp at hslash

theorem Json.QuotedText.decodeQuoted_eq {content quoted : List Char} (hquoted : QuotedText content quoted) :
    decodeQuoted quoted = some (String.ofList content) := by
  rw [decodeQuoted]
  split
  · have hread := hquoted.readString_append []
    rw [List.append_nil] at hread
    simp [hread]
  · next hslash =>
    have hcontent := hquoted.eq_content (by simpa using hslash)
    simp [hcontent]

/-! ### Scalars -/

/-- The text has ended, or goes on with what ends a number or a word. -/
def Delimits (text : List Char) : Prop := ∀ c ∈ text.head?, endsScalar c = true

theorem delimits_cons {c : Char} {text : List Char} : Delimits (c :: text) ↔ endsScalar c = true := by
  simp [Delimits]

theorem Delimits.nil : Delimits [] := by simp [Delimits]

theorem delimits_of_blank {blank rest : List Char} (hblank : Blank blank) (hrest : Delimits rest) :
    Delimits (blank ++ rest) := by
  cases blank with
  | nil => exact hrest
  | cons c blank =>
      have hc : isBlank c = true := hblank c (by simp)
      exact delimits_cons.mpr (by simp [endsScalar, hc])

def isNumberChar (c : Char) : Bool :=
  c.isDigit || c == '.' || c == '+' || c == '-' || Decimal.isExponentMark c

theorem endsScalar_of_isNumberChar {c : Char} (hnumber : isNumberChar c = true) : endsScalar c = false := by
  refine Bool.eq_false_iff.mpr fun hends => ?_
  simp only [endsScalar, isBlank, Bool.or_eq_true, beq_iff_eq, or_assoc] at hends
  rcases hends with rfl | rfl | rfl | rfl | rfl | rfl | rfl | rfl <;> exact absurd hnumber (by decide)

theorem Json.Digits.isNumberChar {text : List Char} (hdigits : Digits text) :
    ∀ c ∈ text, isNumberChar c = true := fun c hmem => by
  simp [TreeQuery.isNumberChar, hdigits.2 c hmem]

theorem Json.UnsignedText.isNumberChar {text : List Char} (hunsigned : UnsignedText text) :
    ∀ c ∈ text, isNumberChar c = true := by
  cases hunsigned with
  | @mk whole fraction exponent hwhole hfraction hexponent =>
      have hwhole' : ∀ c ∈ whole, TreeQuery.isNumberChar c = true := by
        cases hwhole with
        | zero => exact List.forall_mem_singleton.mpr (by decide)
        | digits hdigits _ => exact hdigits.isNumberChar
      have hfraction' : ∀ c ∈ fraction, TreeQuery.isNumberChar c = true := by
        cases hfraction with
        | absent => simp
        | present hdigits => exact List.forall_mem_cons.mpr ⟨by decide, hdigits.isNumberChar⟩
      have hexponent' : ∀ c ∈ exponent, TreeQuery.isNumberChar c = true := by
        cases hexponent with
        | absent => simp
        | plain hmark hdigits =>
            exact List.forall_mem_cons.mpr ⟨by simp [TreeQuery.isNumberChar, hmark], hdigits.isNumberChar⟩
        | signed hmark hsign hdigits =>
            refine List.forall_mem_cons.mpr ⟨by simp [TreeQuery.isNumberChar, hmark],
              List.forall_mem_cons.mpr ⟨?_, hdigits.isNumberChar⟩⟩
            rcases hsign with rfl | rfl <;> decide
      intro c hmem
      rcases List.mem_append.mp hmem with hmem | hmem
      · exact (List.mem_append.mp hmem).elim (hwhole' c) (hfraction' c)
      · exact hexponent' c hmem

theorem Json.NumberText.isNumberChar {text : List Char} (hnumber : NumberText text) :
    ∀ c ∈ text, isNumberChar c = true := by
  cases hnumber with
  | positive hunsigned => exact hunsigned.isNumberChar
  | negative hunsigned => exact List.forall_mem_cons.mpr ⟨by decide, hunsigned.isNumberChar⟩

theorem ofChar_of_number {c : Char} (hhead : c.isDigit = true ∨ c = '-') : Token.ofChar c = .number := by
  have hne : ∀ x : Char, x.isDigit = false → x ≠ '-' → c ≠ x := by
    rintro x hdigit hminus rfl
    simp [hdigit, hminus] at hhead
  simp only [Token.ofChar, hne '\x7b' (by decide) (by decide), hne '\x7d' (by decide) (by decide),
    hne '[' (by decide) (by decide), hne ']' (by decide) (by decide), hne '"' (by decide) (by decide),
    hne ',' (by decide) (by decide), hne ':' (by decide) (by decide), hne 't' (by decide) (by decide),
    hne 'f' (by decide) (by decide), hne 'n' (by decide) (by decide), ↓reduceIte]
  rw [if_pos]
  rcases hhead with hdigit | rfl
  · simp [hdigit]
  · decide

theorem takeWhile_endsScalar {text rest : List Char} (htext : ∀ c ∈ text, endsScalar c = false)
    (hrest : Delimits rest) :
    (text ++ rest).takeWhile (!endsScalar ·) = text ∧ (text ++ rest).dropWhile (!endsScalar ·) = rest := by
  have hpos : ∀ c ∈ text, (!endsScalar c) = true := by simpa using htext
  rw [List.takeWhile_append_of_pos hpos, List.dropWhile_append_of_pos hpos]
  cases rest with
  | nil => simp
  | cons c rest =>
      have hc : endsScalar c = true := hrest c rfl
      simp [hc]

/-- The texts of scalars other than strings have no delimiter in them. -/
theorem splitValue_of_word {c : Char} {text rest : List Char}
    (htoken : Token.ofChar c = .number ∨ Token.ofChar c = .true ∨ Token.ofChar c = .false ∨ Token.ofChar c = .null)
    (htext : ∀ x ∈ c :: text, endsScalar x = false) (hrest : Delimits rest) :
    splitValue (c :: text ++ rest) = .ok (c :: text, rest) := by
  have hsplit := takeWhile_endsScalar htext hrest
  rw [List.cons_append] at hsplit ⊢
  rcases htoken with htoken | htoken | htoken | htoken <;>
    simp only [splitValue, htoken, hsplit]

theorem Json.ScalarText.splitValue_append {text rest : List Char} {tree : Tree}
    (hscalar : ScalarText text tree) (hrest : Delimits rest) :
    splitValue (text ++ rest) = .ok (text, rest) := by
  cases hscalar with
  | null => exact splitValue_of_word (by decide) (by simp [endsScalar, isBlank]) hrest
  | true => exact splitValue_of_word (by decide) (by simp [endsScalar, isBlank]) hrest
  | false => exact splitValue_of_word (by decide) (by simp [endsScalar, isBlank]) hrest
  | string hquoted =>
      simp only [List.cons_append, splitValue, show Token.ofChar '"' = .string by decide,
        hquoted.splitQuoted_append]
  | number hnumber =>
      have hchars := hnumber.isNumberChar
      obtain ⟨c, tail, rfl, hhead⟩ := hnumber.exists_head
      exact splitValue_of_word (.inl (ofChar_of_number hhead))
        (fun x hmem => endsScalar_of_isNumberChar (hchars x hmem)) hrest

/-! ### Containers -/

/-- Within a container the cursor passes the text without closing the container. -/
def Passed (text : List Char) : Prop :=
  ∀ (fuel nesting : Nat) (rest : List Char), (text ++ rest).length < fuel → 1 ≤ nesting →
    ∃ fuel', rest.length < fuel' ∧
      splitContainer fuel nesting (text ++ rest) =
        (splitContainer fuel' nesting rest).map fun (found, rest) => (text ++ found, rest)

theorem Passed.nil : Passed [] := by
  intro fuel nesting rest hfuel _
  exact ⟨fuel, hfuel, (exceptMap_id _).symm⟩

theorem Passed.append {left right : List Char} (hleft : Passed left) (hright : Passed right) :
    Passed (left ++ right) := by
  intro fuel nesting rest hfuel hnesting
  rw [List.append_assoc] at hfuel ⊢
  obtain ⟨fuel₁, hfuel₁, heq₁⟩ := hleft fuel nesting (right ++ rest) hfuel hnesting
  obtain ⟨fuel₂, hfuel₂, heq₂⟩ := hright fuel₁ nesting rest hfuel₁ hnesting
  refine ⟨fuel₂, hfuel₂, ?_⟩
  rw [heq₁, heq₂, exceptMap_map]
  simp only [List.append_assoc]

def IsPlain (c : Char) : Prop := c ≠ '"' ∧ opensContainer c = false ∧ closesContainer c = false

theorem Passed.char {c : Char} (hplain : IsPlain c) : Passed [c] := by
  intro fuel nesting rest hfuel _
  obtain ⟨fuel, rfl⟩ := exists_eq_succ_of_lt hfuel
  refine ⟨fuel, by simpa using hfuel, ?_⟩
  rw [List.singleton_append, splitContainer]
  simp [hplain.1, hplain.2.1, hplain.2.2]

theorem Passed.of_plain {text : List Char} (hplain : ∀ c ∈ text, IsPlain c) : Passed text := by
  induction text with
  | nil => exact .nil
  | cons c text ih =>
      have htail := ih fun x hmem => hplain x (List.mem_cons_of_mem c hmem)
      exact (Passed.char (hplain c (by simp))).append htail

theorem isPlain_of_isBlank {c : Char} (hblank : isBlank c = true) : IsPlain c := by
  simp only [isBlank, Bool.or_eq_true, beq_iff_eq] at hblank
  rcases hblank with ((rfl | rfl) | rfl) | rfl <;> exact ⟨by decide, by decide, by decide⟩

theorem isPlain_of_isNumberChar {c : Char} (hnumber : isNumberChar c = true) : IsPlain c := by
  refine ⟨?_, Bool.eq_false_iff.mpr fun hopens => ?_, Bool.eq_false_iff.mpr fun hcloses => ?_⟩
  · rintro rfl
    exact absurd hnumber (by decide)
  · simp only [opensContainer, Bool.or_eq_true, beq_iff_eq] at hopens
    rcases hopens with rfl | rfl <;> exact absurd hnumber (by decide)
  · simp only [closesContainer, Bool.or_eq_true, beq_iff_eq] at hcloses
    rcases hcloses with rfl | rfl <;> exact absurd hnumber (by decide)

theorem Passed.blank {blank : List Char} (hblank : Blank blank) : Passed blank :=
  .of_plain fun c hmem => isPlain_of_isBlank (hblank c hmem)

theorem Passed.quoted {content quoted : List Char} (hquoted : QuotedText content quoted) :
    Passed ('"' :: quoted) := by
  intro fuel nesting rest hfuel _
  obtain ⟨fuel, rfl⟩ := exists_eq_succ_of_lt hfuel
  refine ⟨fuel, ?_, ?_⟩
  · simp only [List.cons_append, List.length_cons, List.length_append] at hfuel
    omega
  · rw [List.cons_append, splitContainer, if_pos rfl, hquoted.splitQuoted_append]

/-- The brackets around a passed text are counted off against each other. -/
theorem Passed.bracket {start close : Char} {inner : List Char} (hstart : opensContainer start = true)
    (hclose : IsClose close) (hinner : Passed inner) : Passed (start :: (inner ++ [close])) := by
  intro fuel nesting rest hfuel hnesting
  obtain ⟨fuel, rfl⟩ := exists_eq_succ_of_lt hfuel
  have hquote : start ≠ '"' := by
    rintro rfl
    exact absurd hstart (by decide)
  have hclose' : close ≠ '"' ∧ opensContainer close = false ∧ closesContainer close = true := by
    rcases hclose with rfl | rfl <;> decide
  have hlength : (inner ++ (close :: rest)).length < fuel := by
    simp only [List.cons_append, List.append_assoc, List.length_cons, List.length_append] at hfuel ⊢
    omega
  -- Inside, one more bracket is open, so the closing one does not end the scan.
  obtain ⟨fuel₁, hfuel₁, heq₁⟩ := hinner fuel (nesting + 1) (close :: rest) hlength (by omega)
  obtain ⟨fuel₂, rfl⟩ := exists_eq_succ_of_lt hfuel₁
  refine ⟨fuel₂, by simpa using hfuel₁, ?_⟩
  have htail : splitContainer (fuel₂ + 1) (nesting + 1) (close :: rest) =
      (splitContainer fuel₂ nesting rest).map fun (found, rest) => (close :: found, rest) := by
    rw [splitContainer]
    simp only [hclose'.1, hclose'.2.1, hclose'.2.2, ↓reduceIte, Bool.false_eq_true, Nat.add_sub_cancel]
    rw [if_neg (by omega)]
  rw [htail] at heq₁
  simp only [List.cons_append, List.append_assoc, List.nil_append]
  rw [splitContainer]
  simp only [hquote, hstart, ↓reduceIte, heq₁, exceptMap_map]

section Items

variable {α : Type} {form : List Char → α → Prop} {close : Char}

theorem Json.SeparatedText.exists_passed (hpassed : ∀ text a, form text a → Passed text) {text : List Char}
    {as : List α} (htext : SeparatedText form close text as) :
    ∃ inner, text = inner ++ [close] ∧ Passed inner := by
  induction htext with
  | @last before text after a hbefore hitem hafter =>
      exact ⟨before ++ text ++ after, rfl,
        ((Passed.blank hbefore).append (hpassed _ _ hitem)).append (.blank hafter)⟩
  | @more before text after others a as hbefore hitem hafter _ ih =>
      obtain ⟨inner, rfl, hinner⟩ := ih
      have hcomma : Passed (',' :: inner) := (Passed.char ⟨by decide, by decide, by decide⟩).append hinner
      refine ⟨before ++ text ++ after ++ ',' :: inner, by simp, ?_⟩
      exact (((Passed.blank hbefore).append (hpassed _ _ hitem)).append (.blank hafter)).append hcomma

theorem Json.ItemsText.exists_passed (hpassed : ∀ text a, form text a → Passed text) {text : List Char}
    {as : List α} (htext : ItemsText form close text as) :
    ∃ inner, text = inner ++ [close] ∧ Passed inner := by
  cases htext with
  | none hblank => exact ⟨_, rfl, .blank hblank⟩
  | some hsome => exact hsome.exists_passed hpassed

end Items

theorem Json.MemberText.passed {value : List Char → Tree → Prop} (hpassed : ∀ text tree, value text tree → Passed text)
    {text : List Char} {member : String × Tree} (hmember : MemberText value text member) : Passed text := by
  cases hmember with
  | mk hkey hbefore hafter hvalue =>
      refine ((Passed.quoted hkey).append (.blank hbefore)).append ?_
      exact (Passed.char ⟨by decide, by decide, by decide⟩).append ((Passed.blank hafter).append (hpassed _ _ hvalue))

theorem Json.ScalarText.passed {text : List Char} {tree : Tree} (hscalar : ScalarText text tree) :
    Passed text := by
  cases hscalar with
  | string hquoted => exact .quoted hquoted
  | number hnumber => exact .of_plain fun c hmem => isPlain_of_isNumberChar (hnumber.isNumberChar c hmem)
  | _ => exact .of_plain (by simp [IsPlain, opensContainer, closesContainer])

theorem Json.Spells.passed {depth : Nat} {text : List Char} {tree : Tree} (hspells : Spells depth text tree) :
    Passed text := by
  induction depth generalizing text tree with
  | zero => exact ScalarText.passed hspells
  | succ depth ih =>
      cases hspells with
      | scalar hscalar => exact hscalar.passed
      | array hitems =>
          obtain ⟨inner, rfl, hinner⟩ := hitems.exists_passed fun _ _ => ih
          exact .bracket (by decide) (.inl rfl) hinner
      | object hmembers =>
          obtain ⟨inner, rfl, hinner⟩ := hmembers.exists_passed fun _ _ => MemberText.passed fun _ _ => ih
          exact .bracket (by decide) (.inr rfl) hinner

theorem splitValue_of_passed {start close : Char} {inner : List Char} (hstart : opensContainer start = true)
    (hclose : IsClose close) (hinner : Passed inner) (rest : List Char) :
    splitValue (start :: (inner ++ [close]) ++ rest) = .ok (start :: (inner ++ [close]), rest) := by
  have htoken : Token.ofChar start = .beginObject ∨ Token.ofChar start = .beginArray := by
    simp only [opensContainer, Bool.or_eq_true, beq_iff_eq] at hstart
    rcases hstart with rfl | rfl <;> decide
  have hquote : start ≠ '"' := by
    rintro rfl
    exact absurd hstart (by decide)
  have hclose' : close ≠ '"' ∧ opensContainer close = false ∧ closesContainer close = true := by
    rcases hclose with rfl | rfl <;> decide
  have hsplit : splitContainer ((start :: (inner ++ [close]) ++ rest).length + 1) 0
      (start :: (inner ++ [close]) ++ rest) = .ok (start :: (inner ++ [close]), rest) := by
    obtain ⟨fuel, hfuel, heq⟩ := hinner (start :: (inner ++ [close]) ++ rest).length 1 (close :: rest)
      (by simp) (Nat.le_refl 1)
    obtain ⟨fuel, rfl⟩ := exists_eq_succ_of_lt hfuel
    have hlast : splitContainer (fuel + 1) 1 (close :: rest) = .ok ([close], rest) := by
      rw [splitContainer]
      simp [hclose'.1, hclose'.2.1, hclose'.2.2]
    rw [hlast] at heq
    rw [List.cons_append, splitContainer]
    simp only [List.cons_append, List.append_assoc, List.nil_append] at heq ⊢
    simp only [hquote, hstart, ↓reduceIte, heq, Except.map]
  rcases htoken with htoken | htoken <;>
    simpa [splitValue, htoken] using hsplit

theorem Json.Spells.splitValue_append {depth : Nat} {text rest : List Char} {tree : Tree}
    (hspells : Spells depth text tree) (hrest : Delimits rest) :
    splitValue (text ++ rest) = .ok (text, rest) := by
  cases depth with
  | zero => exact ScalarText.splitValue_append hspells hrest
  | succ depth =>
      cases hspells with
      | scalar hscalar => exact hscalar.splitValue_append hrest
      | array hitems =>
          obtain ⟨inner, rfl, hinner⟩ := hitems.exists_passed fun _ _ => Spells.passed
          exact splitValue_of_passed (by decide) (.inl rfl) hinner rest
      | object hmembers =>
          obtain ⟨inner, rfl, hinner⟩ := hmembers.exists_passed fun _ _ => MemberText.passed fun _ _ => Spells.passed
          exact splitValue_of_passed (by decide) (.inr rfl) hinner rest

end TreeQuery
