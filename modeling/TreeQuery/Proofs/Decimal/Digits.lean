import TreeQuery.Decimal.Text

/-!
# Digits

Numbers are read back from their digits, and integers of a word from their written form.
-/

namespace TreeQuery

theorem digitsValue_toDigits (n : Nat) : digitsValue (Nat.toDigits 10 n) = n := by
  have hvalue := Nat.ofDigitChars_ten_toDigits (n := n)
  rwa [Nat.ofDigitChars_eq_foldl] at hvalue

theorem all_isDigit_toDigits (n : Nat) : (Nat.toDigits 10 n).all Char.isDigit = true :=
  List.all_eq_true.mpr fun _ hmem => Nat.isDigit_of_mem_toDigits (by decide) (by decide) hmem

theorem natOfDigits?_digits {digits : List Char} (hne : digits ≠ []) (hdigits : ∀ c ∈ digits, c.isDigit = true) :
    natOfDigits? digits = some (digitsValue digits) := by
  have hall : digits.all Char.isDigit = true := List.all_eq_true.mpr hdigits
  rw [natOfDigits?, List.isEmpty_eq_false_iff.mpr hne, hall]
  rfl

theorem natOfDigits?_toDigits (n : Nat) : natOfDigits? (Nat.toDigits 10 n) = some n := by
  rw [natOfDigits?_digits Nat.toDigits_ne_nil (List.all_eq_true.mp (all_isDigit_toDigits n)), digitsValue_toDigits]

theorem toList_toString_int (value : Int) :
    (toString value).toList =
      if 0 ≤ value then Nat.toDigits 10 value.toNat else '-' :: Nat.toDigits 10 (-value).toNat := by
  rw [Int.toString_eq_repr, Int.repr_eq_if]
  split
  · rw [Nat.toList_repr]
  · rw [String.toList_append, Nat.toList_repr]
    rfl

theorem wordOfChars?_digits {digits : List Char} (hne : digits ≠ []) (hdigits : ∀ c ∈ digits, c.isDigit = true) :
    wordOfChars? digits = if InWord (digitsValue digits) then some (digitsValue digits : Int) else none := by
  have hhead : ∀ {c : Char} {rest : List Char}, c.isDigit = false → digits ≠ c :: rest := by
    rintro c rest hc rfl
    rw [hdigits c (by simp)] at hc
    cases hc
  simp only [wordOfChars?]
  split
  · exact absurd rfl (hhead (by decide))
  · exact absurd rfl (hhead (by decide))
  · simp [natOfDigits?_digits hne hdigits, Option.filter_some]

theorem wordOfChars?_toString_eq (value : Int) :
    wordOfChars? (toString value).toList = if InWord value then some value else none := by
  rw [toList_toString_int]
  split
  · next hnonneg =>
      have hcast : (value.toNat : Int) = value := Int.toNat_of_nonneg hnonneg
      rw [wordOfChars?_digits Nat.toDigits_ne_nil (List.all_eq_true.mp (all_isDigit_toDigits _)), digitsValue_toDigits,
        hcast]
  · next hnegative =>
      have hcast : -((-value).toNat : Int) = value := by omega
      simp only [wordOfChars?, natOfDigits?_toDigits, Option.pure_def, Option.bind_eq_bind, Option.bind_some,
        Option.map_some, hcast, Option.filter_some, decide_eq_true_eq]

theorem wordOfChars?_toString {value : Int} (hword : InWord value) :
    wordOfChars? (toString value).toList = some value := by
  rw [wordOfChars?_toString_eq, if_pos hword]

theorem natOfDigits?_of_mem {text : List Char} {c : Char} (hmem : c ∈ text) (hc : c.isDigit = false) :
    natOfDigits? text = none := by
  have hall : text.all Char.isDigit = false := List.all_eq_false.mpr ⟨c, hmem, by simp [hc]⟩
  rw [natOfDigits?, hall, Bool.not_false, Bool.or_true, if_pos rfl]

/-- A text with a point in it is no integer. -/
theorem wordOfChars?_of_mem_point {text : List Char} (hmem : '.' ∈ text) : wordOfChars? text = none := by
  have hdigits : ∀ {text : List Char}, '.' ∈ text → natOfDigits? text = none := fun hmem =>
    natOfDigits?_of_mem hmem (by decide)
  simp only [wordOfChars?]
  split
  · rw [hdigits (by simpa using hmem)]
    rfl
  · rw [hdigits (by simpa using hmem)]
    rfl
  · rw [hdigits hmem]
    rfl

theorem mem_digits_of_isDigit {c : Char} (hdigit : c.isDigit = true) :
    c ∈ ['0', '1', '2', '3', '4', '5', '6', '7', '8', '9'] := by
  have hbounds : 48 ≤ c.toNat ∧ c.toNat ≤ 57 := Char.isDigit_iff_toNat.mp hdigit
  have hcases : c.toNat = 48 ∨ c.toNat = 49 ∨ c.toNat = 50 ∨ c.toNat = 51 ∨ c.toNat = 52 ∨ c.toNat = 53 ∨
      c.toNat = 54 ∨ c.toNat = 55 ∨ c.toNat = 56 ∨ c.toNat = 57 := by omega
  rw [← Char.ofNat_toNat c]
  rcases hcases with h | h | h | h | h | h | h | h | h | h <;> rw [h] <;> decide

theorem toDigits_digitValue {c : Char} (hdigit : c.isDigit = true) :
    digitValue c < 10 ∧ Nat.toDigits 10 (digitValue c) = [c] := by
  have hmem := mem_digits_of_isDigit hdigit
  simp only [List.mem_cons, List.not_mem_nil, or_false] at hmem
  rcases hmem with rfl | rfl | rfl | rfl | rfl | rfl | rfl | rfl | rfl | rfl <;> decide

theorem toDigits_foldl {digits : List Char} (hdigits : ∀ c ∈ digits, c.isDigit = true) {value : Nat}
    (hpositive : 0 < value) :
    Nat.toDigits 10 (digits.foldl (fun value c => 10 * value + digitValue c) value) =
      Nat.toDigits 10 value ++ digits := by
  -- The value read so far is positive: a zero would have a digit that is lost once others follow.
  induction digits generalizing value with
  | nil => rw [List.foldl_nil, List.append_nil]
  | cons c digits ih =>
      obtain ⟨hc, hothers⟩ := List.forall_mem_cons.mp hdigits
      obtain ⟨hlt, htoDigits⟩ := toDigits_digitValue hc
      rw [List.foldl_cons, ih hothers (show 0 < 10 * value + digitValue c by omega),
        ← Nat.toDigits_append_toDigits (by decide) hpositive hlt, htoDigits, List.append_assoc]
      rfl

/-- Digits that start with no zero, or are a single zero, are those of their value. -/
theorem toDigits_digitsValue {digits : List Char} (hne : digits ≠ []) (hdigits : ∀ c ∈ digits, c.isDigit = true)
    (hzero : digits = ['0'] ∨ digits.head? ≠ some '0') : Nat.toDigits 10 (digitsValue digits) = digits := by
  cases digits with
  | nil => exact absurd rfl hne
  | cons c digits =>
      obtain ⟨hc, hothers⟩ := List.forall_mem_cons.mp hdigits
      obtain ⟨-, htoDigits⟩ := toDigits_digitValue hc
      rcases hzero with hzero | hhead
      · rw [hzero]
        decide
      · have hpositive : 0 < digitValue c := by
          refine Nat.pos_of_ne_zero fun hvalue => hhead ?_
          rw [hvalue, Nat.toDigits_zero] at htoDigits
          rw [← (List.cons.inj htoDigits).1]
          rfl
        have hstart : 10 * 0 + digitValue c = digitValue c := by omega
        rw [digitsValue, List.foldl_cons, hstart, toDigits_foldl hothers hpositive, htoDigits]
        rfl

end TreeQuery
