import TreeQuery.Proofs.Decimal.Digits

/-!
# Written decimals

The digits of a decimal are split by its point, with a zero in front where all of them are places. What is
written is read back exactly, trailing zeros included.
-/

namespace TreeQuery

/-! ### Values of digits -/

theorem digitsValue_append (left right : List Char) :
    digitsValue (left ++ right) =
      right.foldl (fun value c => 10 * value + digitValue c) (digitsValue left) := by
  rw [digitsValue, List.foldl_append, digitsValue]

theorem digitsValue_zeros (count : Nat) (digits : List Char) :
    digitsValue (List.replicate count '0' ++ digits) = digitsValue digits := by
  have hzeros : digitsValue (List.replicate count '0') = 0 := by
    induction count with
    | zero => rfl
    | succ count ih =>
        rw [List.replicate_succ', digitsValue_append, ih]
        rfl
  rw [digitsValue_append, hzeros]
  rfl

theorem le_foldl_digits (digits : List Char) (value : Nat) :
    value ≤ digits.foldl (fun value c => 10 * value + digitValue c) value := by
  induction digits generalizing value with
  | nil => exact Nat.le_refl value
  | cons c digits ih =>
      have hstep : value ≤ 10 * value + digitValue c := by omega
      exact Nat.le_trans hstep (ih _)

theorem head?_toDigits_ne {n : Nat} (hpositive : 0 < n) : (Nat.toDigits 10 n).head? ≠ some '0' := by
  induction n using Nat.strongRecOn with
  | ind n ih =>
      rcases Nat.lt_or_ge n 10 with hlt | hge
      · rw [Nat.toDigits_of_lt_base hlt]
        intro hhead
        have hzero : Nat.toDigits 10 n = ['0'] := by
          rw [Nat.toDigits_of_lt_base hlt, Option.some.inj hhead]
        have hvalue := digitsValue_toDigits n
        rw [hzero] at hvalue
        exact absurd hvalue (Nat.ne_of_lt hpositive)
      · obtain ⟨c, digits, hdigits⟩ := List.exists_cons_of_ne_nil (Nat.toDigits_ne_nil (n := n / 10) (b := 10))
        have hhead := ih (n / 10) (by omega) (by omega)
        rw [hdigits] at hhead
        rw [Nat.toDigits_of_base_le (by decide) hge, hdigits]
        exact hhead

namespace Decimal

/-! ### The point -/

/-- The digits of a number on either side of a point that leaves `scale` places. -/
structure IsPlaced (n scale : Nat) (whole fraction : List Char) : Prop where
  whole_ne_nil : whole ≠ []
  isDigit : ∀ c ∈ whole ++ fraction, c.isDigit = true
  leading : whole = ['0'] ∨ whole.head? ≠ some '0'
  length_fraction : fraction.length = scale
  value : digitsValue (whole ++ fraction) = n

/-- Places behind their point, which is left out where there are none. -/
def pointed (fraction : List Char) : List Char := if fraction.isEmpty then [] else '.' :: fraction

theorem isPlaced_whole (n : Nat) : IsPlaced n 0 (Nat.toDigits 10 n) [] where
  whole_ne_nil := Nat.toDigits_ne_nil
  isDigit := by simpa using List.all_eq_true.mp (all_isDigit_toDigits n)
  leading := by
    rcases Nat.eq_zero_or_pos n with rfl | hpositive
    · exact .inl rfl
    · exact .inr (head?_toDigits_ne hpositive)
  length_fraction := rfl
  value := by rw [List.append_nil, digitsValue_toDigits]

/-- Digits with zeros in front, so that one of them stands before the places. -/
def padDigits (digits : List Char) (scale : Nat) : List Char :=
  List.replicate (scale + 1 - digits.length) '0' ++ digits

section Padding

variable {digits : List Char} {scale : Nat}

theorem lt_length_padDigits (digits : List Char) (scale : Nat) : scale < (padDigits digits scale).length := by
  rw [padDigits, List.length_append, List.length_replicate]
  omega

theorem isDigit_of_mem_padDigits (hdigits : ∀ c ∈ digits, c.isDigit = true) :
    ∀ c ∈ padDigits digits scale, c.isDigit = true := by
  intro c hmem
  rcases List.mem_append.mp hmem with hzero | hdigit
  · rw [List.eq_of_mem_replicate hzero]
    decide
  · exact hdigits c hdigit

/-- A zero stands in front only where the number has no digits of its own there. -/
theorem leading_padDigits {n : Nat} (hscale : 0 < scale) :
    let padded := padDigits (Nat.toDigits 10 n) scale
    padded.take (padded.length - scale) = ['0'] ∨ (padded.take (padded.length - scale)).head? ≠ some '0' := by
  intro padded
  have hlength : padded.length = scale + 1 - (Nat.toDigits 10 n).length + (Nat.toDigits 10 n).length := by
    simp only [padded, padDigits, List.length_append, List.length_replicate]
  rcases Nat.lt_or_ge scale (Nat.toDigits 10 n).length with hlt | hge
  · have hpad : padded = Nat.toDigits 10 n := by
      have hzero : scale + 1 - (Nat.toDigits 10 n).length = 0 := by omega
      simp only [padded, padDigits, hzero, List.replicate_zero, List.nil_append]
    have hpositive : 0 < n := by
      refine Nat.pos_of_ne_zero fun hzero => ?_
      rw [hzero, Nat.toDigits_zero, List.length_singleton] at hlt
      omega
    rw [List.head?_take, if_neg (by omega), hpad]
    exact .inr (head?_toDigits_ne hpositive)
  · have hpad : scale + 1 - (Nat.toDigits 10 n).length = scale - (Nat.toDigits 10 n).length + 1 := by omega
    have hone : padded.length - scale = 1 := by omega
    left
    rw [hone]
    simp only [padded, padDigits, hpad, List.replicate_succ, List.cons_append, List.take_succ_cons, List.take_zero]

end Padding

theorem exists_isPlaced (n scale : Nat) : ∃ whole fraction,
    placePoint (Nat.toDigits 10 n) scale = whole ++ pointed fraction ∧ IsPlaced n scale whole fraction := by
  rcases Nat.eq_zero_or_pos scale with rfl | hscale
  · exact ⟨_, [], by simp [placePoint, pointed], isPlaced_whole n⟩
  · have hplace : placePoint (Nat.toDigits 10 n) scale =
        (padDigits (Nat.toDigits 10 n) scale).take ((padDigits (Nat.toDigits 10 n) scale).length - scale) ++
          '.' :: (padDigits (Nat.toDigits 10 n) scale).drop ((padDigits (Nat.toDigits 10 n) scale).length - scale) := by
      rw [placePoint, if_neg (Nat.ne_of_gt hscale)]
      rfl
    have hleading := leading_padDigits (n := n) hscale
    have hlength := lt_length_padDigits (Nat.toDigits 10 n) scale
    have hdigits : ∀ c ∈ padDigits (Nat.toDigits 10 n) scale, c.isDigit = true :=
      isDigit_of_mem_padDigits (List.all_eq_true.mp (all_isDigit_toDigits n))
    have hvalue : digitsValue (padDigits (Nat.toDigits 10 n) scale) = n := by
      rw [padDigits, digitsValue_zeros, digitsValue_toDigits]
    generalize padDigits (Nat.toDigits 10 n) scale = padded at hplace hleading hlength hdigits hvalue
    have hfraction : (padded.drop (padded.length - scale)).length = scale := by
      rw [List.length_drop]
      omega
    refine ⟨padded.take (padded.length - scale), padded.drop (padded.length - scale), ?_, ?_, ?_, hleading, hfraction,
      ?_⟩
    · rw [hplace, pointed, if_neg]
      rw [List.isEmpty_iff]
      exact List.ne_nil_of_length_pos (by omega)
    · refine List.ne_nil_of_length_pos ?_
      rw [List.length_take]
      omega
    · rwa [List.take_append_drop]
    · rwa [List.take_append_drop]

/-! ### Reading -/

section Reading

variable {n scale : Nat} {whole fraction : List Char}

theorem readFraction_digits {text : List Char} (htext : ∀ c ∈ text, c.isDigit = true) {mantissa scale : Nat}
    (hscale : scale + text.length ≤ maxScale)
    (hbound : text.foldl (fun value c => 10 * value + digitValue c) mantissa < mantissaBound) :
    readFraction mantissa scale text =
      some (text.foldl (fun value c => 10 * value + digitValue c) mantissa, scale + text.length) := by
  induction text generalizing mantissa scale with
  | nil => rfl
  | cons c text ih =>
      obtain ⟨hc, hothers⟩ := List.forall_mem_cons.mp htext
      rw [List.foldl_cons] at hbound ⊢
      rw [List.length_cons] at hscale ⊢
      -- What has been read so far is no greater than what is read in the end, so it fits as well.
      have hextended : 10 * mantissa + digitValue c < mantissaBound := Nat.lt_of_le_of_lt (le_foldl_digits text _) hbound
      have hplace : scale < maxScale := by omega
      have hscale' : scale + 1 + text.length ≤ maxScale := by omega
      have hrest := ih hothers hscale' hbound
      rw [readFraction, if_neg (by simp [hc]), if_pos ⟨hplace, hextended⟩, hrest]
      congr 2
      omega

theorem IsPlaced.point_not_mem (hplaced : IsPlaced n scale whole fraction) : ∀ c ∈ whole, (c != '.') = true := by
  intro c hmem
  have hdigit := hplaced.isDigit c (List.mem_append_left _ hmem)
  rw [bne_iff_ne]
  rintro rfl
  exact absurd hdigit (by decide)

theorem IsPlaced.split (hplaced : IsPlaced n scale whole fraction) :
    (whole ++ pointed fraction).takeWhile (· != '.') = whole ∧
      ((whole ++ pointed fraction).dropWhile (· != '.')).drop 1 = fraction := by
  have hpoint := hplaced.point_not_mem
  rw [List.takeWhile_append_of_pos hpoint, List.dropWhile_append_of_pos hpoint]
  cases fraction <;> simp [pointed]

theorem IsPlaced.readMagnitude? (hplaced : IsPlaced n scale whole fraction) (hbound : n < mantissaBound)
    (hscale : scale ≤ maxScale) : readMagnitude? (whole ++ pointed fraction) = some (n, scale) := by
  obtain ⟨htake, hdrop⟩ := hplaced.split
  obtain ⟨hwhole, hfraction⟩ := List.forall_mem_append.mp hplaced.isDigit
  have hnonempty : (whole ++ fraction).isEmpty = false := by simp [hplaced.whole_ne_nil]
  have hall : whole.all Char.isDigit = true := List.all_eq_true.mpr hwhole
  have hvalue := hplaced.value
  rw [digitsValue_append] at hvalue
  have hlt : digitsValue whole < mantissaBound :=
    Nat.lt_of_le_of_lt (le_foldl_digits fraction _) (hvalue ▸ hbound)
  have hscale' : 0 + fraction.length ≤ maxScale := by rwa [Nat.zero_add, hplaced.length_fraction]
  have hread := readFraction_digits hfraction hscale' (hvalue ▸ hbound)
  simp only [Decimal.readMagnitude?, htake, hdrop, hnonempty, hall]
  rw [if_neg (by decide), if_pos hlt, hread, hvalue, Nat.zero_add, hplaced.length_fraction]

theorem IsPlaced.exists_head (hplaced : IsPlaced n scale whole fraction) :
    ∃ c tail, whole ++ pointed fraction = c :: tail ∧ c.isDigit = true := by
  obtain ⟨c, tail, rfl⟩ := List.exists_cons_of_ne_nil hplaced.whole_ne_nil
  exact ⟨c, tail ++ pointed fraction, rfl, hplaced.isDigit c (by simp)⟩

end Reading

theorem ofPlain?_of_isDigit {c : Char} {text : List Char} (hc : c.isDigit = true) :
    ofPlain? (c :: text) = (readMagnitude? (c :: text)).map fun (mantissa, scale) => withSign false mantissa scale := by
  rw [ofPlain?]
  rintro tail heq
  obtain rfl : c = '-' := (List.cons.inj heq).1
  exact absurd hc (by decide)

/-- The sign, and the digits on either side of the point. -/
theorem exists_toChars (value : Decimal) : ∃ whole fraction,
    value.toChars = (if value.mantissa < 0 then ['-'] else []) ++ (whole ++ pointed fraction) ∧
      IsPlaced value.mantissa.natAbs value.scale whole fraction := by
  obtain ⟨whole, fraction, hplace, hplaced⟩ := exists_isPlaced value.mantissa.natAbs value.scale
  refine ⟨whole, fraction, ?_, hplaced⟩
  rw [toChars, hplace]
  split <;> rfl

theorem toChars_of_scale_eq_zero {value : Decimal} (hscale : value.scale = 0) :
    value.toChars = (toString value.mantissa).toList := by
  rw [toChars, hscale, placePoint, if_pos rfl, toList_toString_int]
  split
  · next hnegative =>
      have hmantissa : value.mantissa.natAbs = (-value.mantissa).toNat := by omega
      rw [if_neg (by omega), hmantissa]
  · next hnonnegative =>
      have hmantissa : value.mantissa.natAbs = value.mantissa.toNat := by omega
      rw [if_pos (by omega), hmantissa]

theorem point_mem_toChars {value : Decimal} (hscale : value.scale ≠ 0) : '.' ∈ value.toChars := by
  obtain ⟨whole, fraction, htext, hplaced⟩ := exists_toChars value
  have hne : fraction.isEmpty = false := by
    rw [List.isEmpty_eq_false_iff]
    rintro rfl
    exact hscale hplaced.length_fraction.symm
  rw [htext, pointed, hne]
  simp

/-- A decimal in range is read back from its digits, with all of its places. -/
theorem ofPlain?_toChars {value : Decimal} (hrange : value.InRange) : ofPlain? value.toChars = some value := by
  obtain ⟨whole, fraction, htext, hplaced⟩ := exists_toChars value
  have hread := hplaced.readMagnitude? hrange.1 hrange.2
  rw [htext]
  split
  · next hnegative =>
      have hmantissa : -(value.mantissa.natAbs : Int) = value.mantissa := by omega
      rw [List.singleton_append, ofPlain?, hread]
      simp only [Option.map_some, withSign, if_true, hmantissa]
  · next hnonnegative =>
      have hmantissa : (value.mantissa.natAbs : Int) = value.mantissa := by omega
      obtain ⟨c, tail, hhead, hc⟩ := hplaced.exists_head
      rw [hhead] at hread
      rw [List.nil_append, hhead, ofPlain?_of_isDigit hc, hread]
      simp only [Option.map_some, withSign, Bool.false_eq_true, if_false, hmantissa]

end Decimal

end TreeQuery
