import TreeQuery.Proofs.Path.Bytes
import TreeQuery.Proofs.Stream.Moves

/-!
# Where values are cut off

The text of a value is cut off in front of what follows. Of that nothing is seen but whether its first character can
belong to the value, which no character beyond ASCII tells from another one.
-/

namespace TreeQuery

open Text

/-- Texts that begin with the same character, or both with a character beyond ASCII, or that are both empty. -/
inductive Alike : List Char → List Char → Prop
  | nothing : Alike [] []
  | same (c : Char) (rest rest' : List Char) : Alike (c :: rest) (c :: rest')
  | high {c c' : Char} (hc : IsHigh c) (hc' : IsHigh c') (rest rest' : List Char) : Alike (c :: rest) (c' :: rest')

variable {text rest rest' piece quoted : List Char} {c : Char}

theorem Alike.append (halike : Alike rest rest') (front : List Char) : Alike (front ++ rest) (front ++ rest') := by
  cases front with
  | nil => exact halike
  | cons c front => exact .same c _ _

theorem ne_of_isHigh (hhigh : IsHigh c) {x : Char} (hx : ¬IsHigh x) : c ≠ x := by
  rintro rfl
  exact hx hhigh

theorem isBlank_of_isHigh (hhigh : IsHigh c) : isBlank c = false := by
  have hne : ∀ x, ¬IsHigh x → c ≠ x := fun x hx => ne_of_isHigh hhigh hx
  simp [isBlank, hne ' ' (by decide), hne '\t' (by decide), hne '\n' (by decide), hne '\r' (by decide)]

theorem endsScalar_of_isHigh (hhigh : IsHigh c) : endsScalar c = false := by
  have hne : ∀ x, ¬IsHigh x → c ≠ x := fun x hx => ne_of_isHigh hhigh hx
  simp [endsScalar, isBlank_of_isHigh hhigh, hne ',' (by decide), hne ':' (by decide), hne ']' (by decide),
    hne '\x7d' (by decide)]

theorem isDigit_of_isHigh (hhigh : IsHigh c) : c.isDigit = false := by
  have hcode : ¬c.toNat ≤ 57 := Nat.not_le_of_lt (Nat.lt_of_lt_of_le (by decide) hhigh)
  simpa [Char.isDigit, UInt32.le_iff_toNat_le] using fun _ => Nat.lt_of_not_le hcode

theorem ofChar_of_isHigh (hhigh : IsHigh c) : Token.ofChar c = .invalid := by
  have hne : ∀ x, ¬IsHigh x → c ≠ x := fun x hx => ne_of_isHigh hhigh hx
  simp [Token.ofChar, isDigit_of_isHigh hhigh, hne '\x7b' (by decide), hne '\x7d' (by decide), hne '[' (by decide),
    hne ']' (by decide), hne '"' (by decide), hne ',' (by decide), hne ':' (by decide), hne 't' (by decide),
    hne 'f' (by decide), hne 'n' (by decide), hne '-' (by decide)]

/-- What starts at a place can be told from the first character. -/
theorem Alike.token_eq (halike : Alike rest rest') (length length' depth depth' : Nat) (scope scope' : Option Nat) :
    Cursor.token ⟨length, rest, depth, scope⟩ = Cursor.token ⟨length', rest', depth', scope'⟩ := by
  cases halike with
  | nothing => rfl
  | same c rest rest' => rfl
  | high hc hc' rest rest' => exact (ofChar_of_isHigh hc).trans (ofChar_of_isHigh hc').symm

theorem Alike.delimits (halike : Alike rest rest') (hrest : Delimits rest) : Delimits rest' := by
  cases halike with
  | nothing => exact hrest
  | same c rest rest' => exact delimits_cons.mpr (delimits_cons.mp hrest)
  | high hc hc' rest rest' =>
      rw [delimits_cons, endsScalar_of_isHigh hc] at hrest
      cases hrest

theorem isBlank_of_skipBlank (hskip : skipBlank text = c :: rest) : isBlank c = false := by
  have hhead := List.head?_dropWhile_not isBlank text
  rwa [show text.dropWhile isBlank = c :: rest from hskip] at hhead

/-- White space ends in front of what goes on alike. -/
theorem Alike.skipBlank_append {blank : List Char} (hblank : Json.Blank blank) (halike : Alike (skipBlank text) rest) :
    skipBlank (blank ++ rest) = rest := by
  rw [Json.skipBlank_append hblank]
  generalize hskip : skipBlank text = shown at halike
  cases halike with
  | nothing => rfl
  | same c shown rest => exact Json.skipBlank_cons (isBlank_of_skipBlank hskip) rest
  | high hc hc' shown rest => exact Json.skipBlank_cons (isBlank_of_isHigh hc') rest

/-! ### Strings -/

theorem splitQuoted_append (hsplit : splitQuoted text = some (quoted, rest)) :
    text = quoted ++ rest ∧ quoted ≠ [] ∧ ∀ rest', splitQuoted (quoted ++ rest') = some (quoted, rest') := by
  fun_induction splitQuoted text generalizing quoted with
  | case1 => cases hsplit
  | case2 c text ih =>
      obtain ⟨⟨more, rest⟩, hmore, heq⟩ := Option.map_eq_some_iff.mp hsplit
      cases heq
      obtain ⟨rfl, -, hagain⟩ := ih hmore
      refine ⟨rfl, List.cons_ne_nil _ _, fun rest' => ?_⟩
      rw [List.cons_append, List.cons_append, splitQuoted_escape, hagain]
      rfl
  | case3 text =>
      cases hsplit
      refine ⟨rfl, List.cons_ne_nil _ _, fun rest' => ?_⟩
      rw [List.singleton_append, splitQuoted]
      · rfl
      · exact fun _ _ heq => absurd heq (by decide)
  | case4 => cases hsplit
  | case5 c text _ hquote hslash ih =>
      obtain ⟨⟨more, rest⟩, hmore, heq⟩ := Option.map_eq_some_iff.mp hsplit
      cases heq
      obtain ⟨rfl, -, hagain⟩ := ih hmore
      refine ⟨rfl, List.cons_ne_nil _ _, fun rest' => ?_⟩
      rw [List.cons_append, splitQuoted_cons ⟨hquote, hslash⟩, hagain]
      rfl

/-! ### Containers -/

/-- A part of a container is cut off, and it is again whatever follows, as long as there is fuel for its characters. -/
def Cuts (nesting : Nat) (text piece rest : List Char) : Prop :=
  text = piece ++ rest ∧ piece ≠ [] ∧
    ∀ fuel rest', piece.length ≤ fuel → splitContainer fuel nesting (piece ++ rest') = .ok (piece, rest')

section Containers

variable {fuel nesting nesting' : Nat} {front : List Char}

/-- What goes before a part that is cut off is cut off with it. -/
theorem cuts_of_step (hfront : front ≠ [])
    (hstep : ∀ fuel text, splitContainer (fuel + 1) nesting (front ++ text) =
      (splitContainer fuel nesting' text).map fun (piece, rest) => (front ++ piece, rest))
    (hsplit : splitContainer (fuel + 1) nesting (front ++ text) = .ok (piece, rest))
    (ih : ∀ {piece}, splitContainer fuel nesting' text = .ok (piece, rest) → Cuts nesting' text piece rest) :
    Cuts nesting (front ++ text) piece rest := by
  rw [hstep] at hsplit
  cases hmore : splitContainer fuel nesting' text with
  | error fault =>
      rw [hmore] at hsplit
      cases hsplit
  | ok found =>
      rw [hmore] at hsplit
      obtain ⟨rfl, rfl⟩ := Prod.mk.inj (Except.ok.inj hsplit)
      obtain ⟨htext, -, hagain⟩ := ih hmore
      refine ⟨by rw [htext, List.append_assoc], List.append_ne_nil_of_left_ne_nil hfront _, fun fuel rest' hfuel => ?_⟩
      have hpos := List.length_pos_iff.mpr hfront
      rw [List.length_append] at hfuel
      obtain ⟨left, rfl⟩ := exists_eq_succ_of_lt (Nat.lt_of_lt_of_le (Nat.lt_add_right _ hpos) hfuel)
      rw [List.append_assoc, hstep, hagain left rest' (by omega)]
      rfl

theorem cuts_splitContainer (hsplit : splitContainer fuel nesting text = .ok (piece, rest)) :
    Cuts nesting text piece rest := by
  induction fuel, nesting, text using splitContainer.induct generalizing piece with
  | case1 nesting text =>
      rw [splitContainer] at hsplit
      cases hsplit
  | case2 fuel nesting hfuel =>
      rw [splitContainer] at hsplit
      · cases hsplit
      · exact hfuel
  | case3 fuel nesting text hquoted =>
      rw [splitContainer, if_pos rfl, hquoted] at hsplit
      cases hsplit
  | case4 fuel nesting text quoted text' hquoted ih =>
      obtain ⟨rfl, -, hagain⟩ := splitQuoted_append hquoted
      refine cuts_of_step (List.cons_ne_nil '"' quoted) (fun fuel text => ?_) hsplit ih
      rw [List.cons_append, splitContainer, if_pos rfl, hagain]
  | case5 fuel nesting c text hquote hopens ih =>
      refine cuts_of_step (List.cons_ne_nil c []) (fun fuel text => ?_) hsplit (ih (nesting + 1))
      rw [List.singleton_append, splitContainer, if_neg hquote, if_pos hopens]
      rfl
  | case6 fuel nesting c text hquote hopens hcloses hlast ih =>
      rw [splitContainer, if_neg hquote, if_neg hopens, if_pos hcloses, if_pos hlast] at hsplit
      cases hsplit
      refine ⟨rfl, List.cons_ne_nil _ _, fun fuel rest' hfuel => ?_⟩
      obtain ⟨left, rfl⟩ := exists_eq_succ_of_lt hfuel
      rw [List.singleton_append, splitContainer, if_neg hquote, if_neg hopens, if_pos hcloses, if_pos hlast]
  | case7 fuel nesting c text hquote hopens hcloses hlast ih =>
      refine cuts_of_step (List.cons_ne_nil c []) (fun fuel text => ?_) hsplit (ih (nesting - 1))
      rw [List.singleton_append, splitContainer, if_neg hquote, if_neg hopens, if_pos hcloses, if_neg hlast]
      rfl
  | case8 fuel nesting c text hquote hopens hcloses ih =>
      refine cuts_of_step (List.cons_ne_nil c []) (fun fuel text => ?_) hsplit (ih nesting)
      rw [List.singleton_append, splitContainer, if_neg hquote, if_neg hopens, if_neg hcloses]
      rfl

end Containers

/-! ### Values -/

theorem endsScalar_of_word (htoken : Token.ofChar c ∈ wordTokens) : endsScalar c = false := by
  cases hends : endsScalar c with
  | false => rfl
  | true =>
      simp only [endsScalar, isBlank, Bool.or_eq_true, beq_iff_eq] at hends
      rcases hends with (((rfl | rfl) | rfl) | rfl) | ((rfl | rfl) | rfl) | rfl <;> exact absurd htoken (by decide)

theorem splitValue_eq_of_word (htoken : Token.ofChar c ∈ wordTokens) (text : List Char) :
    splitValue (c :: text) = .ok ((c :: text).takeWhile (!endsScalar ·), (c :: text).dropWhile (!endsScalar ·)) := by
  simp only [wordTokens, List.mem_cons, List.not_mem_nil, or_false] at htoken
  rcases htoken with htoken | htoken | htoken | htoken <;> simp only [splitValue, htoken]

/-- A number or a word is cut off in front of a delimiter. -/
theorem splitWord_append (htoken : Token.ofChar c ∈ wordTokens) (hsplit : splitValue (c :: text) = .ok (piece, rest)) :
    c :: text = piece ++ rest ∧ piece ≠ [] ∧
      ∀ rest', Alike rest rest' → splitValue (piece ++ rest') = .ok (piece, rest') := by
  rw [splitValue_eq_of_word htoken] at hsplit
  obtain ⟨hpiece, hrest⟩ := Prod.mk.inj (Except.ok.inj hsplit)
  have htext : c :: text = piece ++ rest := by
    rw [← hpiece, ← hrest, List.takeWhile_append_dropWhile]
  have hdelimits : Delimits rest := by
    intro x hx
    have hhead := List.head?_dropWhile_not (!endsScalar ·) (c :: text)
    rw [hrest, hx] at hhead
    simpa using hhead
  have hcons : piece = c :: text.takeWhile (!endsScalar ·) := by
    rw [← hpiece, List.takeWhile_cons_of_pos (by simp [endsScalar_of_word htoken])]
  refine ⟨htext, hcons ▸ List.cons_ne_nil _ _, fun rest' halike => ?_⟩
  have hchars : ∀ x ∈ piece, endsScalar x = false := by
    intro x hx
    rw [← hpiece] at hx
    simpa using List.all_eq_true.mp List.all_takeWhile x hx
  rw [hcons] at hchars ⊢
  exact splitValue_of_word (by simpa [wordTokens] using htoken) hchars (halike.delimits hdelimits)

theorem splitBrackets_append (htoken : Token.ofChar c = .beginObject ∨ Token.ofChar c = .beginArray)
    (hsplit : splitContainer ((c :: text).length + 1) 0 (c :: text) = .ok (piece, rest)) :
    c :: text = piece ++ rest ∧ piece ≠ [] ∧ ∀ rest', splitValue (piece ++ rest') = .ok (piece, rest') := by
  obtain ⟨htext, hne, hagain⟩ := cuts_splitContainer hsplit
  refine ⟨htext, hne, fun rest' => ?_⟩
  obtain ⟨x, more, rfl⟩ := List.exists_cons_of_ne_nil hne
  obtain rfl : c = x := (List.cons.inj htext).1
  have hfuel : (c :: more).length ≤ (c :: more ++ rest').length + 1 := by
    rw [List.length_append]
    omega
  have hcut := hagain _ rest' hfuel
  rw [List.cons_append] at hcut ⊢
  rcases htoken with htoken | htoken <;> simp only [splitValue, htoken] <;> exact hcut

/-- The text of a value is cut off the same in front of anything alike. -/
theorem splitValue_append (hsplit : splitValue text = .ok (piece, rest)) :
    text = piece ++ rest ∧ piece ≠ [] ∧
      ∀ rest', Alike rest rest' → splitValue (piece ++ rest') = .ok (piece, rest') := by
  cases text with
  | nil => cases hsplit
  | cons c text =>
      by_cases hword : Token.ofChar c ∈ wordTokens
      · exact splitWord_append hword hsplit
      simp only [splitValue] at hsplit
      split at hsplit
      · next htoken =>
          cases hquoted : splitQuoted text with
          | none =>
              rw [hquoted] at hsplit
              cases hsplit
          | some found =>
              rw [hquoted] at hsplit
              obtain ⟨rfl, rfl⟩ := Prod.mk.inj (Except.ok.inj hsplit)
              obtain ⟨rfl, -, hagain⟩ := splitQuoted_append hquoted
              refine ⟨rfl, List.cons_ne_nil _ _, fun rest' _ => ?_⟩
              simp only [List.cons_append, splitValue, htoken, hagain]
      · next htoken =>
          obtain ⟨htext, hne, hagain⟩ := splitBrackets_append (.inl htoken) hsplit
          exact ⟨htext, hne, fun rest' _ => hagain rest'⟩
      · next htoken =>
          obtain ⟨htext, hne, hagain⟩ := splitBrackets_append (.inr htoken) hsplit
          exact ⟨htext, hne, fun rest' _ => hagain rest'⟩
      · next htoken => exact absurd (by simp [htoken, wordTokens]) hword
      · next htoken => exact absurd (by simp [htoken, wordTokens]) hword
      · next htoken => exact absurd (by simp [htoken, wordTokens]) hword
      · next htoken => exact absurd (by simp [htoken, wordTokens]) hword
      · cases hsplit

end TreeQuery
