import TreeQuery.Listing
import TreeQuery.Path.Parser
import TreeQuery.Proofs.Decimal.Digits

/-!
# Words of paths

Names and quoted strings are read back from their written forms.
-/

namespace TreeQuery

/-! ### Names -/

def EndsName (text : List Char) : Prop := ∀ c ∈ text.head?, isNameChar c = false ∧ c ≠ '\\'

theorem endsName_cons {c : Char} {text : List Char} : EndsName (c :: text) ↔ isNameChar c = false ∧ c ≠ '\\' := by
  simp [EndsName]

theorem splitName_of_endsName {rest : List Char} (hrest : EndsName rest) : splitName rest = (some [], rest) := by
  cases rest with
  | nil => rfl
  | cons c rest =>
      obtain ⟨hname, hslash⟩ := endsName_cons.mp hrest
      rw [splitName, if_neg (by simp [hname])]
      · exact fun h _ => hslash h
      · exact fun _ _ h _ => hslash h

theorem splitName_escaped (c : Char) (text : List Char) :
    splitName ('\\' :: c :: text) = ((splitName text).1.map (c :: ·), (splitName text).2) := by
  rw [splitName]

theorem splitName_nameChar {c : Char} (hname : isNameChar c = true) (text : List Char) :
    splitName (c :: text) = ((splitName text).1.map (c :: ·), (splitName text).2) := by
  have hslash : c ≠ '\\' := by
    rintro rfl
    exact absurd hname (by decide)
  rw [splitName, if_pos hname]
  · exact fun h _ => hslash h
  · exact fun _ _ h _ => hslash h

theorem splitName_escapeNameChar (c : Char) (text : List Char) :
    splitName (escapeNameChar c ++ text) = ((splitName text).1.map (c :: ·), (splitName text).2) := by
  rw [escapeNameChar]
  cases hname : isNameChar c with
  | true => exact splitName_nameChar hname text
  | false => exact splitName_escaped c text

theorem splitName_flatMap {name rest : List Char} (hrest : EndsName rest) :
    splitName (name.flatMap escapeNameChar ++ rest) = (some name, rest) := by
  induction name with
  | nil => exact splitName_of_endsName hrest
  | cons c name ih => rw [List.flatMap_cons, List.append_assoc, splitName_escapeNameChar, ih]; rfl

/-- An escaped name is read back up to what does not belong to a name. -/
theorem splitName_escapeName {name rest : List Char} (hrest : EndsName rest) :
    splitName (escapeName name ++ rest) = (some name, rest) := by
  cases name with
  | nil => exact splitName_of_endsName hrest
  | cons c name =>
      rw [escapeName, List.append_assoc]
      split
      · rw [List.cons_append, List.cons_append, List.nil_append, splitName_escaped, splitName_flatMap hrest]; rfl
      · rw [splitName_escapeNameChar, splitName_flatMap hrest]; rfl

/-! ### Quoted strings -/

/-- A character between quotes: the quote and the backslash stand behind a backslash. -/
def quoteChar (quote c : Char) : List Char := if c = '\\' ∨ c = quote then ['\\', c] else [c]

def quoteText (quote : Char) (text : List Char) : List Char := text.flatMap (quoteChar quote)

theorem splitString_escaped {quote c : Char} (hc : c = '\\' ∨ isQuote c = true) (text : List Char) :
    splitString quote ('\\' :: c :: text) =
      (splitString quote text).map fun (found, rest) => (c :: found, rest) := by
  have hchar : escapedChar c = c ∧ c ≠ 'u' := by
    simp only [isQuote, Bool.or_eq_true, beq_iff_eq] at hc
    rcases hc with rfl | rfl | rfl <;> decide
  rw [splitString, hchar.1]
  · exact fun _ _ _ _ _ h _ => hchar.2 h
  · exact hchar.2

theorem splitString_plain {quote c : Char} (hc : c ≠ '\\') (hquote : c ≠ quote) (text : List Char) :
    splitString quote (c :: text) = (splitString quote text).map fun (found, rest) => (c :: found, rest) := by
  rw [splitString, if_neg hquote, if_neg hc]
  · exact fun _ _ _ _ _ h _ => hc h
  · exact fun _ h _ => hc h
  · exact fun _ _ h _ => hc h

theorem splitString_close {quote : Char} (hquote : isQuote quote = true) (rest : List Char) :
    splitString quote (quote :: rest) = .ok ([], rest) := by
  have hslash : quote ≠ '\\' := by
    rintro rfl
    exact absurd hquote (by decide)
  rw [splitString, if_pos rfl]
  · exact fun _ _ _ _ _ h _ => hslash h
  · exact fun _ h _ => hslash h
  · exact fun _ _ h _ => hslash h

theorem splitString_quoteChar {quote : Char} (hquote : isQuote quote = true) (c : Char) (text : List Char) :
    splitString quote (quoteChar quote c ++ text) =
      (splitString quote text).map fun (found, rest) => (c :: found, rest) := by
  rw [quoteChar]
  split
  · next hc =>
      refine splitString_escaped (hc.imp_right fun heq => ?_) text
      rw [heq]
      exact hquote
  · next hc => exact splitString_plain (not_or.mp hc).1 (not_or.mp hc).2 text

theorem splitString_quoteText {quote : Char} (hquote : isQuote quote = true) (text rest : List Char) :
    splitString quote (quoteText quote text ++ quote :: rest) = .ok (text, rest) := by
  induction text with
  | nil => exact splitString_close hquote rest
  | cons c text ih =>
      rw [quoteText] at ih ⊢
      rw [List.flatMap_cons, List.append_assoc, splitString_quoteChar hquote, ih]
      rfl

end TreeQuery
