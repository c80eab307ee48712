import TreeQuery.Json.Reader

/-!
# The grammar of JSON text

What the written forms of a value are, without saying how they are read. A value is a text with no
white space at its ends; nesting is counted, as the reader allows only so much of it. Objects keep all
members that are written; what they stand for is decided later.
-/

namespace TreeQuery.Json

open Text

def Blank (text : List Char) : Prop := ∀ c ∈ text, isBlank c = true

theorem Blank.nil : Blank [] := by
  intro c hmem
  cases hmem

theorem Blank.append {left right : List Char} (hleft : Blank left) (hright : Blank right) :
    Blank (left ++ right) := by
  intro c hmem
  rcases List.mem_append.mp hmem with hmem | hmem
  · exact hleft c hmem
  · exact hright c hmem

/-! ### Strings -/

/-- What stands after the opening quote of a string with this content, closing quote included. -/
inductive QuotedText : List Char → List Char → Prop
  | close : QuotedText [] ['"']
  | plain {c : Char} {content text : List Char} (hquote : c ≠ '"') (hslash : c ≠ '\\')
      (hprintable : 0x20 ≤ c.toNat) (htail : QuotedText content text) : QuotedText (c :: content) (c :: text)
  | short {c found : Char} {content text : List Char} (hescape : unescape? c = some found)
      (htail : QuotedText content text) : QuotedText (found :: content) ('\\' :: c :: text)
  | code {a b c d : Char} {code : Nat} {content text : List Char} (hcode : hexCode? a b c d = some code)
      (hhigh : isHighSurrogate code = false) (hlow : isLowSurrogate code = false)
      (htail : QuotedText content text) :
      QuotedText (Char.ofNat code :: content) ('\\' :: 'u' :: a :: b :: c :: d :: text)
  | pair {a b c d e f g h : Char} {high low : Nat} {content text : List Char}
      (hcode : hexCode? a b c d = some high) (hhigh : isHighSurrogate high = true)
      (hcode' : hexCode? e f g h = some low) (hlow : isLowSurrogate low = true)
      (htail : QuotedText content text) :
      QuotedText (joinSurrogates high low :: content)
        ('\\' :: 'u' :: a :: b :: c :: d :: '\\' :: 'u' :: e :: f :: g :: h :: text)

/-! ### Numbers -/

def Digits (text : List Char) : Prop := text ≠ [] ∧ ∀ c ∈ text, c.isDigit = true

/-- Digits before the point, without a leading zero. -/
inductive WholeText : List Char → Prop
  | zero : WholeText ['0']
  | digits {text : List Char} (hdigits : Digits text) (hlead : text.head? ≠ some '0') : WholeText text

inductive FractionText : List Char → Prop
  | absent : FractionText []
  | present {text : List Char} (hdigits : Digits text) : FractionText ('.' :: text)

inductive ExponentText : List Char → Prop
  | absent : ExponentText []
  | plain {mark : Char} {text : List Char} (hmark : Decimal.isExponentMark mark = true)
      (hdigits : Digits text) : ExponentText (mark :: text)
  | signed {mark sign : Char} {text : List Char} (hmark : Decimal.isExponentMark mark = true)
      (hsign : sign = '+' ∨ sign = '-') (hdigits : Digits text) : ExponentText (mark :: sign :: text)

inductive UnsignedText : List Char → Prop
  | mk {whole fraction exponent : List Char} (hwhole : WholeText whole) (hfraction : FractionText fraction)
      (hexponent : ExponentText exponent) : UnsignedText (whole ++ fraction ++ exponent)

inductive NumberText : List Char → Prop
  | positive {text : List Char} (hunsigned : UnsignedText text) : NumberText text
  | negative {text : List Char} (hunsigned : UnsignedText text) : NumberText ('-' :: text)

/-! ### Values -/

inductive ScalarText : List Char → Tree → Prop
  | null : ScalarText ['n', 'u', 'l', 'l'] .null
  | true : ScalarText ['t', 'r', 'u', 'e'] (.bool true)
  | false : ScalarText ['f', 'a', 'l', 's', 'e'] (.bool false)
  | string {content text : List Char} (hquoted : QuotedText content text) :
      ScalarText ('"' :: text) (.string (String.ofList content))
  | number {text : List Char} (hnumber : NumberText text) : ScalarText text (Tree.ofNumberChars text)

theorem isScalar_ofNumberChars (number : List Char) : (Tree.ofNumberChars number).isScalar = true := by
  simp only [Tree.ofNumberChars, Tree.ofBinary64]
  repeat' split
  all_goals rfl

theorem ScalarText.isScalar {text : List Char} {tree : Tree} (hscalar : ScalarText text tree) :
    tree.isScalar := by
  cases hscalar with
  | number _ => exact isScalar_ofNumberChars _
  | _ => rfl

/-- One or more items with commas between them and white space around each, and the closing bracket. -/
inductive SeparatedText {α : Type} (item : List Char → α → Prop) (close : Char) :
    List Char → List α → Prop
  | last {before text after : List Char} {a : α} (hbefore : Blank before) (hitem : item text a)
      (hafter : Blank after) : SeparatedText item close (before ++ text ++ after ++ [close]) [a]
  | more {before text after others : List Char} {a : α} {as : List α} (hbefore : Blank before)
      (hitem : item text a) (hafter : Blank after) (hothers : SeparatedText item close others as) :
      SeparatedText item close (before ++ text ++ after ++ ',' :: others) (a :: as)

inductive ItemsText {α : Type} (item : List Char → α → Prop) (close : Char) : List Char → List α → Prop
  | none {blank : List Char} (hblank : Blank blank) : ItemsText item close (blank ++ [close]) []
  | some {text : List Char} {as : List α} (hsome : SeparatedText item close text as) :
      ItemsText item close text as

inductive MemberText (value : List Char → Tree → Prop) : List Char → String × Tree → Prop
  | mk {content key before after text : List Char} {tree : Tree} (hkey : QuotedText content key)
      (hbefore : Blank before) (hafter : Blank after) (hvalue : value text tree) :
      MemberText value ('"' :: key ++ before ++ ':' :: (after ++ text)) (String.ofList content, tree)

/-- The forms of a value whose parts have the forms `value`. -/
inductive ValueText (value : List Char → Tree → Prop) : List Char → Tree → Prop
  | scalar {text : List Char} {tree : Tree} (hscalar : ScalarText text tree) : ValueText value text tree
  | array {text : List Char} {items : List Tree} (hitems : ItemsText value ']' text items) :
      ValueText value ('[' :: text) (.array items)
  | object {text : List Char} {members : List (String × Tree)}
      (hmembers : ItemsText (MemberText value) '\x7d' text members) : ValueText value ('\x7b' :: text) (.object members)

/-- The forms of a value with at most `depth` arrays and objects open at once. -/
def Spells : Nat → List Char → Tree → Prop
  | 0 => ScalarText
  | depth + 1 => ValueText (Spells depth)

/-! ### Items one by one -/

section Items

variable {α : Type} {item item' : List Char → α → Prop} {close : Char} {text : List Char} {as : List α}

theorem SeparatedText.imp_of_mem (htext : SeparatedText item close text as)
    (himp : ∀ a ∈ as, ∀ text, item text a → item' text a) : SeparatedText item' close text as := by
  induction htext with
  | last hbefore hitem hafter => exact .last hbefore (himp _ (by simp) _ hitem) hafter
  | more hbefore hitem hafter _ ih =>
      exact .more hbefore (himp _ (by simp) _ hitem) hafter (ih fun a hmem => himp a (by simp [hmem]))

theorem ItemsText.imp_of_mem (htext : ItemsText item close text as)
    (himp : ∀ a ∈ as, ∀ text, item text a → item' text a) : ItemsText item' close text as := by
  cases htext with
  | none hblank => exact .none hblank
  | some hsome => exact .some (hsome.imp_of_mem himp)

theorem SeparatedText.exists_text (htext : SeparatedText item close text as) : ∀ a ∈ as, ∃ text, item text a := by
  induction htext with
  | last _ hitem _ => exact List.forall_mem_singleton.mpr ⟨_, hitem⟩
  | more _ hitem _ _ ih => exact List.forall_mem_cons.mpr ⟨⟨_, hitem⟩, ih⟩

theorem ItemsText.exists_text (htext : ItemsText item close text as) : ∀ a ∈ as, ∃ text, item text a := by
  cases htext with
  | none _ => exact List.forall_mem_nil _
  | some hsome => exact hsome.exists_text

end Items

/-! ### Deeper nesting is allowed where less is -/

theorem MemberText.mono {value value' : List Char → Tree → Prop}
    (hmono : ∀ text tree, value text tree → value' text tree) {text : List Char} {member : String × Tree}
    (htext : MemberText value text member) : MemberText value' text member := by
  cases htext with
  | mk hkey hbefore hafter hvalue => exact .mk hkey hbefore hafter (hmono _ _ hvalue)

theorem ValueText.mono {value value' : List Char → Tree → Prop}
    (hmono : ∀ text tree, value text tree → value' text tree) {text : List Char} {tree : Tree}
    (htext : ValueText value text tree) : ValueText value' text tree := by
  cases htext with
  | scalar hscalar => exact .scalar hscalar
  | array hitems => exact .array (hitems.imp_of_mem fun item _ text => hmono text item)
  | object hmembers => exact .object (hmembers.imp_of_mem fun _ _ _ => MemberText.mono hmono)

theorem Spells.succ {depth : Nat} {text : List Char} {tree : Tree} (htext : Spells depth text tree) :
    Spells (depth + 1) text tree := by
  induction depth generalizing text tree with
  | zero => exact .scalar htext
  | succ depth ih => exact ValueText.mono (fun _ _ => ih) htext

theorem Spells.mono {depth depth' : Nat} {text : List Char} {tree : Tree} (hle : depth ≤ depth')
    (htext : Spells depth text tree) : Spells depth' text tree := by
  induction hle with
  | refl => exact htext
  | step _ ih => exact ih.succ

end TreeQuery.Json
