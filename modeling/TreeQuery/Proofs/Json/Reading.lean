import TreeQuery.Proofs.Json.ScalarReading

/-!
# Reading JSON text

Reader and grammar agree on values of any nesting. Both are built from the forms of the parts, so the
agreement is carried from the parts to the whole, one level of nesting at a time.
-/

namespace TreeQuery.Json

open Text

/-! ### White space -/

theorem skipBlank_append {blank : List Char} (hblank : Blank blank) (text : List Char) :
    skipBlank (blank ++ text) = skipBlank text :=
  List.dropWhile_append_of_pos hblank

theorem skipBlank_of_blank {blank : List Char} (hblank : Blank blank) : skipBlank blank = [] := by
  simpa [skipBlank] using skipBlank_append hblank []

theorem skipBlank_cons {c : Char} (hblank : isBlank c = false) (text : List Char) :
    skipBlank (c :: text) = c :: text :=
  List.dropWhile_cons_of_neg (by simp [hblank])

theorem exists_blank (text : List Char) : ∃ blank, Blank blank ∧ text = blank ++ skipBlank text :=
  ⟨text.takeWhile isBlank, List.all_eq_true.mp List.all_takeWhile, List.takeWhile_append_dropWhile.symm⟩

theorem endsNumber_cons_of_isBlank {c : Char} (hblank : isBlank c = true) (text : List Char) :
    EndsNumber (c :: text) := by
  simp only [isBlank, Bool.or_eq_true, beq_iff_eq] at hblank
  rw [endsNumber_cons]
  rcases hblank with ((rfl | rfl) | rfl) | rfl <;> decide

theorem EndsNumber.blank_append {blank rest : List Char} (hblank : Blank blank) (hrest : EndsNumber rest) :
    EndsNumber (blank ++ rest) := by
  cases blank with
  | nil => exact hrest
  | cons c blank => exact endsNumber_cons_of_isBlank (hblank c (by simp)) _

/-! ### Lists of items -/

/-- A reader of items that skips white space and then reads exactly the given forms. -/
structure ReadsExactly {α : Type} (item : List Char → Option (α × List Char))
    (form : List Char → α → Prop) : Prop where
  complete {blank text rest : List Char} {a : α} (hblank : Blank blank) (hform : form text a)
    (hrest : EndsNumber rest) : item (blank ++ text ++ rest) = some (a, rest)
  sound {text rest : List Char} {a : α} (hread : item text = some (a, rest)) :
    ∃ blank written, Blank blank ∧ text = blank ++ written ++ rest ∧ form written a

/-- The text starts with a character that is neither white space nor a separator or closing bracket. -/
def Opens (text : List Char) : Prop :=
  ∃ c tail, text = c :: tail ∧ isBlank c = false ∧ c ≠ ',' ∧ c ≠ ']' ∧ c ≠ '\x7d'

def IsClose (c : Char) : Prop := c = ']' ∨ c = '\x7d'

theorem IsClose.facts {close : Char} (hclose : IsClose close) :
    isBlank close = false ∧ close ≠ ',' ∧ ∀ rest, EndsNumber (close :: rest) := by
  rcases hclose with rfl | rfl <;>
    exact ⟨by decide, by decide, fun rest => endsNumber_cons.mpr (by decide)⟩

section Items

variable {α : Type} {item : List Char → Option (α × List Char)} {form : List Char → α → Prop} {close : Char}

theorem SeparatedText.exists_trimmed (hopens : ∀ text a, form text a → Opens text)
    (hclose : IsClose close) {text : List Char} {as : List α} (htext : SeparatedText form close text as) :
    ∃ blank c tail, Blank blank ∧ text = blank ++ c :: tail ∧ isBlank c = false ∧ c ≠ close ∧
      SeparatedText form close (c :: tail) as := by
  have hne : ∀ c, c ≠ ']' → c ≠ '\x7d' → c ≠ close := by
    rintro c hbracket hbrace rfl
    exact hclose.elim hbracket hbrace
  cases htext with
  | @last before text after a hbefore hitem hafter =>
      obtain ⟨c, tail, rfl, hblank, -, hbracket, hbrace⟩ := hopens _ _ hitem
      refine ⟨before, c, tail ++ after ++ [close], hbefore, by simp, hblank, hne c hbracket hbrace, ?_⟩
      simpa using (SeparatedText.last Blank.nil hitem hafter : SeparatedText form close _ _)
  | @more before text after others a as hbefore hitem hafter hothers =>
      obtain ⟨c, tail, rfl, hblank, -, hbracket, hbrace⟩ := hopens _ _ hitem
      refine ⟨before, c, tail ++ after ++ ',' :: others, hbefore, by simp, hblank, hne c hbracket hbrace, ?_⟩
      simpa using SeparatedText.more Blank.nil hitem hafter hothers

theorem ReadsExactly.readSeparated_append (hreads : ReadsExactly item form) (hclose : IsClose close)
    {text : List Char} {as : List α} (htext : SeparatedText form close text as) (rest : List Char)
    (bound : List Char) (hbound : (text ++ rest).length ≤ bound.length) :
    readSeparated item close bound (text ++ rest) = some (as, rest) := by
  obtain ⟨hblank, hcomma, hends⟩ := hclose.facts
  induction htext generalizing bound with
  | @last before text after a hbefore hitem hafter =>
      have hread := hreads.complete hbefore hitem ((hends rest).blank_append hafter)
      obtain ⟨b, bound, rfl⟩ : ∃ b bound', bound = b :: bound' :=
        List.exists_cons_of_length_pos (by simp at hbound; omega)
      simp only [List.append_assoc, List.singleton_append] at hread ⊢
      rw [readSeparated, hread]
      simp [skipBlank_append hafter, skipBlank_cons hblank]
  | @more before text after others a as hbefore hitem hafter hothers ih =>
      have hends' : EndsNumber (after ++ ',' :: (others ++ rest)) :=
        .blank_append hafter (endsNumber_cons.mpr (by decide))
      have hread := hreads.complete hbefore hitem hends'
      obtain ⟨b, bound, rfl⟩ : ∃ b bound', bound = b :: bound' :=
        List.exists_cons_of_length_pos (by simp at hbound; omega)
      have hothers := ih bound (by simp at hbound ⊢; omega)
      simp only [List.append_assoc, List.cons_append] at hread hothers ⊢
      rw [readSeparated, hread]
      simp [skipBlank_append hafter, skipBlank_cons (show isBlank ',' = false by decide), hothers]

theorem ReadsExactly.exists_separatedText (hreads : ReadsExactly item form) {bound text rest : List Char}
    {as : List α} (hread : readSeparated item close bound text = some (as, rest)) :
    ∃ written, text = written ++ rest ∧ SeparatedText form close written as := by
  induction bound generalizing text as with
  | nil => cases hread
  | cons b bound ih =>
      simp only [readSeparated, Option.bind_eq_bind, Option.bind_eq_some_iff] at hread
      obtain ⟨⟨a, rest₁⟩, hitem, hread⟩ := hread
      obtain ⟨before, written, hbefore, rfl, hform⟩ := hreads.sound hitem
      obtain ⟨after, hafter, hrest₁⟩ := exists_blank rest₁
      dsimp only at hread
      split at hread
      · next tail hskip =>
        simp only [Option.bind_eq_some_iff, Option.pure_def, Option.some.injEq, Prod.mk.injEq] at hread
        obtain ⟨⟨others, rest₂⟩, hread, rfl, rfl⟩ := hread
        obtain ⟨writtenOthers, rfl, hothers⟩ := ih hread
        rw [hrest₁, hskip]
        exact ⟨before ++ written ++ after ++ ',' :: writtenOthers, by simp, .more hbefore hform hafter hothers⟩
      · next c tail _ hskip =>
        split at hread
        · next heq =>
          subst heq
          cases hread
          rw [hrest₁, hskip]
          exact ⟨before ++ written ++ after ++ [c], by simp, .last hbefore hform hafter⟩
        · cases hread
      · cases hread

theorem ReadsExactly.readItems_append (hreads : ReadsExactly item form)
    (hopens : ∀ text a, form text a → Opens text) (hclose : IsClose close) {text : List Char} {as : List α}
    (htext : ItemsText form close text as) (rest : List Char) :
    readItems item close (text ++ rest) = some (as, rest) := by
  cases htext with
  | none hblank =>
      rw [readItems, List.append_assoc, skipBlank_append hblank, List.singleton_append,
        skipBlank_cons hclose.facts.1]
      simp
  | some hsome =>
      obtain ⟨blank, c, tail, hblank, rfl, hc, hne, htrimmed⟩ := hsome.exists_trimmed hopens hclose
      have hread := hreads.readSeparated_append hclose htrimmed rest (c :: tail ++ rest) (Nat.le_refl _)
      rw [readItems, List.append_assoc, skipBlank_append hblank, List.cons_append, skipBlank_cons hc]
      simpa [hne] using hread

theorem ReadsExactly.exists_itemsText (hreads : ReadsExactly item form) {text rest : List Char} {as : List α}
    (hread : readItems item close text = some (as, rest)) :
    ∃ written, text = written ++ rest ∧ ItemsText form close written as := by
  obtain ⟨blank, hblank, htext⟩ := exists_blank text
  rw [readItems] at hread
  split at hread
  · next c tail hskip =>
    rw [htext, hskip]
    split at hread
    · next heq =>
      subst heq
      cases hread
      exact ⟨blank ++ [c], by simp, .none hblank⟩
    · obtain ⟨written, hwritten, hsome⟩ := hreads.exists_separatedText hread
      rw [hwritten]
      refine ⟨blank ++ written, by simp, .some ?_⟩
      cases hsome with
      | last hbefore hitem hafter =>
          simpa using (SeparatedText.last (hblank.append hbefore) hitem hafter : SeparatedText form close _ _)
      | more hbefore hitem hafter hothers =>
          simpa using SeparatedText.more (Blank.append hblank hbefore) hitem hafter hothers
  · cases hread

end Items

/-! ### Values -/

theorem opens_of_ne {c : Char} {tail : List Char}
    (hc : isBlank c = false ∧ c ≠ ',' ∧ c ≠ ']' ∧ c ≠ '\x7d') : Opens (c :: tail) :=
  ⟨c, tail, rfl, hc⟩

theorem opens_of_number {c : Char} {tail : List Char} (hhead : c.isDigit = true ∨ c = '-') :
    Opens (c :: tail) := by
  refine opens_of_ne ⟨Bool.eq_false_iff.mpr fun hblank => ?_, ?_, ?_, ?_⟩
  · simp only [isBlank, Bool.or_eq_true, beq_iff_eq] at hblank
    rcases hblank with ((rfl | rfl) | rfl) | rfl <;> revert hhead <;> decide
  all_goals
    rintro rfl
    revert hhead
    decide

theorem ScalarText.opens {text : List Char} {tree : Tree} (hscalar : ScalarText text tree) : Opens text := by
  cases hscalar with
  | null => exact opens_of_ne (by decide)
  | true => exact opens_of_ne (by decide)
  | false => exact opens_of_ne (by decide)
  | string _ => exact opens_of_ne (by decide)
  | number hnumber =>
      obtain ⟨c, tail, rfl, hhead⟩ := hnumber.exists_head
      exact opens_of_number hhead

theorem MemberText.opens {value : List Char → Tree → Prop} {text : List Char} {member : String × Tree}
    (hmember : MemberText value text member) : Opens text := by
  cases hmember with
  | mk _ _ _ _ => exact opens_of_ne (by decide)

theorem ValueText.opens {value : List Char → Tree → Prop} {text : List Char} {tree : Tree}
    (htext : ValueText value text tree) : Opens text := by
  cases htext with
  | scalar hscalar => exact hscalar.opens
  | array _ => exact opens_of_ne (by decide)
  | object _ => exact opens_of_ne (by decide)

theorem Spells.opens {depth : Nat} {text : List Char} {tree : Tree} (htext : Spells depth text tree) :
    Opens text := by
  cases depth with
  | zero => exact ScalarText.opens htext
  | succ depth => exact ValueText.opens htext

theorem Opens.skipBlank_append {text : List Char} (hopens : Opens text) (rest : List Char) :
    skipBlank (text ++ rest) = text ++ rest := by
  obtain ⟨c, tail, rfl, hblank, -⟩ := hopens
  exact skipBlank_cons hblank (tail ++ rest)

theorem ReadsExactly.member {read : List Char → Option (Tree × List Char)} {value : List Char → Tree → Prop}
    (hreads : ReadsExactly read value) : ReadsExactly (readMember read) (MemberText value) where
  complete := by
    intro blank text rest member hblank hform hrest
    cases hform with
    | @mk content key before after text tree hkey hbefore hafter hvalue =>
        have hread := hreads.complete hafter hvalue hrest
        simp only [List.append_assoc, List.cons_append] at hread ⊢
        rw [readMember, Json.skipBlank_append hblank, skipBlank_cons (by decide)]
        simp only [hkey.readString_append, Option.bind_eq_bind, Option.bind_some,
          Json.skipBlank_append hbefore, skipBlank_cons (show isBlank ':' = false by decide), hread]
        rfl
  sound := by
    intro text rest member hread
    obtain ⟨blank, hblank, htext⟩ := exists_blank text
    rw [readMember] at hread
    split at hread
    · next tail hskip =>
      simp only [Option.bind_eq_bind, Option.bind_eq_some_iff] at hread
      obtain ⟨⟨content, rest₁⟩, hkey, hread⟩ := hread
      obtain ⟨key, rfl, hquoted⟩ := exists_quotedText hkey
      obtain ⟨before, hbefore, hrest₁⟩ := exists_blank rest₁
      dsimp only at hread
      split at hread
      · next tail hcolon =>
        simp only [Option.bind_eq_some_iff, Option.pure_def, Option.some.injEq, Prod.mk.injEq] at hread
        obtain ⟨⟨tree, rest₂⟩, hvalue, rfl, rfl⟩ := hread
        obtain ⟨after, written, hafter, rfl, hform⟩ := hreads.sound hvalue
        rw [htext, hskip, hrest₁, hcolon]
        exact ⟨blank, '"' :: key ++ before ++ ':' :: (after ++ written), hblank, by simp,
          .mk hquoted hbefore hafter hform⟩
      · cases hread
    · cases hread

theorem readWritten_succ_of_scalar {text : List Char} {tree : Tree} (hscalar : ScalarText text tree)
    (depth : Nat) (rest : List Char) :
    readWritten (depth + 1) (text ++ rest) = readScalar (text ++ rest) := by
  have hskip := hscalar.opens.skipBlank_append rest
  rw [readWritten, hskip]
  split
  all_goals first
    | rfl
    | next heq =>
      cases hscalar with
      | number hnumber =>
          obtain ⟨c, tail, rfl, hhead⟩ := hnumber.exists_head
          cases heq
          exact absurd hhead (by decide)
      | _ => cases heq

theorem readsExactly_readWritten (depth : Nat) : ReadsExactly (readWritten depth) (Spells depth) := by
  -- Both directions go down together: items are read by the reader of one level less.
  induction depth with
  | zero =>
      refine ⟨fun hblank hform hrest => ?_, fun {text} _ _ hread => ?_⟩
      · rw [readWritten, List.append_assoc, Json.skipBlank_append hblank,
          (ScalarText.opens hform).skipBlank_append]
        exact ScalarText.readScalar_append hform hrest
      · obtain ⟨blank, hblank, htext⟩ := exists_blank text
        obtain ⟨written, hwritten, hscalar⟩ := exists_scalarText hread
        refine ⟨blank, written, hblank, ?_, hscalar⟩
        rw [List.append_assoc, ← hwritten]
        exact htext
  | succ depth ih =>
      have hopens : ∀ text tree, Spells depth text tree → Opens text := fun _ _ => Spells.opens
      have hopens' : ∀ text member, MemberText (Spells depth) text member → Opens text :=
        fun _ _ => MemberText.opens
      refine ⟨fun {blank _ _ _} hblank hform hrest => ?_, fun {text _ _} hread => ?_⟩
      · rw [List.append_assoc]
        have hskip : ∀ text, readWritten (depth + 1) (blank ++ text) =
            readWritten (depth + 1) text := by
          intro text
          simp only [readWritten, Json.skipBlank_append hblank]
        rw [hskip]
        cases hform with
        | scalar hscalar =>
            rw [readWritten_succ_of_scalar hscalar]
            exact hscalar.readScalar_append hrest
        | array hitems =>
            simp only [readWritten, List.cons_append, skipBlank_cons (show isBlank '[' = false by decide)]
            rw [ih.readItems_append hopens (.inl rfl) hitems]
            rfl
        | object hmembers =>
            simp only [readWritten, List.cons_append, skipBlank_cons (show isBlank '\x7b' = false by decide)]
            rw [ih.member.readItems_append hopens' (.inr rfl) hmembers]
            rfl
      · obtain ⟨blank, hblank, htext⟩ := exists_blank text
        rw [readWritten] at hread
        split at hread
        · next tail hskip =>
          simp only [Option.map_eq_some_iff, Prod.mk.injEq] at hread
          obtain ⟨⟨items, rest⟩, hread, rfl, rfl⟩ := hread
          obtain ⟨written, rfl, hitems⟩ := ih.exists_itemsText hread
          rw [htext, hskip]
          exact ⟨blank, '[' :: written, hblank, by simp, .array hitems⟩
        · next tail hskip =>
          simp only [Option.map_eq_some_iff, Prod.mk.injEq] at hread
          obtain ⟨⟨members, rest⟩, hread, rfl, rfl⟩ := hread
          obtain ⟨written, rfl, hmembers⟩ := ih.member.exists_itemsText hread
          rw [htext, hskip]
          exact ⟨blank, '\x7b' :: written, hblank, by simp, .object hmembers⟩
        · obtain ⟨written, hwritten, hscalar⟩ := exists_scalarText hread
          rw [htext, hwritten]
          exact ⟨blank, written, hblank, by simp, .scalar hscalar⟩

/-! ### Whole texts -/

/-- A text is read as the value of which it is a written form, with white space around it. -/
theorem parseWritten_eq_some_iff {text : List Char} {tree : Tree} :
    parseWritten text = some tree ↔
      ∃ before written after, Blank before ∧ Blank after ∧ text = before ++ written ++ after ∧
        Spells maxDepth written tree := by
  have hreads := readsExactly_readWritten maxDepth
  constructor
  · intro hparse
    simp only [parseWritten, Option.bind_eq_bind, Option.bind_eq_some_iff] at hparse
    obtain ⟨⟨tree', after⟩, hread, hparse⟩ := hparse
    obtain ⟨before, written, hbefore, rfl, hspells⟩ := hreads.sound hread
    obtain ⟨blank, hblank, hafter⟩ := exists_blank after
    dsimp only at hparse
    split at hparse
    · next hempty =>
      cases hparse
      rw [List.isEmpty_iff.mp hempty, List.append_nil] at hafter
      rw [hafter]
      exact ⟨before, written, blank, hbefore, hblank, rfl, hspells⟩
    · cases hparse
  · rintro ⟨before, written, after, hbefore, hafter, rfl, hspells⟩
    have hends : EndsNumber (after ++ []) := .blank_append hafter (by simp [EndsNumber])
    rw [List.append_nil] at hends
    have hread := hreads.complete hbefore hspells hends
    rw [List.append_assoc] at hread ⊢
    simp [parseWritten, hread, skipBlank_of_blank hafter]

end TreeQuery.Json
