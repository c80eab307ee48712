import TreeQuery.Proofs.Json.Resolving
import TreeQuery.Proofs.Stream.Passing
import TreeQuery.Stream.Extract

/-!
# Single movements

What each movement of the cursor does on text of which the written form is known: how far it goes, what
it reads, and how the depth changes.
-/

namespace TreeQuery

open Json Text

/-! ### Delimited text -/

/-- What remains of a container after one of its items. -/
inductive RestText {α : Type} (item : List Char → α → Prop) (close : Char) : List Char → List α → Prop
  | close {after : List Char} (hafter : Blank after) : RestText item close (after ++ [close]) []
  | comma {after others : List Char} {as : List α} (hafter : Blank after)
      (hothers : SeparatedText item close others as) : RestText item close (after ++ ',' :: others) as

/-- After white space there is a comma or a closing bracket, as after every item of a container. -/
def FollowsItem (text : List Char) : Prop :=
  ∃ blank c rest, Blank blank ∧ (c = ',' ∨ IsClose c) ∧ text = blank ++ c :: rest

theorem FollowsItem.delimits {text : List Char} (hfollows : FollowsItem text) : Delimits text := by
  obtain ⟨blank, c, rest, hblank, hc, rfl⟩ := hfollows
  refine delimits_of_blank hblank (delimits_cons.mpr ?_)
  rcases hc with rfl | rfl | rfl <;> decide

section Items

variable {α β : Type} {item : List Char → α → Prop} {close : Char}

theorem Json.SeparatedText.exists_first {text : List Char} {as : List α}
    (htext : SeparatedText item close text as) :
    ∃ before first tail a others, Blank before ∧ item first a ∧ RestText item close tail others ∧
      text = before ++ (first ++ tail) ∧ as = a :: others := by
  cases htext with
  | @last before text after a hbefore hitem hafter =>
      exact ⟨before, text, after ++ [close], a, [], hbefore, hitem, .close hafter, by simp, rfl⟩
  | @more before text after others a as hbefore hitem hafter hothers =>
      exact ⟨before, text, after ++ ',' :: others, a, as, hbefore, hitem, .comma hafter hothers, by simp, rfl⟩

theorem RestText.followsItem (hclose : IsClose close) {text : List Char} {as : List α}
    (htext : RestText item close text as) (rest : List Char) : FollowsItem (text ++ rest) := by
  cases htext with
  | close hafter => exact ⟨_, close, rest, hafter, .inr hclose, by simp⟩
  | @comma after others as hafter _ => exact ⟨after, ',', others ++ rest, hafter, .inl rfl, by simp⟩

/-- A loop over text, described by what it gives from each place on, may pass white space and commas. -/
structure Loops (gives : List Char → β → Prop) : Prop where
  blank {blank text : List Char} {b : β} (hblank : Blank blank) (hgives : gives text b) : gives (blank ++ text) b
  comma {text : List Char} {b : β} (hgives : gives text b) : gives (',' :: text) b

/-- A loop takes single items by `gather`. -/
def GathersItems (item : List Char → α → Prop) (gives : List Char → β → Prop) (gather : α → β → β) : Prop :=
  ∀ text a tail b, item text a → FollowsItem tail → gives tail b → gives (text ++ tail) (gather a b)

variable {gives : List Char → β → Prop} {gather : α → β → β}

/-- A loop that passes single items passes all the items of a container. -/
theorem Loops.separated (hloops : Loops gives) (hclose : IsClose close)
    (hitem : GathersItems item gives gather)
    {rest : List Char} {b : β} (hend : gives (close :: rest) b) {text : List Char} {as : List α}
    (htext : SeparatedText item close text as) : gives (text ++ rest) (as.foldr gather b) := by
  -- Blanks and commas cost the loop nothing, so the induction is on the items alone.
  induction htext with
  | @last before text after a hbefore hfirst hafter =>
      have hfollows : FollowsItem (after ++ close :: rest) := ⟨after, close, rest, hafter, .inr hclose, rfl⟩
      have hgives := hloops.blank hbefore (hitem _ _ _ _ hfirst hfollows (hloops.blank hafter hend))
      simpa using hgives
  | @more before text after others a as hbefore hfirst hafter hothers ih =>
      have hfollows : FollowsItem (after ++ ',' :: (others ++ rest)) :=
        ⟨after, ',', others ++ rest, hafter, .inl rfl, rfl⟩
      have hgives := hloops.blank hbefore (hitem _ _ _ _ hfirst hfollows (hloops.blank hafter (hloops.comma ih)))
      simpa using hgives

theorem Loops.items (hloops : Loops gives) (hclose : IsClose close)
    (hitem : GathersItems item gives gather)
    {rest : List Char} {b : β} (hend : gives (close :: rest) b) {text : List Char} {as : List α}
    (htext : ItemsText item close text as) : gives (text ++ rest) (as.foldr gather b) := by
  cases htext with
  | @none blank hblank => simpa using hloops.blank hblank hend
  | some hsome => exact hloops.separated hclose hitem hend hsome

theorem Loops.rest (hloops : Loops gives) (hclose : IsClose close)
    (hitem : GathersItems item gives gather)
    {rest : List Char} {b : β} (hend : gives (close :: rest) b) {text : List Char} {as : List α}
    (htext : RestText item close text as) : gives (text ++ rest) (as.foldr gather b) := by
  cases htext with
  | close hafter => simpa using hloops.blank hafter hend
  | comma hafter hothers =>
      simpa using hloops.blank hafter (hloops.comma (hloops.separated hclose hitem hend hothers))

end Items

theorem Json.ItemsText.exists_trimmed {α : Type} {item : List Char → α → Prop} {close : Char}
    (hopens : ∀ text a, item text a → Opens text) (hclose : IsClose close) {text : List Char} {as : List α}
    (htext : ItemsText item close text as) :
    ∃ text', ItemsText item close text' as ∧
      ∀ rest, skipBlank (text ++ rest) = text' ++ rest ∧ skipBlank (text' ++ rest) = text' ++ rest := by
  cases htext with
  | none hblank =>
      have hskip : ∀ rest, skipBlank (close :: rest) = close :: rest := skipBlank_cons hclose.facts.1
      exact ⟨[close], .none .nil, fun rest => ⟨by rw [List.append_assoc, skipBlank_append hblank]; exact hskip rest,
        hskip rest⟩⟩
  | some hsome =>
      obtain ⟨blank, c, tail, hblank, rfl, hc, -, htrimmed⟩ := hsome.exists_trimmed hopens hclose
      have hskip : ∀ rest, skipBlank (c :: tail ++ rest) = c :: tail ++ rest := fun rest => skipBlank_cons hc _
      exact ⟨c :: tail, .some htrimmed, fun rest => ⟨by rw [List.append_assoc, skipBlank_append hblank, hskip],
        hskip rest⟩⟩

theorem length_skipBlank_le (text : List Char) : (skipBlank text).length ≤ text.length := by
  obtain ⟨blank, -, htext⟩ := exists_blank text
  have hlength := congrArg List.length htext
  rw [List.length_append] at hlength
  omega

def wordTokens : List Token := [.number, .true, .false, .null]

def valueTokens : List Token := .beginObject :: .beginArray :: .string :: wordTokens

theorem Json.ScalarText.quoted_or_word {text : List Char} {tree : Tree} (hscalar : ScalarText text tree) :
    (∃ content quoted, QuotedText content quoted ∧ text = '"' :: quoted) ∨
      ∃ c tail, Token.ofChar c ∈ wordTokens ∧ text = c :: tail := by
  cases hscalar with
  | null => exact .inr ⟨_, _, by decide, rfl⟩
  | true => exact .inr ⟨_, _, by decide, rfl⟩
  | false => exact .inr ⟨_, _, by decide, rfl⟩
  | string hquoted => exact .inl ⟨_, _, hquoted, rfl⟩
  | number hnumber =>
      obtain ⟨c, tail, rfl, hhead⟩ := hnumber.exists_head
      exact .inr ⟨c, tail, by rw [ofChar_of_number hhead]; decide, rfl⟩

theorem Json.ScalarText.ofChar_head {text : List Char} {tree : Tree} (hscalar : ScalarText text tree) :
    ∃ c tail, text = c :: tail ∧ Token.ofChar c ∈ .string :: wordTokens := by
  rcases hscalar.quoted_or_word with ⟨content, quoted, -, rfl⟩ | ⟨c, tail, hmem, rfl⟩
  · exact ⟨'"', quoted, rfl, by decide⟩
  · exact ⟨c, tail, rfl, List.mem_cons_of_mem _ hmem⟩

theorem Json.Spells.token_mem {nesting : Nat} {text : List Char}
    {tree : Tree} (hspells : Spells nesting text tree) (length : Nat) (rest : List Char) (depth : Nat)
    (scope : Option Nat) : Cursor.token ⟨length, text ++ rest, depth, scope⟩ ∈ valueTokens := by
  have hhead : ∃ c tail, text = c :: tail ∧ Token.ofChar c ∈ valueTokens := by
    have hscalar : ScalarText text tree → ∃ c tail, text = c :: tail ∧ Token.ofChar c ∈ valueTokens := by
      intro hscalar
      obtain ⟨c, tail, rfl, hmem⟩ := hscalar.ofChar_head
      exact ⟨c, tail, rfl, List.mem_cons_of_mem _ (List.mem_cons_of_mem _ hmem)⟩
    cases nesting with
    | zero => exact hscalar hspells
    | succ nesting =>
        cases hspells with
        | scalar hspells => exact hscalar hspells
        | array _ => exact ⟨_, _, rfl, by decide⟩
        | object _ => exact ⟨_, _, rfl, by decide⟩
  obtain ⟨c, tail, rfl, hmem⟩ := hhead
  exact hmem

/-- A value is a scalar, or a container whose items may hold one container less. -/
theorem Json.Spells.scalar_or_container {nesting : Nat} {value : List Char} {tree : Tree}
    (hspells : Spells nesting value tree) :
    ScalarText value tree ∨
      (∃ inside inner items, nesting = inside + 1 ∧ value = '[' :: inner ∧ tree = .array items ∧
        ItemsText (Spells inside) ']' inner items) ∨
      ∃ inside inner members, nesting = inside + 1 ∧ value = '\x7b' :: inner ∧ tree = .object members ∧
        ItemsText (MemberText (Spells inside)) '\x7d' inner members := by
  cases nesting with
  | zero => exact .inl hspells
  | succ inside =>
      cases hspells with
      | scalar hscalar => exact .inl hscalar
      | array hitems => exact .inr (.inl ⟨inside, _, _, rfl, rfl, rfl, hitems⟩)
      | object hmembers => exact .inr (.inr ⟨inside, _, _, rfl, rfl, rfl, hmembers⟩)

theorem Json.Opens.length_pos {text : List Char} (hopens : Opens text) : 0 < text.length := by
  obtain ⟨c, tail, rfl, -⟩ := hopens
  simp

namespace Movement

variable {length depth : Nat} {scope : Option Nat} {text rest : List Char}

/-! ### Looking and reading -/

@[simp]
theorem run_token (cursor : Cursor) : token.run cursor = .ok cursor.token cursor := rfl

@[simp]
theorem run_rest (cursor : Cursor) : Movement.rest.run cursor = .ok cursor.rest cursor := rfl

@[simp]
theorem run_moveTo (text : List Char) (cursor : Cursor) :
    (moveTo text).run cursor = .ok () { cursor with rest := skipBlank text } := rfl

@[simp]
theorem token_cons (c : Char) : Cursor.token ⟨length, c :: rest, depth, scope⟩ = Token.ofChar c := rfl

theorem token_ne_of_scalarText {tree : Tree} (hscalar : ScalarText text tree) (token : Token)
    (htoken : token ∉ .string :: wordTokens) : Cursor.token ⟨length, text ++ rest, depth, scope⟩ ≠ token := by
  obtain ⟨c, inner, rfl, hmem⟩ := hscalar.ofChar_head
  exact fun heq => htoken (heq ▸ hmem)

theorem run_valueText {found : List Char × List Char} (hsplit : splitValue text = .ok found) :
    valueText.run ⟨length, text, depth, scope⟩ = .ok found ⟨length, text, depth, scope⟩ := by
  simp [valueText, hsplit]

variable {nesting : Nat} {tree : Tree}

theorem run_skipValue (hspells : Spells nesting text tree) (hrest : Delimits rest) :
    skipValue.run ⟨length, text ++ rest, depth, scope⟩ = .ok () ⟨length, skipBlank rest, depth, scope⟩ := by
  simp [skipValue, run_valueText (hspells.splitValue_append hrest)]

/-- A value is read as what it stands for. -/
theorem run_readValue {found : Tree} (hspells : Spells nesting text tree) (hresolve : resolve? tree = some found)
    (hnesting : nesting ≤ maxDepth) (hrest : Delimits rest) :
    readValue.run ⟨length, text ++ rest, depth, scope⟩ = .ok found ⟨length, skipBlank rest, depth, scope⟩ := by
  have hwritten : parseWritten text = some tree :=
    parseWritten_eq_some_iff.mpr ⟨[], text, [], .nil, .nil, by simp, hspells.mono hnesting⟩
  have hparse : parseChars text = some found := parseChars_eq_some_iff.mpr ⟨tree, hwritten, hresolve⟩
  simp [readValue, run_valueText (hspells.splitValue_append hrest), hparse]

theorem run_readString {content quoted : List Char} (hquoted : QuotedText content quoted) :
    readString.run ⟨length, '"' :: (quoted ++ rest), depth, scope⟩ =
      .ok (String.ofList content) ⟨length, skipBlank rest, depth, scope⟩ := by
  simp [readString, hquoted.splitQuoted_append, hquoted.decodeQuoted_eq]

/-! ### Tokens -/

theorem run_advance_open {c : Char} (hopens : opensContainer c = true) :
    advance.run ⟨length, c :: rest, depth, scope⟩ = .ok () ⟨length, skipBlank rest, depth + 1, scope⟩ := by
  simp only [opensContainer, Bool.or_eq_true, beq_iff_eq] at hopens
  rcases hopens with rfl | rfl <;> simp [advance, Token.ofChar]

theorem run_advance_close {c : Char} (hcloses : closesContainer c = true) :
    advance.run ⟨length, c :: rest, depth, scope⟩ = .ok () ⟨length, skipBlank rest, depth - 1, scope⟩ := by
  simp only [closesContainer, Bool.or_eq_true, beq_iff_eq] at hcloses
  rcases hcloses with rfl | rfl <;> simp [advance, Token.ofChar]

theorem run_advance_separator {c : Char} (hseparator : c = ',' ∨ c = ':') :
    advance.run ⟨length, c :: rest, depth, scope⟩ = .ok () ⟨length, skipBlank rest, depth, scope⟩ := by
  rcases hseparator with rfl | rfl <;> simp [advance, Token.ofChar]

theorem run_eat_of_ne {separator : Token} {cursor : Cursor} (hne : cursor.token ≠ separator) :
    (eat separator).run cursor = .ok false cursor := by
  simp [eat, hne]

theorem run_eat_colon_of_followsItem (hfollows : FollowsItem text) :
    (eat .colon).run ⟨length, skipBlank text, depth, scope⟩ = .ok false ⟨length, skipBlank text, depth, scope⟩ := by
  obtain ⟨blank, c, rest, hblank, hc, rfl⟩ := hfollows
  refine run_eat_of_ne ?_
  rw [skipBlank_append hblank]
  rcases hc with rfl | rfl | rfl <;> rw [skipBlank_cons (by decide)] <;> simp [Token.ofChar]

theorem run_eat_comma :
    (eat .comma).run ⟨length, ',' :: rest, depth, scope⟩ = .ok true ⟨length, skipBlank rest, depth, scope⟩ := by
  simp [eat, Token.ofChar, run_advance_separator]

theorem run_eat_colon :
    (eat .colon).run ⟨length, ':' :: rest, depth, scope⟩ = .ok true ⟨length, skipBlank rest, depth, scope⟩ := by
  simp [eat, Token.ofChar, run_advance_separator]

/-- After an item the next one is reached, or the bracket that closes the container. -/
theorem exists_run_eat_comma {α : Type} {item : List Char → α → Prop} {close : Char} (hclose : IsClose close)
    {text : List Char} {as : List α} (htext : RestText item close text as) (rest : List Char)
    (length depth : Nat) (scope : Option Nat) :
    ∃ isComma text', ItemsText item close text' as ∧ text'.length ≤ text.length ∧
      (eat .comma).run ⟨length, skipBlank (text ++ rest), depth, scope⟩ =
        .ok isComma ⟨length, skipBlank (text' ++ rest), depth, scope⟩ := by
  have hskip : skipBlank (close :: rest) = close :: rest := skipBlank_cons hclose.facts.1 rest
  cases htext with
  | @close after hafter =>
      refine ⟨false, [close], .none .nil, by simp, ?_⟩
      rw [List.append_assoc, skipBlank_append hafter, List.singleton_append, hskip]
      exact run_eat_of_ne (by rcases hclose with rfl | rfl <;> simp [Token.ofChar])
  | @comma after others as hafter hothers =>
      refine ⟨true, others, .some hothers, by simp; omega, ?_⟩
      rw [List.append_assoc, skipBlank_append hafter, List.cons_append, skipBlank_cons (by decide)]
      exact run_eat_comma

theorem run_found (cursor : Cursor) : ∃ kind, kind ≠ Found.nothing ∧ found.run cursor = .ok kind cursor := by
  cases htoken : cursor.token <;> simp [found, htoken]

end Movement

end TreeQuery
