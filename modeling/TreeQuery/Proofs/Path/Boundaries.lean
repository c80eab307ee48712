import TreeQuery.Proofs.Path.Scanning

/-!
# Where reading stops

A reading that starts between two characters ends between two characters, never cuts a character in two, and never runs
out of steps. If it fails, then it names a place between two characters. That is shown for one reading after another,
together with how much each one passes, since the number of steps that are allowed depends on what is left.
-/

namespace TreeQuery

/-- A place between two characters of a text, or at one of its ends. -/
def IsBoundary (text : List Char) (position : Nat) : Prop :=
  ∃ front back, text = front ++ back ∧ position = byteLength front

/-- No cut falls inside a character, and reading always ends. -/
def PathFault.Arises : PathFault → Prop
  | .insideChar | .endless => False
  | _ => True

theorem PathFault.Arises.ne {cause : PathFault} (hcause : cause.Arises) : cause ≠ .insideChar ∧ cause ≠ .endless := by
  constructor <;> rintro rfl <;> exact hcause

/-- No operator that takes no string ever meets one. -/
def UnsupportedFault.Arises : UnsupportedFault → Prop
  | .against _ operand => operand ≠ "a string"
  | _ => True

/-- A fault of the text itself, with a place in it if it is malformed. -/
def Fault.Locates (text : List Char) : Fault → Prop
  | .path cause position => cause.Arises ∧ IsBoundary text position
  | .unsupported cause => cause.Arises
  | _ => False

variable {whole text rest : List Char}

theorem isBoundary_position (hsuffix : text <:+ whole) :
    IsBoundary whole (Scanner.position ⟨byteLength whole, text, 0⟩) := by
  obtain ⟨front, rfl⟩ := hsuffix
  refine ⟨front, text, rfl, ?_⟩
  rw [Scanner.position, byteLength_append]
  simp

/-- A place in a piece of the text, counted from where the piece starts. -/
theorem IsBoundary.shift {front back : List Char} {position : Nat} (hboundary : IsBoundary front position)
    (hsuffix : front ++ back <:+ whole) :
    IsBoundary whole (Scanner.position ⟨byteLength whole, front ++ back, 0⟩ + position) := by
  obtain ⟨before, rfl⟩ := hsuffix
  obtain ⟨left, right, rfl, rfl⟩ := hboundary
  refine ⟨before ++ left, right ++ back, by simp, ?_⟩
  rw [Scanner.position, byteLength_append before, byteLength_append before]
  simp

namespace Scan

section Judgement

variable {α β : Type} {scan : Scan α} {next : α → Scan β} {post mid : α → List Char → Prop}
  {post' : β → List Char → Prop}

/-- The result of a reading that started at `text`: between characters again, with what `post` says of its outcome and
the text that is left, or a fault that names a place between characters. -/
def Ends (whole text : List Char) (post : α → List Char → Prop) : EStateM.Result Fault Scanner α → Prop
  | .ok a s => ∃ rest, s = ⟨byteLength whole, rest, 0⟩ ∧ rest <:+ text ∧ post a rest
  | .error fault _ => fault.Locates whole

/-- How the scan ends, wherever between two characters it starts. -/
def Sound (whole : List Char) (scan : Scan α) (text : List Char) (post : α → List Char → Prop) : Prop :=
  text <:+ whole → Ends whole text post (scan.run ⟨byteLength whole, text, 0⟩)

theorem Ends.imp {result : EStateM.Result Fault Scanner α} (hends : Ends whole rest mid result)
    (hsuffix : rest <:+ text)
    (himp : ∀ a left, left.length ≤ rest.length → mid a left → post a left) : Ends whole text post result := by
  cases result with
  | error fault s => exact hends
  | ok a s =>
      obtain ⟨left, hs, hleft, hmid⟩ := hends
      exact ⟨left, hs, hleft.trans hsuffix, himp a left hleft.length_le hmid⟩

theorem Sound.imp (hscan : Sound whole scan text mid)
    (himp : ∀ a rest, rest.length ≤ text.length → mid a rest → post a rest) : Sound whole scan text post :=
  fun htext => (hscan htext).imp List.suffix_rfl himp

theorem sound_of_run {a : α} (hrun : scan.run ⟨byteLength whole, text, 0⟩ = .ok a ⟨byteLength whole, rest, 0⟩)
    (hsuffix : rest <:+ text) (hpost : post a rest) : Sound whole scan text post := by
  intro _
  rw [hrun]
  exact ⟨rest, rfl, hsuffix, hpost⟩

theorem sound_pure {a : α} (hpost : post a text) : Sound whole (pure a) text post :=
  sound_of_run rfl List.suffix_rfl hpost

theorem Sound.bind (hscan : Sound whole scan text mid)
    (hnext : ∀ a rest, rest.length ≤ text.length → mid a rest → Sound whole (next a) rest post') :
    Sound whole (scan >>= next) text post' := by
  intro htext
  have hfirst := hscan htext
  rw [EStateM.run_bind]
  cases hrun : scan.run ⟨byteLength whole, text, 0⟩ with
  | error fault s =>
      rw [hrun] at hfirst
      exact hfirst
  | ok a s =>
      rw [hrun] at hfirst
      obtain ⟨rest, rfl, hsuffix, hmid⟩ := hfirst
      have hsecond := hnext a rest hsuffix.length_le hmid (hsuffix.trans htext)
      exact hsecond.imp hsuffix fun _ _ _ hpost => hpost

theorem sound_bind_of_run {a : α} (hrun : scan.run ⟨byteLength whole, text, 0⟩ = .ok a ⟨byteLength whole, rest, 0⟩)
    (hsuffix : rest <:+ text) (hnext : Sound whole (next a) rest post') : Sound whole (scan >>= next) text post' := by
  intro htext
  rw [EStateM.run_bind, hrun]
  exact (hnext (hsuffix.trans htext)).imp hsuffix fun _ _ _ hpost => hpost

/-- A step that is left out or not, and what comes after it in both cases. -/
theorem sound_optional {condition : Prop} [Decidable condition] {scan : Scan Unit} {body : Scan β}
    (hscan : Sound whole scan text fun _ _ => True)
    (hbody : ∀ rest, rest.length ≤ text.length → Sound whole body rest post') :
    Sound whole (if condition then scan >>= fun _ => body else body) text post' := by
  split
  · exact hscan.bind fun _ rest hle _ => hbody rest hle
  · exact hbody text (Nat.le_refl _)

/-- The place that is looked up lies in the whole text. -/
theorem sound_get {next : Scanner → Scan β}
    (hnext : text <:+ whole → Sound whole (next ⟨byteLength whole, text, 0⟩) text post') :
    Sound whole (get >>= next) text post' := fun htext => hnext htext htext

theorem sound_failAt {place : List Char} {cause : PathFault} (hplace : place <:+ whole)
    (hcause : cause.Arises) :
    Sound whole (failAt ⟨byteLength whole, place, 0⟩ cause) text post := fun _ =>
  ⟨hcause, isBoundary_position hplace⟩

theorem sound_fail {cause : PathFault} (hcause : cause.Arises) :
    Sound whole (fail cause) text post :=
  sound_get fun htext => sound_failAt htext hcause

theorem sound_fail_bind {cause : PathFault} (hcause : cause.Arises) :
    Sound whole (fail cause >>= next) text post' :=
  have hfail : Sound whole (fail cause) text fun _ _ => False := sound_fail hcause
  hfail.bind fun _ _ _ hfalse => hfalse.elim

theorem sound_unsupported {cause : UnsupportedFault} (hcause : cause.Arises) :
    Sound whole (unsupported cause) text post := fun _ => hcause

theorem sound_unexpectedAt {place : List Char} {otherwise : PathFault} (hplace : place <:+ whole)
    (hcause : otherwise.Arises) :
    Sound whole (unexpectedAt ⟨byteLength whole, place, 0⟩ otherwise) text post := by
  refine sound_get fun _ => ?_
  split
  · exact sound_failAt hplace trivial
  · exact sound_failAt hplace hcause

end Judgement

/-! ### Steps -/

/-- Every ending is good enough. -/
abbrev anyEnd {α : Type} : α → List Char → Prop := fun _ _ => True

/-- Something has been passed of a text of this length. -/
abbrev ShorterThan {α : Type} (length : Nat) : α → List Char → Prop := fun _ rest => rest.length < length

section Looking

variable {β : Type} {post : β → List Char → Prop}

theorem sound_peek? {next : Option Char → Scan β} (hnext : Sound whole (next text.head?) text post) :
    Sound whole (peek? >>= next) text post :=
  sound_bind_of_run (run_peek? _) List.suffix_rfl hnext

theorem sound_atEnd {next : Bool → Scan β} (hnext : Sound whole (next text.isEmpty) text post) :
    Sound whole (atEnd >>= next) text post :=
  sound_bind_of_run (run_atEnd _) List.suffix_rfl hnext

theorem sound_rest {next : List Char → Scan β} (hnext : Sound whole (next text) text post) :
    Sound whole (Scan.rest >>= next) text post :=
  sound_bind_of_run (run_rest _ text) List.suffix_rfl hnext

theorem sound_textFrom {place : List Char} {next : List Char → Scan β}
    (hnext : ∀ found, Sound whole (next found) text post) :
    Sound whole (textFrom ⟨byteLength whole, place, 0⟩ >>= next) text post :=
  sound_bind_of_run rfl List.suffix_rfl (hnext _)

theorem sound_moveTo {next : Unit → Scan β} (hsuffix : rest <:+ text) (hnext : Sound whole (next ()) rest post) :
    Sound whole (moveTo rest >>= next) text post :=
  sound_bind_of_run (run_moveTo rest _) hsuffix hnext

/-- An ASCII character can be passed as a byte. -/
theorem sound_advance_one {c : Char} {next : Unit → Scan β} (hlow : c.toNat < 0x80)
    (hnext : Sound whole (next ()) rest post) : Sound whole (advance 1 >>= next) (c :: rest) post :=
  sound_bind_of_run (by rw [run_advance_cons hlow, run_advance_zero]) (List.suffix_cons c rest) hnext

end Looking

theorem sound_eat (c : Char) :
    Sound whole (eat c) text fun found rest => found = true → rest.length < text.length := by
  cases text with
  | nil => exact sound_of_run rfl List.suffix_rfl fun hfound => Bool.noConfusion hfound
  | cons first text =>
      by_cases heq : first = c
      · rw [heq]
        exact sound_of_run (run_eat_self c) (List.suffix_cons c text) fun _ => Nat.lt_succ_self _
      · have hrun : (eat c).run ⟨byteLength whole, first :: text, 0⟩ =
            .ok false ⟨byteLength whole, first :: text, 0⟩ := run_eat_of_head?_ne (by simpa using heq)
        exact sound_of_run hrun List.suffix_rfl fun hfound => Bool.noConfusion hfound

theorem sound_expect (c : Char) : Sound whole (expect c) text (ShorterThan text.length) := by
  rw [expect]
  refine (sound_eat c).bind fun found rest _ heat => ?_
  cases found with
  | true => exact sound_pure (heat rfl)
  | false => exact sound_get fun _ => sound_fail trivial

theorem sound_skipBlank : Sound whole skipBlank text anyEnd := by
  by_cases hblank : (text.head?.map Text.isBlank).getD false = true
  · have hrun : skipBlank.run ⟨byteLength whole, text, 0⟩ = .ok () ⟨byteLength whole, Text.skipBlank text, 0⟩ := by
      simp [skipBlank, hblank, Scanner.moveTo]
    exact sound_of_run hrun (List.dropWhile_suffix _) trivial
  · have hrun : skipBlank.run ⟨byteLength whole, text, 0⟩ = .ok () ⟨byteLength whole, text, 0⟩ := by
      simp [skipBlank, hblank]
    exact sound_of_run hrun List.suffix_rfl trivial

theorem sound_skipDigits : Sound whole skipDigits text anyEnd := by
  by_cases hdigit : (text.head?.map Char.isDigit).getD false = true
  · have hrun : skipDigits.run ⟨byteLength whole, text, 0⟩ =
        .ok () ⟨byteLength whole, text.dropWhile Char.isDigit, 0⟩ := by
      simp [skipDigits, hdigit, Scanner.moveTo]
    exact sound_of_run hrun (List.dropWhile_suffix _) trivial
  · have hrun : skipDigits.run ⟨byteLength whole, text, 0⟩ = .ok () ⟨byteLength whole, text, 0⟩ := by
      simp [skipDigits, hdigit]
    exact sound_of_run hrun List.suffix_rfl trivial

theorem sound_eatKeyword (word : String) : Sound whole (eatKeyword word) text anyEnd := by
  rw [eatKeyword]
  refine sound_get fun _ => ?_
  split
  · next rest hdrop =>
      have hsuffix : rest <:+ text := by
        simp only [dropKeyword?] at hdrop
        split at hdrop
        · rw [← Option.some.inj hdrop]
          exact List.drop_suffix _ _
        · cases hdrop
      exact sound_moveTo hsuffix (sound_pure trivial)
  · exact sound_pure trivial

section Choices

variable {β : Type} {yes no : Scan β} {post : β → List Char → Prop}

theorem sound_ifEat (c : Char) (hyes : ∀ rest, rest.length < text.length → Sound whole yes rest post)
    (hno : ∀ rest, rest.length ≤ text.length → Sound whole no rest post) :
    Sound whole (eat c >>= fun found => if found = true then yes else no) text post := by
  refine (sound_eat c).bind fun found rest hle heat => ?_
  split
  · next hfound => exact hyes rest (heat hfound)
  · exact hno rest hle

theorem sound_ifKeyword (word : String) (hyes : ∀ rest, rest.length ≤ text.length → Sound whole yes rest post)
    (hno : ∀ rest, rest.length ≤ text.length → Sound whole no rest post) :
    Sound whole (eatKeyword word >>= fun found => if found = true then yes else no) text post := by
  refine (sound_eatKeyword word).bind fun found rest hle _ => ?_
  split
  · exact hyes rest hle
  · exact hno rest hle

end Choices

/-! ### Words -/

theorem splitName_suffix (text : List Char) : (splitName text).2 <:+ text := by
  fun_induction splitName text with
  | case1 => exact List.suffix_rfl
  | case2 => exact List.nil_suffix
  | case3 c rest ih => exact ih.trans ((List.suffix_cons c rest).trans (List.suffix_cons '\\' _))
  | case4 c rest _ _ _ ih => exact ih.trans (List.suffix_cons c rest)
  | case5 c rest => exact List.suffix_rfl

theorem length_splitName {text found : List Char} (hfound : (splitName text).1 = some found) :
    (splitName text).2.length + found.length ≤ text.length := by
  induction text using splitName.induct generalizing found with
  | case1 =>
      cases hfound
      exact Nat.le_refl _
  | case2 => cases hfound
  | case3 c rest ih =>
      rw [splitName_escaped] at hfound ⊢
      obtain ⟨name, hname, rfl⟩ := Option.map_eq_some_iff.mp hfound
      have hlength := ih hname
      simp only [List.length_cons]
      omega
  | case4 c rest _ _ hchar ih =>
      rw [splitName_nameChar hchar] at hfound ⊢
      obtain ⟨name, hname, rfl⟩ := Option.map_eq_some_iff.mp hfound
      have hlength := ih hname
      simp only [List.length_cons]
      omega
  | case5 c rest _ _ hchar =>
      rw [splitName, if_neg hchar] at hfound ⊢
      · cases hfound
        exact Nat.le_refl _
      all_goals assumption

theorem sound_name : Sound whole name text (ShorterThan text.length) := by
  rw [name]
  refine sound_get fun htext => sound_rest ?_
  have hsuffix := splitName_suffix text
  split
  · next hsplit =>
      rw [hsplit] at hsuffix
      exact sound_moveTo hsuffix (sound_fail trivial)
  · exact sound_unexpectedAt htext trivial
  · next found rest hne hsplit =>
      have hlength := length_splitName (congrArg Prod.fst hsplit)
      have hpos := List.length_pos_iff.mpr hne
      simp only [hsplit] at hsuffix hlength
      exact sound_moveTo hsuffix (sound_pure (show rest.length < text.length by omega))

/-- What is left after a quoted string, or where an escape stands that cannot be read. -/
def StringEnds (text : List Char) : Except StringFault (List Char × List Char) → Prop
  | .ok (_, rest) => rest <:+ text
  | .error .unterminated => True
  | .error (.escape cause digits _) => digits <:+ text ∧ cause.Arises

theorem StringEnds.cons {result : Except StringFault (List Char × List Char)} (hends : StringEnds rest result)
    (hsuffix : rest <:+ text) (c : Char) : StringEnds text (result.map fun (found, rest) => (c :: found, rest)) := by
  match result, hends with
  | .ok (_, left), hends => exact List.IsSuffix.trans hends hsuffix
  | .error .unterminated, _ => trivial
  | .error (.escape cause digits left), hends => exact ⟨hends.1.trans hsuffix, hends.2⟩

theorem stringEnds_escapeFault {digits : List Char} (hsuffix : digits <:+ text) :
    StringEnds text (.error (escapeFault digits)) := by
  rw [escapeFault]
  split
  · exact ⟨hsuffix, trivial⟩
  · exact ⟨hsuffix, trivial⟩

theorem stringEnds_splitString (quote : Char) (text : List Char) : StringEnds text (splitString quote text) := by
  fun_induction splitString quote text with
  | case1 => trivial
  | case2 a b c d rest code _ _ ih => exact ih.cons (List.suffix_append ['\\', 'u', a, b, c, d] rest) _
  | case3 a b c d rest => exact ⟨List.suffix_append ['\\', 'u'] _, trivial⟩
  | case4 a b c d rest => exact stringEnds_escapeFault (List.suffix_append ['\\', 'u'] _)
  | case5 rest => exact stringEnds_escapeFault (List.suffix_append ['\\', 'u'] _)
  | case6 c rest _ _ ih => exact ih.cons (List.suffix_append ['\\', c] rest) _
  | case7 rest => exact List.suffix_cons quote rest
  | case8 => trivial
  | case9 c rest _ _ _ _ _ ih => exact ih.cons (List.suffix_cons c rest) c

theorem sound_string : Sound whole string text anyEnd := by
  rw [string]
  refine sound_get fun htext => ?_
  cases text with
  | nil => exact sound_bind_of_run (run_advance_zero _ []) List.suffix_rfl (sound_failAt htext trivial)
  | cons quote text =>
      cases hquote : isQuote quote with
      | false =>
          -- The byte that is passed may be the first of several, but nothing is cut out any more.
          simp only [List.head?_cons, hquote, Bool.false_eq_true, if_false]
          exact fun _ => ⟨trivial, isBoundary_position htext⟩
      | true =>
          have hlow : quote.toNat < 0x80 := Nat.lt_of_not_le (not_isHigh_of_isQuote hquote)
          have hends := stringEnds_splitString quote text
          simp only [List.head?_cons, hquote, if_true]
          refine sound_advance_one hlow (sound_rest ?_)
          split
          · next found rest hsplit =>
              rw [hsplit] at hends
              exact sound_moveTo hends (sound_pure trivial)
          · exact sound_moveTo (List.nil_suffix) (sound_failAt htext trivial)
          · next cause digits rest hsplit =>
              rw [hsplit] at hends
              obtain ⟨hdigits, hcause⟩ := hends
              have hplace := (hdigits.trans (List.suffix_cons quote text)).trans htext
              exact fun _ => ⟨hcause, isBoundary_position hplace⟩

theorem splitFraction_suffix (text : List Char) : (splitFraction text).2 <:+ text := by
  rw [splitFraction.eq_def]
  split
  · split
    · exact (List.dropWhile_suffix _).trans (List.suffix_cons '.' _)
    · exact List.suffix_rfl
  · exact List.suffix_rfl

theorem splitExponent_suffix (text : List Char) : (splitExponent text).2 <:+ text := by
  rw [splitExponent.eq_def]
  split
  · next mark c rest =>
      simp only
      split
      · exact (List.dropWhile_suffix _).trans (List.suffix_append [mark, c] rest)
      · exact List.suffix_rfl
  · exact List.suffix_rfl

theorem splitSign_suffix (text : List Char) : (splitSign text).2 <:+ text := by
  rw [splitSign.eq_def]
  split
  · exact List.suffix_cons '-' _
  · exact List.suffix_cons '+' _
  · exact List.suffix_rfl

theorem splitNumber_suffix (text : List Char) : (splitNumber text).rest <:+ text :=
  (splitExponent_suffix _).trans
    ((splitFraction_suffix _).trans ((List.dropWhile_suffix _).trans (splitSign_suffix text)))

theorem sound_number : Sound whole number text anyEnd := by
  rw [number]
  refine sound_get fun htext => ?_
  have hmove : Sound whole (moveTo (splitNumber text).rest) text anyEnd :=
    sound_of_run (run_moveTo _ _) (splitNumber_suffix text) trivial
  refine sound_optional hmove fun rest _ => ?_
  split
  · exact sound_failAt htext trivial
  · refine sound_textFrom fun written => ?_
    split
    · exact sound_pure trivial
    · exact sound_failAt htext trivial

theorem splitRegex_suffix {text source rest : List Char} (hsplit : splitRegex text = some (source, rest)) :
    rest <:+ text := by
  fun_induction splitRegex text generalizing source rest with
  | case1 => cases hsplit
  | case2 c text ih =>
      obtain ⟨⟨found, left⟩, hfound, heq⟩ := Option.map_eq_some_iff.mp hsplit
      cases heq
      exact (ih hfound).trans (List.suffix_append ['\\', c] text)
  | case3 text =>
      cases hsplit
      exact List.suffix_cons '/' _
  | case4 c text _ _ ih =>
      obtain ⟨⟨found, left⟩, hfound, heq⟩ := Option.map_eq_some_iff.mp hsplit
      cases heq
      exact (ih hfound).trans (List.suffix_cons c text)

theorem sound_regex : Sound whole regex text anyEnd := by
  rw [regex]
  refine sound_get fun htext => (sound_expect '/').bind fun _ body _ _ => sound_rest ?_
  split
  · next source rest hsplit =>
      refine sound_moveTo (splitRegex_suffix hsplit) ((sound_eat 'i').bind fun _ _ _ _ => sound_pure trivial)
  · exact sound_moveTo List.nil_suffix (sound_failAt htext trivial)

theorem sound_textUntil {close : Char} (hclose : ¬IsHigh close) : Sound whole (textUntil close) text anyEnd := by
  intro htext
  rw [run_textUntil_eq hclose]
  split
  · exact ⟨trivial, isBoundary_position htext⟩
  · refine ⟨_, rfl, ⟨(splitOutside (· == close) 0 none text).1, ?_⟩, trivial⟩
    exact append_splitOutside _ 0 none text

/-! ### Readings that note references -/

section Parsing

variable {α β : Type} {scan : Scan α} {action : Parse α} {next : α → Parse β} {refers : Bool}
  {post : α → List Char → Prop} {noted : α → Bool → List Char → Prop} {noted' : β → Bool → List Char → Prop}

/-- As `Ends`, where what is said of the outcome is also about whether references have been noted by then. -/
def ParseEnds (whole text : List Char) (noted : α → Bool → List Char → Prop) : EStateM.Result Fault Parser α → Prop
  | .ok a parser =>
    ∃ rest, parser.scanner = ⟨byteLength whole, rest, 0⟩ ∧ rest <:+ text ∧ noted a parser.refers rest
  | .error fault _ => fault.Locates whole

def SoundParse (whole : List Char) (action : Parse α) (text : List Char) (refers : Bool)
    (noted : α → Bool → List Char → Prop) : Prop :=
  text <:+ whole → ParseEnds whole text noted (action.run ⟨⟨byteLength whole, text, 0⟩, refers⟩)

theorem soundParse_pure {a : α} (hnoted : noted a refers text) : SoundParse whole (pure a) text refers noted :=
  fun _ => ⟨text, rfl, List.suffix_rfl, hnoted⟩

theorem SoundParse.bind (haction : SoundParse whole action text refers noted)
    (hnext : ∀ a refers' rest, rest.length ≤ text.length → noted a refers' rest →
      SoundParse whole (next a) rest refers' noted') :
    SoundParse whole (action >>= next) text refers noted' := by
  intro htext
  have hfirst := haction htext
  rw [EStateM.run_bind]
  cases hrun : action.run ⟨⟨byteLength whole, text, 0⟩, refers⟩ with
  | error fault parser =>
      rw [hrun] at hfirst
      exact hfirst
  | ok a parser =>
      rw [hrun] at hfirst
      obtain ⟨s, refers'⟩ := parser
      obtain ⟨rest, rfl, hsuffix, hnoted⟩ := hfirst
      have hsecond := hnext a refers' rest hsuffix.length_le hnoted (hsuffix.trans htext)
      dsimp only
      generalize (next a).run ⟨⟨byteLength whole, rest, 0⟩, refers'⟩ = result at hsecond ⊢
      cases result with
      | error fault parser => exact hsecond
      | ok b parser =>
          obtain ⟨left, hleft, hends, hpost⟩ := hsecond
          exact ⟨left, hleft, hends.trans hsuffix, hpost⟩

/-- Nothing is noted while the scanner reads on its own. -/
theorem Sound.parse (hscan : Sound whole scan text post)
    (hnoted : ∀ a rest, rest.length ≤ text.length → post a rest → noted a refers rest) :
    SoundParse whole (liftM scan) text refers noted := by
  intro htext
  have hends := hscan htext
  rw [run_parse]
  cases hrun : scan.run ⟨byteLength whole, text, 0⟩ with
  | error fault s =>
      rw [hrun] at hends
      exact hends
  | ok a s =>
      rw [hrun] at hends
      obtain ⟨rest, rfl, hsuffix, hpost⟩ := hends
      exact ⟨rest, rfl, hsuffix, hnoted a rest hsuffix.length_le hpost⟩

theorem Sound.parse_bind (hscan : Sound whole scan text post)
    (hnext : ∀ a rest, rest.length ≤ text.length → post a rest → SoundParse whole (next a) rest refers noted') :
    SoundParse whole (liftM scan >>= next) text refers noted' := by
  have hparse : SoundParse whole (liftM scan) text refers fun a refers' rest => post a rest ∧ refers' = refers :=
    hscan.parse fun _ _ _ hpost => ⟨hpost, rfl⟩
  refine hparse.bind fun a refers' rest hle hnoted => ?_
  rw [hnoted.2]
  exact hnext a rest hle hnoted.1

theorem soundParse_bind_of_run {a : α}
    (hrun : scan.run ⟨byteLength whole, text, 0⟩ = .ok a ⟨byteLength whole, rest, 0⟩) (hsuffix : rest <:+ text)
    (hnext : SoundParse whole (next a) rest refers noted') :
    SoundParse whole (liftM scan >>= next) text refers noted' := by
  have hscan : Sound whole scan text fun found left => found = a ∧ left = rest :=
    sound_of_run hrun hsuffix ⟨rfl, rfl⟩
  refine hscan.parse_bind fun found left _ hfound => ?_
  rw [hfound.1, hfound.2]
  exact hnext

theorem soundParse_get {next : Parser → Parse β}
    (hnext : text <:+ whole → SoundParse whole (next ⟨⟨byteLength whole, text, 0⟩, refers⟩) text refers noted') :
    SoundParse whole (get >>= next) text refers noted' := fun htext => hnext htext htext

theorem soundParse_peek? {next : Option Char → Parse β}
    (hnext : SoundParse whole (next text.head?) text refers noted') :
    SoundParse whole (liftM peek? >>= next) text refers noted' :=
  soundParse_bind_of_run (run_peek? _) List.suffix_rfl hnext

theorem soundParse_atEnd {next : Bool → Parse β} (hnext : SoundParse whole (next text.isEmpty) text refers noted') :
    SoundParse whole (liftM atEnd >>= next) text refers noted' :=
  soundParse_bind_of_run (run_atEnd _) List.suffix_rfl hnext

theorem soundParse_advance_one {c : Char} {next : Unit → Parse β} (hlow : c.toNat < 0x80)
    (hnext : SoundParse whole (next ()) rest refers noted') :
    SoundParse whole (liftM (advance 1) >>= next) (c :: rest) refers noted' :=
  soundParse_bind_of_run (by rw [run_advance_cons hlow, run_advance_zero]) (List.suffix_cons c rest) hnext

theorem soundParse_ifEat {yes no : Parse β} (c : Char)
    (hyes : ∀ rest, rest.length < text.length → SoundParse whole yes rest refers noted')
    (hno : ∀ rest, rest.length ≤ text.length → SoundParse whole no rest refers noted') :
    SoundParse whole (liftM (eat c) >>= fun found => if found = true then yes else no) text refers noted' := by
  refine (sound_eat c).parse_bind fun found rest hle heat => ?_
  split
  · next hfound => exact hyes rest (heat hfound)
  · exact hno rest hle

end Parsing

end Scan

end TreeQuery
