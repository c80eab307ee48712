import TreeQuery.Proofs.Stream.ByteCursor

/-!
# Bytes mirror characters

What the cursor does among the characters, the one over bytes does at the same places, without ever breaking off. This
is a judgement on pairs of movements that is kept when they are put together. It counts the characters that are passed,
for the sake of loops: where each round but the last passes at least one, there are enough rounds for every loop.
-/

namespace TreeQuery

open Text

namespace Cursor

variable {text : List Char} {cursor next last : Cursor} {used used' : Nat}

/-- The cursor as an index into the bytes of the text. -/
def toBytes (text : List Char) (cursor : Cursor) : ByteCursor :=
  ⟨bytesOf text, cursor.position, cursor.depth, cursor.deepScope⟩

/-- The cursor stands somewhere in the text. -/
structure In (text : List Char) (cursor : Cursor) : Prop where
  length_eq : cursor.length = byteLength text
  suffix : cursor.rest <:+ text

/-- The next cursor stands in the same text, at least `used` characters further on. -/
structure Passes (used : Nat) (cursor next : Cursor) : Prop where
  length_eq : next.length = cursor.length
  suffix : next.rest <:+ cursor.rest
  le : next.rest.length + used ≤ cursor.rest.length

theorem Passes.refl (cursor : Cursor) : Passes 0 cursor cursor := ⟨rfl, List.suffix_refl _, Nat.le_refl _⟩

theorem Passes.trans (hnext : Passes used cursor next) (hlast : Passes used' next last) :
    Passes (used + used') cursor last := by
  refine ⟨hlast.length_eq.trans hnext.length_eq, hlast.suffix.trans hnext.suffix, ?_⟩
  have hle := hnext.le
  have hle' := hlast.le
  omega

theorem Passes.mono (hnext : Passes used cursor next) (hle : used' ≤ used) : Passes used' cursor next :=
  ⟨hnext.length_eq, hnext.suffix, Nat.le_trans (Nat.add_le_add_left hle _) hnext.le⟩

theorem In.passes (hin : In text cursor) (hnext : Passes used cursor next) : In text next :=
  ⟨hnext.length_eq.trans hin.length_eq, hnext.suffix.trans hin.suffix⟩

theorem length_le_byteLength (text : List Char) : text.length ≤ byteLength text := by
  induction text with
  | nil => exact Nat.le_refl 0
  | cons c text ih =>
      have hsize := c.utf8Size_pos
      rw [List.length_cons, byteLength_cons]
      omega

theorem In.byteLength_rest_le (hin : In text cursor) : byteLength cursor.rest ≤ cursor.length := by
  obtain ⟨front, rfl⟩ := hin.suffix
  rw [hin.length_eq, byteLength_append]
  exact Nat.le_add_left _ _

theorem In.position_le (hin : In text cursor) : cursor.position ≤ byteLength text := by
  rw [← hin.length_eq]
  exact Nat.sub_le _ _

/-- Who passes characters passes bytes. -/
theorem In.position_add_le (hin : In text cursor) (hnext : Passes used cursor next) :
    cursor.position + used ≤ next.position := by
  obtain ⟨piece, hpiece⟩ := hnext.suffix
  have hle := hnext.le
  have hbytes := length_le_byteLength piece
  have hroom := hin.byteLength_rest_le
  unfold position
  rw [hnext.length_eq]
  rw [← hpiece, List.length_append] at hle
  rw [← hpiece, byteLength_append] at hroom ⊢
  omega

/-- The bytes in front of the cursor end at its place, and the bytes of the rest begin there. -/
theorem In.exists_front (hin : In text cursor) :
    ∃ front, text = front ++ cursor.rest ∧ cursor.position = byteLength front := by
  obtain ⟨front, rfl⟩ := hin.suffix
  refine ⟨front, rfl, ?_⟩
  unfold position
  rw [hin.length_eq, byteLength_append, Nat.add_sub_cancel]

theorem In.rounds_toBytes (hin : In text cursor) : (cursor.toBytes text).rounds = byteLength cursor.rest + 1 := by
  obtain ⟨front, rfl, hposition⟩ := hin.exists_front
  unfold ByteCursor.rounds toBytes
  rw [length_bytesOf, hposition, byteLength_append, Nat.add_sub_cancel_left]

theorem In.byteCharAt? (hin : In text cursor) :
    byteCharAt? (cursor.toBytes text).bytes (cursor.toBytes text).place =
      (bytesOf cursor.rest).head?.map Scanner.byteChar := by
  obtain ⟨front, rfl, hposition⟩ := hin.exists_front
  unfold toBytes
  rw [hposition, bytesOf_append, ← length_bytesOf]
  exact byteCharAt?_length _ _

theorem In.token_toBytes (hin : In text cursor) : (cursor.toBytes text).token = cursor.token := by
  unfold ByteCursor.token token
  rw [hin.byteCharAt?]
  cases cursor.rest with
  | nil => rfl
  | cons c rest =>
      obtain ⟨byte, hbyte⟩ := exists_head? c
      rw [head?_bytesOf_cons, hbyte]
      refine forall_byte (p := fun x => Token.ofChar x = Token.ofChar c) rfl (fun hhigh x hx => ?_) byte
        (List.mem_of_head? hbyte)
      exact (ofChar_of_isHigh hx).trans (ofChar_of_isHigh hhigh).symm

end Cursor

/-! ### The judgement -/

namespace Movement

open Cursor

variable {α β : Type} {text : List Char} {used used' bound : Nat} {cursor : Cursor}

/-- An outcome among the characters as it is among the bytes. -/
def toBytes (text : List Char) : EStateM.Result Fault Cursor α → EStateM.Result (Breach ⊕ Fault) ByteCursor α
  | .ok a next => .ok a (next.toBytes text)
  | .error fault next => .error (.inr fault) (next.toBytes text)

/-- Among the bytes too a movement does not break off. -/
theorem toBytes_ne (text : List Char) (result : EStateM.Result Fault Cursor α) (breach : Breach) (last : ByteCursor) :
    toBytes text result ≠ .error (.inl breach) last := by
  cases result with
  | ok a next => exact fun heq => by cases heq
  | error fault next => exact fun heq => by cases heq

/-- Whoever succeeds passes at least `used` characters, and nobody goes back. -/
def Lands (used : Nat) (cursor : Cursor) : EStateM.Result Fault Cursor α → Prop
  | .ok _ next => Passes used cursor next
  | .error _ next => Passes 0 cursor next

theorem Lands.mono {result : EStateM.Result Fault Cursor α} (hlands : Lands used cursor result) (hle : used' ≤ used) :
    Lands used' cursor result := by
  cases result with
  | ok a next => exact Passes.mono hlands hle
  | error fault next => exact hlands

theorem Lands.after {next : Cursor} {result : EStateM.Result Fault Cursor α} (hlands : Lands used' next result)
    (hnext : Passes used cursor next) : Lands (used + used') cursor result := by
  cases result with
  | ok a last => exact hnext.trans hlands
  | error fault last => exact (hnext.mono (Nat.zero_le _)).trans hlands

/-- From the cursor on, the checked movement does among the bytes what the movement does. -/
structure MirrorsAt (text : List Char) (used : Nat) (cursor : Cursor) (checked : ByteMovement α)
    (movement : Movement α) : Prop where
  run_eq : checked.run (cursor.toBytes text) = toBytes text (movement.run cursor)
  lands : Lands used cursor (movement.run cursor)

/-- The checked movement does what the movement does wherever fewer than `bound` characters are left. -/
def Mirrors (text : List Char) (used bound : Nat) (checked : ByteMovement α) (movement : Movement α) : Prop :=
  ∀ cursor, In text cursor → cursor.rest.length < bound → MirrorsAt text used cursor checked movement

section Judgement

variable {checked again' : ByteMovement α} {movement again : Movement α} {next' : α → ByteMovement β}
  {next : α → Movement β}

theorem MirrorsAt.congr (hmirrors : MirrorsAt text used cursor checked movement)
    (hrun' : again'.run (cursor.toBytes text) = checked.run (cursor.toBytes text))
    (hrun : again.run cursor = movement.run cursor) : MirrorsAt text used cursor again' again :=
  ⟨hrun'.trans (hmirrors.run_eq.trans (congrArg (toBytes text) hrun.symm)), hrun ▸ hmirrors.lands⟩

theorem MirrorsAt.mono (hmirrors : MirrorsAt text used cursor checked movement) (hle : used' ≤ used) :
    MirrorsAt text used' cursor checked movement := ⟨hmirrors.run_eq, hmirrors.lands.mono hle⟩

theorem MirrorsAt.andThen (hmirrors : MirrorsAt text used cursor checked movement) (hin : In text cursor)
    (hbound : cursor.rest.length < bound) (hnext : ∀ a, Mirrors text used' (bound - used) (next' a) (next a)) :
    MirrorsAt text (used + used') cursor (checked >>= next') (movement >>= next) := by
  obtain ⟨hrun, hlands⟩ := hmirrors
  cases hfirst : movement.run cursor with
  | error fault middle =>
      rw [hfirst] at hrun hlands
      have hlast : (movement >>= next).run cursor = .error fault middle := by rw [EStateM.run_bind, hfirst]
      have hlast' : (checked >>= next').run (cursor.toBytes text) = .error (.inr fault) (middle.toBytes text) := by
        rw [EStateM.run_bind, hrun]
        rfl
      exact ⟨by rw [hlast, hlast']; rfl, by rw [hlast]; exact hlands⟩
  | ok a middle =>
      rw [hfirst] at hrun hlands
      have hlast : (movement >>= next).run cursor = (next a).run middle := by rw [EStateM.run_bind, hfirst]
      have hlast' : (checked >>= next').run (cursor.toBytes text) = (next' a).run (middle.toBytes text) := by
        rw [EStateM.run_bind, hrun]
        rfl
      have hpassed : Passes used cursor middle := hlands
      have hle := hpassed.le
      obtain ⟨hrun', hlands'⟩ := hnext a middle (hin.passes hpassed) (by omega)
      exact ⟨by rw [hlast, hlast', hrun'], by rw [hlast]; exact hlands'.after hpassed⟩

theorem MirrorsAt.bind (hmirrors : MirrorsAt text used cursor checked movement) (hin : In text cursor)
    (hbound : cursor.rest.length < bound) (hnext : ∀ a, Mirrors text 0 (bound - used) (next' a) (next a)) :
    MirrorsAt text used cursor (checked >>= next') (movement >>= next) := hmirrors.andThen hin hbound hnext

theorem MirrorsAt.any (hmirrors : MirrorsAt text used cursor checked movement) :
    MirrorsAt text 0 cursor checked movement := hmirrors.mono (Nat.zero_le _)

theorem Mirrors.mono (hmirrors : Mirrors text used bound checked movement) (hle : used' ≤ used) :
    Mirrors text used' bound checked movement :=
  fun cursor hin hbound => (hmirrors cursor hin hbound).mono hle

theorem Mirrors.any (hmirrors : Mirrors text used bound checked movement) : Mirrors text 0 bound checked movement :=
  hmirrors.mono (Nat.zero_le _)

theorem Mirrors.andThen (hmirrors : Mirrors text used bound checked movement)
    (hnext : ∀ a, Mirrors text used' (bound - used) (next' a) (next a)) :
    Mirrors text (used + used') bound (checked >>= next') (movement >>= next) :=
  fun cursor hin hbound => (hmirrors cursor hin hbound).andThen hin hbound hnext

theorem Mirrors.bind (hmirrors : Mirrors text used bound checked movement)
    (hnext : ∀ a, Mirrors text 0 (bound - used) (next' a) (next a)) :
    Mirrors text used bound (checked >>= next') (movement >>= next) := hmirrors.andThen hnext

theorem mirrorsAt_pure (a : α) : MirrorsAt text 0 cursor (pure a) (pure a) := ⟨rfl, Passes.refl cursor⟩

theorem mirrorsAt_throw (fault : Fault) :
    MirrorsAt text used cursor (ByteMovement.refuse fault : ByteMovement α) (throw fault) := ⟨rfl, Passes.refl cursor⟩

theorem mirrorsAt_fail (cause : CursorFault) :
    MirrorsAt text used cursor (ByteMovement.fail cause : ByteMovement α) (fail cause) := ⟨rfl, Passes.refl cursor⟩

theorem mirrors_pure (a : α) : Mirrors text 0 bound (pure a) (pure a) := fun _ _ _ => mirrorsAt_pure a

theorem mirrors_throw (fault : Fault) :
    Mirrors text used bound (ByteMovement.refuse fault : ByteMovement α) (throw fault) :=
  fun _ _ _ => mirrorsAt_throw fault

theorem mirrors_fail (cause : CursorFault) :
    Mirrors text used bound (ByteMovement.fail cause : ByteMovement α) (fail cause) :=
  fun _ _ _ => mirrorsAt_fail cause

theorem MirrorsAt.ite {condition : Prop} [Decidable condition] {other' : ByteMovement α} {other : Movement α}
    (hmirrors : MirrorsAt text used cursor checked movement) (hother : MirrorsAt text used cursor other' other) :
    MirrorsAt text used cursor (if condition then checked else other') (if condition then movement else other) := by
  split
  · exact hmirrors
  · exact hother

theorem Mirrors.ite {condition : Prop} [Decidable condition] {other' : ByteMovement α} {other : Movement α}
    (hmirrors : Mirrors text used bound checked movement) (hother : Mirrors text used bound other' other) :
    Mirrors text used bound (if condition then checked else other') (if condition then movement else other) :=
  fun cursor hin hbound => (hmirrors cursor hin hbound).ite (hother cursor hin hbound)

theorem Mirrors.optional {condition : Prop} [Decidable condition] {check' : ByteMovement Unit} {check : Movement Unit}
    (hcheck : Mirrors text 0 bound check' check) (hrest : Mirrors text 0 bound checked movement) :
    Mirrors text 0 bound (if condition then check' >>= fun _ => checked else checked)
      (if condition then check >>= fun _ => movement else movement) :=
  .ite (hcheck.bind fun _ => hrest) hrest

/-- A checked movement may look at the place where it starts. -/
theorem MirrorsAt.get {go' : ByteCursor → ByteMovement α}
    (hgo : MirrorsAt text used cursor (go' (cursor.toBytes text)) movement) :
    MirrorsAt text used cursor (MonadState.get >>= go') movement := ⟨hgo.run_eq, hgo.lands⟩

/-- What comes next may depend on the cursor at hand. -/
theorem mirrors_get {go' : ByteCursor → ByteMovement β} {go : Cursor → Movement β}
    (hgo : ∀ cursor, In text cursor → cursor.rest.length < bound →
      MirrorsAt text used cursor (go' (cursor.toBytes text)) (go cursor)) :
    Mirrors text used bound (get >>= go') (get >>= go) :=
  fun cursor hin hbound => ⟨(hgo cursor hin hbound).run_eq, (hgo cursor hin hbound).lands⟩

theorem mirrors_token {go' : Token → ByteMovement β} {go : Token → Movement β}
    (hgo : ∀ cursor, In text cursor → cursor.rest.length < bound →
      MirrorsAt text used cursor (go' cursor.token) (go cursor.token)) :
    Mirrors text used bound (ByteMovement.token >>= go') (token >>= go) := by
  intro cursor hin hbound
  obtain ⟨hrun, hlands⟩ := hgo cursor hin hbound
  rw [← hin.token_toBytes] at hrun
  refine ⟨hrun.trans ?_, hlands⟩
  rw [hin.token_toBytes]
  rfl

theorem mirrors_modify {change' : ByteCursor → ByteCursor} {change : Cursor → Cursor}
    (hsame : ∀ cursor, change' (cursor.toBytes text) = (change cursor).toBytes text)
    (hpasses : ∀ cursor, Passes 0 cursor (change cursor)) :
    Mirrors text 0 bound (modify change') (modify change) :=
  fun cursor _ _ => ⟨congrArg (EStateM.Result.ok _) (hsame cursor), hpasses cursor⟩

/-- A search with fuel for every character is mirrored by one with rounds for every byte. -/
theorem mirrors_search {search' : ByteCursor → Nat → ByteMovement β} {search : Cursor → Nat → Movement β}
    (hsearch : ∀ cursor fuel rounds, In text cursor → cursor.rest.length < fuel → fuel ≤ rounds →
      MirrorsAt text used cursor (search' (cursor.toBytes text) rounds) (search cursor fuel)) :
    Mirrors text used bound (do let cursor ← get; search' cursor cursor.rounds)
      (do let cursor ← get; search cursor (cursor.rest.length + 1)) := by
  refine mirrors_get fun cursor hin _ => hsearch cursor _ _ hin (Nat.lt_succ_self _) ?_
  rw [hin.rounds_toBytes]
  exact Nat.succ_le_succ (length_le_byteLength cursor.rest)

end Judgement

end Movement

end TreeQuery
