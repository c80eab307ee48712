/-!
# Running actions

What running an action gives when its outcome is mapped, fuel that has not run out, results whose outcomes and faults
are both accounted for, and lists that are read back element by element.
-/

namespace TreeQuery

theorem exists_eq_succ_of_lt {used fuel : Nat} (hfuel : used < fuel) : ∃ left, fuel = left + 1 :=
  Nat.exists_eq_succ_of_ne_zero (Nat.ne_of_gt (Nat.zero_lt_of_lt hfuel))

@[simp]
theorem run_map {ε σ α β : Type} (f : α → β) (action : EStateM ε σ α) (s : σ) :
    (f <$> action).run s =
      match action.run s with
      | .ok a s => .ok (f a) s
      | .error e s => .error e s := by
  simp only [Functor.map, EStateM.map, EStateM.run]
  cases action s <;> rfl

theorem run_bind_eq_ok {ε σ α β : Type} {action : EStateM ε σ α} {next : α → EStateM ε σ β} {s s' : σ} {b : β} :
    (action >>= next).run s = .ok b s' ↔ ∃ a t, action.run s = .ok a t ∧ (next a).run t = .ok b s' := by
  rw [EStateM.run_bind]
  cases action.run s with
  | ok a t => exact ⟨fun hnext => ⟨a, t, rfl, hnext⟩, by rintro ⟨_, _, ⟨⟩, hnext⟩; exact hnext⟩
  | error fault t => exact ⟨nofun, by rintro ⟨_, _, ⟨⟩, _⟩⟩

/-- What a result gives is as wanted, and a fault is one of those that are allowed. -/
def Meets {ε α : Type} (post : α → Prop) (allowed : ε → Prop) : Except ε α → Prop
  | .ok a => post a
  | .error e => allowed e

section Meets

variable {ε α β : Type} {result : Except ε α} {post : α → Prop} {post' : β → Prop} {allowed : ε → Prop}

theorem Meets.bind {next : α → Except ε β} (hresult : Meets post allowed result)
    (hnext : ∀ a, post a → Meets post' allowed (next a)) : Meets post' allowed (result >>= next) := by
  cases result with
  | ok a => exact hnext a hresult
  | error e => exact hresult

theorem Meets.imp {allowed' : ε → Prop} (hresult : Meets post allowed result) (hallowed : ∀ e, allowed e → allowed' e) :
    Meets post allowed' result := by
  cases result with
  | ok a => exact hresult
  | error e => exact hallowed e hresult

theorem Meets.map {f : α → β} (hresult : Meets post allowed result) (hpost : ∀ a, post a → post' (f a)) :
    Meets post' allowed (result.map f) := by
  cases result with
  | ok a => exact hpost a hresult
  | error e => exact hresult

end Meets

theorem exceptMap_map {ε α β γ : Type} (result : Except ε α) (f : α → β) (g : β → γ) :
    (result.map f).map g = result.map fun a => g (f a) := by
  cases result <;> rfl

theorem exceptMap_id {ε α β : Type} (result : Except ε (α × β)) :
    result.map (fun (a, b) => (a, b)) = result := by
  cases result <;> rfl

theorem mapM_map_eq_pure {m : Type → Type} [Monad m] [LawfulMonad m] {α β : Type} {write : α → β} {read : β → m α}
    {values : List α} (hread : ∀ value ∈ values, read (write value) = pure value) :
    (values.map write).mapM read = pure values := by
  induction values with
  | nil => rfl
  | cons value values ih =>
      obtain ⟨hvalue, hvalues⟩ := List.forall_mem_cons.mp hread
      rw [List.map_cons, List.mapM_cons, hvalue, ih hvalues, pure_bind, pure_bind]

theorem mapM_eq_some_iff {α β : Type} {read : α → Option β} {items : List α} {values : List β} :
    items.mapM read = some values ↔ items.map read = values.map some := by
  induction items generalizing values with
  | nil => cases values <;> simp
  | cons item items ih => cases values <;> simp [List.mapM_cons, Option.bind_eq_some_iff, ih]

theorem length_eq_of_mapM {α β : Type} {read : α → Option β} {items : List α} {values : List β}
    (hvalues : items.mapM read = some values) : values.length = items.length := by
  simpa using (congrArg List.length (mapM_eq_some_iff.mp hvalues)).symm

theorem exists_of_mem_mapM {α β : Type} {read : α → Option β} {items : List α} {values : List β} {value : β}
    (hvalues : items.mapM read = some values) (hmem : value ∈ values) : ∃ item ∈ items, read item = some value := by
  have hsome : some value ∈ items.map read := mapM_eq_some_iff.mp hvalues ▸ List.mem_map_of_mem hmem
  exact List.mem_map.mp hsome

theorem mapM_eq_none_iff {α β : Type} {read : α → Option β} {items : List α} :
    items.mapM read = none ↔ none ∈ items.map read := by
  induction items with
  | nil => simp
  | cons item items ih =>
      rw [List.mapM_cons, List.map_cons, List.mem_cons, ← ih]
      cases read item <;> cases items.mapM read <;> simp

theorem isSome_of_isSome_mapM {α β : Type} {read : α → Option β} {items : List α}
    (hsome : (items.mapM read).isSome = true) : ∀ item ∈ items, (read item).isSome = true := by
  intro item hmem
  cases hread : read item with
  | some value => rfl
  | none =>
      rw [mapM_eq_none_iff.mpr (hread ▸ List.mem_map_of_mem hmem)] at hsome
      cases hsome

end TreeQuery
