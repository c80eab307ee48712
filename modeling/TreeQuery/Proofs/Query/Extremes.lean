import Mathlib.Data.String.Basic
import TreeQuery.Proofs.Tree.Meaning
import TreeQuery.Query.Function

/-!
# Extreme values of arrays

The greatest and the least value among the items of an array are found in one pass that compares each item with the best
so far. The pass succeeds exactly if the items that are not null are all numbers, all strings or all booleans. What it
finds is the first of the extreme items, and has the same value in whatever order the items stand.
-/

namespace TreeQuery

namespace Tree

variable {left middle right item best found : Tree} {items others : List Tree} {order other wanted : Ordering}
  {name : String}

/-! ### The order of values -/

/-- Numbers are ordered by their exact values, strings and booleans as such. -/
inductive Compares : Tree → Tree → Ordering → Prop
  | numbers {left right : Tree} {x y : ℚ} {order : Ordering} (hleft : left.number? = some x)
      (hright : right.number? = some y) (horder : compare x y = order) : Compares left right order
  | strings {x y : String} {order : Ordering} (horder : compare x y = order) : Compares (string x) (string y) order
  | bools {x y : Bool} {order : Ordering} (horder : compare x y = order) : Compares (bool x) (bool y) order

/-- What is beyond a value, in one direction, is beyond everything that is not beyond that value. -/
theorem compare_trans {α : Type} [LinearOrder α] {x y z : α} (hwanted : wanted ≠ .eq) (hxy : compare x y = wanted)
    (hyz : compare y z ≠ wanted.swap) : compare x z = wanted := by
  cases wanted with
  | eq => exact absurd rfl hwanted
  | lt =>
      rw [compare_lt_iff_lt] at hxy ⊢
      exact hxy.trans_le (not_lt.mp fun hlt => hyz (compare_gt_iff_gt.mpr hlt))
  | gt =>
      rw [compare_gt_iff_gt] at hxy ⊢
      exact (not_lt.mp fun hlt => hyz (compare_lt_iff_lt.mpr hlt)).trans_lt hxy

theorem Compares.swap (hcompares : left.Compares right order) : right.Compares left order.swap := by
  cases hcompares with
  | numbers hleft hright horder => exact .numbers hright hleft (horder ▸ Std.OrientedOrd.eq_swap)
  | strings horder => exact .strings (horder ▸ Std.OrientedOrd.eq_swap)
  | bools horder => exact .bools (horder ▸ Std.OrientedOrd.eq_swap)

theorem Compares.trans (hwanted : wanted ≠ .eq) (hleft : left.Compares middle wanted)
    (hright : middle.Compares right order) (horder : order ≠ wanted.swap) : left.Compares right wanted := by
  cases hleft with
  | numbers hx hy hxy =>
      cases hright with
      | numbers hy' hz hyz =>
          obtain rfl := Option.some.inj (hy.symm.trans hy')
          exact .numbers hx hz (compare_trans hwanted hxy (hyz ▸ horder))
      | strings => cases hy
      | bools => cases hy
  | strings hxy =>
      cases hright with
      | numbers hy => cases hy
      | strings hyz => exact .strings (compare_trans hwanted hxy (hyz ▸ horder))
  | bools hxy =>
      cases hright with
      | numbers hy => cases hy
      | bools hyz => exact .bools (compare_trans hwanted hxy (hyz ▸ horder))

/-- What has an order with one value has an order with everything that this one has an order with. -/
theorem Compares.exists_trans (hleft : left.Compares middle order) (hright : middle.Compares right other) :
    ∃ order, left.Compares right order := by
  cases hleft with
  | numbers hx hy =>
      cases hright with
      | numbers hy' hz => exact ⟨_, .numbers hx hz rfl⟩
      | strings => cases hy
      | bools => cases hy
  | strings =>
      cases hright with
      | numbers hy => cases hy
      | strings => exact ⟨_, .strings rfl⟩
  | bools =>
      cases hright with
      | numbers hy => cases hy
      | bools => exact ⟨_, .bools rfl⟩

theorem Compares.meaning_eq (hcompares : left.Compares right .eq) : left.meaning = right.meaning := by
  cases hcompares with
  | numbers hleft hright horder =>
      rw [meaning_of_number? hleft, meaning_of_number? hright, compare_eq_iff_eq.mp horder]
  | strings horder => rw [compare_eq_iff_eq.mp horder]
  | bools horder => rw [compare_eq_iff_eq.mp horder]

theorem compareValues_eq (hcompares : left.Compares right order) : left.compareValues right = some order := by
  cases hcompares with
  | numbers hleft hright horder =>
      have hnumbers : left.compareValues right = left.compareNumbers right := by
        cases left <;> cases hleft <;> cases right <;> cases hright <;> rfl
      rw [hnumbers, compareNumbers_eq hleft hright, horder]
  | strings horder => exact congrArg some horder
  | bools horder => exact congrArg some horder

theorem compares_of_compareValues (hleft : left.isFloat = false) (hright : right.isFloat = false)
    (hcompare : left.compareValues right = some order) : left.Compares right order := by
  have hnumbers (hnumber : left.isNumber = true) (hnumber' : right.isNumber = true) : left.Compares right order := by
    obtain ⟨x, hx⟩ := exists_number? hnumber hleft
    obtain ⟨y, hy⟩ := exists_number? hnumber' hright
    rw [compareValues_eq (.numbers hx hy rfl)] at hcompare
    exact .numbers hx hy (Option.some.inj hcompare)
  rw [compareValues.eq_def] at hcompare
  split at hcompare
  · exact .strings (Option.some.inj hcompare)
  · exact .bools (Option.some.inj hcompare)
  · split at hcompare
    · next hboth => exact hnumbers (Bool.and_eq_true_iff.mp hboth).1 (Bool.and_eq_true_iff.mp hboth).2
    · cases hcompare

/-! ### The pass over the items -/

/-- The best of the items in the wanted direction, and the first if there are several. -/
def Leads (wanted : Ordering) (items : List Tree) (best : Tree) : Prop :=
  ∃ before after, items = before ++ best :: after ∧ (∀ item ∈ before, best.Compares item wanted) ∧
    ∀ item ∈ after, ∃ order, item.Compares best order ∧ order ≠ wanted

theorem leads_singleton (wanted : Ordering) (item : Tree) : Leads wanted [item] item :=
  ⟨[], [], rfl, List.forall_mem_nil _, List.forall_mem_nil _⟩

theorem ne_swap_self (hwanted : wanted ≠ .eq) : wanted ≠ wanted.swap := by
  cases wanted <;> first | exact absurd rfl hwanted | decide

theorem Leads.concat (hwanted : wanted ≠ .eq) (hleads : Leads wanted items best) (hitem : item.Compares best order) :
    Leads wanted (items ++ [item]) (if order == wanted then item else best) := by
  obtain ⟨before, after, rfl, hbefore, hafter⟩ := hleads
  by_cases horder : order = wanted
  · obtain rfl := horder
    rw [if_pos (beq_self_eq_true order)]
    refine ⟨before ++ best :: after, [], rfl, fun earlier hearlier => ?_, List.forall_mem_nil _⟩
    rcases List.mem_append.mp hearlier with hmem | hmem
    · exact hitem.trans hwanted (hbefore earlier hmem) (ne_swap_self hwanted)
    rcases List.mem_cons.mp hmem with rfl | hmem
    · exact hitem
    · obtain ⟨found, hfound, hne⟩ := hafter earlier hmem
      exact hitem.trans hwanted hfound.swap fun heq => hne (Ordering.swap_inj.mp heq)
  · rw [if_neg (by simpa using horder)]
    refine ⟨before, after ++ [item], by simp, hbefore, fun later hlater => ?_⟩
    rcases List.mem_append.mp hlater with hmem | hmem
    · exact hafter later hmem
    · obtain rfl := List.mem_singleton.mp hmem
      exact ⟨order, hitem, horder⟩

/-- One pass over items that all have an order with the best so far keeps the best of those that it has seen. -/
theorem exists_foldlM_better (hwanted : wanted ≠ .eq) {seen : List Tree} (hleads : Leads wanted seen best)
    (hitems : ∀ item ∈ items, ∃ order, item.Compares best order) :
    ∃ found, items.foldlM (better wanted name) best = .ok found ∧ Leads wanted (seen ++ items) found := by
  induction items generalizing seen best with
  | nil => exact ⟨best, rfl, by rwa [List.append_nil]⟩
  | cons item items ih =>
      obtain ⟨⟨order, hitem⟩, hothers⟩ := List.forall_mem_cons.mp hitems
      have hstep : better wanted name best item = .ok (if order == wanted then item else best) := by
        rw [better, compareValues_eq hitem]
      have hnext : ∀ later ∈ items, ∃ found, later.Compares (if order == wanted then item else best) found := by
        intro later hlater
        obtain ⟨found, hfound⟩ := hothers later hlater
        split
        · exact hfound.exists_trans hitem.swap
        · exact ⟨found, hfound⟩
      obtain ⟨found, hfold, hfound⟩ := ih (hleads.concat hwanted hitem) hnext
      refine ⟨found, ?_, by rwa [List.append_assoc] at hfound⟩
      rw [List.foldlM_cons, hstep]
      exact hfold

/-- If the items do not all have an order with the best so far, the pass ends at two values without one. -/
theorem foldlM_better_eq_error (hfloats : ∀ item ∈ best :: items, item.isFloat = false)
    (hnone : ∃ item ∈ items, ∀ order, ¬ item.Compares best order) :
    ∃ left ∈ best :: items, ∃ right ∈ best :: items, (∀ order, ¬ left.Compares right order) ∧
      items.foldlM (better wanted name) best = .error (.evaluation (.incomparable name left.kindName right.kindName)) := by
  induction items generalizing best with
  | nil =>
      obtain ⟨item, hitem, -⟩ := hnone
      cases hitem
  | cons item items ih =>
      have hbest := hfloats best List.mem_cons_self
      have hitem := hfloats item (List.mem_cons_of_mem _ List.mem_cons_self)
      cases hcompare : item.compareValues best with
      | none =>
          refine ⟨item, List.mem_cons_of_mem _ List.mem_cons_self, best, List.mem_cons_self, fun order horder => ?_, ?_⟩
          · rw [compareValues_eq horder] at hcompare
            cases hcompare
          · rw [List.foldlM_cons, better, hcompare]
            rfl
      | some order =>
          have horder := compares_of_compareValues hitem hbest hcompare
          have hstep : better wanted name best item = .ok (if order == wanted then item else best) := by
            rw [better, hcompare]
          have hmem : ∀ found ∈ (if order == wanted then item else best) :: items, found ∈ best :: item :: items := by
            split <;> simp +contextual
          have hnext : ∃ later ∈ items, ∀ found, ¬ later.Compares (if order == wanted then item else best) found := by
            obtain ⟨later, hlater, hnone⟩ := hnone
            rcases List.mem_cons.mp hlater with rfl | hlater
            · exact absurd horder (hnone order)
            refine ⟨later, hlater, fun found hfound => ?_⟩
            split at hfound
            · obtain ⟨other, hother⟩ := hfound.exists_trans horder
              exact hnone other hother
            · exact hnone found hfound
          obtain ⟨left, hleft, right, hright, hapart, hfold⟩ := ih (fun found hfound => hfloats found (hmem found hfound)) hnext
          refine ⟨left, hmem left hleft, right, hmem right hright, hapart, ?_⟩
          rw [List.foldlM_cons, hstep]
          exact hfold

/-! ### Extreme items -/

/-- The items that are not null. -/
def present (items : List Tree) : List Tree := items.filter fun item => !item.isNull

/-- An item that is not null and that no other such item is beyond. -/
structure IsExtreme (wanted : Ordering) (items : List Tree) (best : Tree) : Prop where
  mem : best ∈ items
  isNull_eq : best.isNull = false
  unbeaten : ∀ item ∈ items, item.isNull = false → ¬ item.Compares best wanted

/-- An extreme item with none in front of it. -/
def IsFirstExtreme (wanted : Ordering) (items : List Tree) (best : Tree) : Prop :=
  ∃ before after, items = before ++ best :: after ∧ IsExtreme wanted items best ∧
    ∀ item ∈ before, ¬ IsExtreme wanted items item

/-- The items that are not null are all numbers, all strings or all booleans. -/
def Uniform (items : List Tree) : Prop :=
  (∀ item ∈ items, item.isNull = false → item.isNumber = true) ∨
    (∀ item ∈ items, item.isNull = false → ∃ text, item = string text) ∨
      ∀ item ∈ items, item.isNull = false → ∃ value, item = bool value

theorem mem_present : item ∈ present items ↔ item ∈ items ∧ item.isNull = false := by
  rw [present, List.mem_filter, Bool.not_eq_true']

theorem Compares.unique (hfirst : left.Compares right order) (hsecond : left.Compares right other) : order = other :=
  Option.some.inj ((compareValues_eq hfirst).symm.trans (compareValues_eq hsecond))

theorem Compares.not_swap (hwanted : wanted ≠ .eq) (hcompares : left.Compares right wanted) :
    ¬ right.Compares left wanted :=
  fun hback => ne_swap_self hwanted (hback.unique hcompares.swap)

theorem Leads.isFirstExtreme (hwanted : wanted ≠ .eq) (hleads : Leads wanted (present items) best) :
    IsFirstExtreme wanted items best := by
  obtain ⟨before, after, hitems, hbefore, hafter⟩ := hleads
  have hbest : best ∈ items ∧ best.isNull = false := mem_present.mp (by simp [hitems])
  have hextreme : IsExtreme wanted items best := by
    refine ⟨hbest.1, hbest.2, fun item hitem hnull hbeyond => ?_⟩
    have hmem : item ∈ before ++ best :: after := hitems ▸ mem_present.mpr ⟨hitem, hnull⟩
    rcases List.mem_append.mp hmem with hmem | hmem
    · exact (hbefore item hmem).not_swap hwanted hbeyond
    rcases List.mem_cons.mp hmem with rfl | hmem
    · exact hbeyond.not_swap hwanted hbeyond
    · obtain ⟨order, horder, hne⟩ := hafter item hmem
      exact hne (horder.unique hbeyond)
  -- In front of the best item among all items there are those in front of it among the present ones, and nulls.
  obtain ⟨front, back, rfl, hfront, hback⟩ := List.filter_eq_append_iff.mp hitems
  obtain ⟨nulls, rest, rfl, hnulls, -, -⟩ := List.filter_eq_cons_iff.mp hback
  refine ⟨front ++ nulls, rest, (List.append_assoc ..).symm, hextreme, fun item hitem hother => ?_⟩
  rcases List.mem_append.mp hitem with hmem | hmem
  · have hearlier : item ∈ before := hfront ▸ mem_present.mpr ⟨hmem, hother.isNull_eq⟩
    exact hother.unbeaten best hbest.1 hbest.2 (hbefore item hearlier)
  · exact hnulls item hmem (by rw [hother.isNull_eq]; rfl)

theorem Uniform.exists_compares (huniform : Uniform items) (hfloats : ∀ item ∈ items, item.isFloat = false)
    (hleft : left ∈ present items) (hright : right ∈ present items) : ∃ order, left.Compares right order := by
  obtain ⟨hleft, hleftNull⟩ := mem_present.mp hleft
  obtain ⟨hright, hrightNull⟩ := mem_present.mp hright
  obtain hnumbers | hstrings | hbools := huniform
  · obtain ⟨x, hx⟩ := exists_number? (hnumbers left hleft hleftNull) (hfloats left hleft)
    obtain ⟨y, hy⟩ := exists_number? (hnumbers right hright hrightNull) (hfloats right hright)
    exact ⟨_, .numbers hx hy rfl⟩
  · obtain ⟨x, rfl⟩ := hstrings left hleft hleftNull
    obtain ⟨y, rfl⟩ := hstrings right hright hrightNull
    exact ⟨_, .strings rfl⟩
  · obtain ⟨x, rfl⟩ := hbools left hleft hleftNull
    obtain ⟨y, rfl⟩ := hbools right hright hrightNull
    exact ⟨_, .bools rfl⟩

/-- What has an order with one value is of its kind. -/
theorem uniform_of_compares (hbest : best.Compares best order)
    (hitems : ∀ item ∈ present items, ∃ order, item.Compares best order) : Uniform items := by
  have hpresent (item : Tree) (hitem : item ∈ items) (hnull : item.isNull = false) :=
    hitems item (mem_present.mpr ⟨hitem, hnull⟩)
  cases hbest with
  | numbers hx =>
      refine .inl fun item hitem hnull => ?_
      obtain ⟨order, hitem⟩ := hpresent item hitem hnull
      cases hitem with
      | numbers hy => exact isNumber_of_number? hy
      | strings => cases hx
      | bools => cases hx
  | strings =>
      refine .inr (.inl fun item hitem hnull => ?_)
      obtain ⟨order, hitem⟩ := hpresent item hitem hnull
      cases hitem with
      | numbers hx hy => cases hy
      | strings => exact ⟨_, rfl⟩
  | bools =>
      refine .inr (.inr fun item hitem hnull => ?_)
      obtain ⟨order, hitem⟩ := hpresent item hitem hnull
      cases hitem with
      | numbers hx hy => cases hy
      | bools => exact ⟨_, rfl⟩

theorem exists_extreme (hwanted : wanted ≠ .eq) (hfloats : ∀ item ∈ items, item.isFloat = false)
    (huniform : Uniform items) (hpresent : present items ≠ []) (name : String) :
    ∃ found, extreme wanted name (array items) = .ok found ∧ IsFirstExtreme wanted items found := by
  obtain ⟨first, rest, hitems⟩ := List.exists_cons_of_ne_nil hpresent
  have hfirst : first ∈ present items := by simp [hitems]
  have hrest : ∀ item ∈ rest, ∃ order, item.Compares first order := fun item hitem =>
    huniform.exists_compares hfloats (by simp [hitems, hitem]) hfirst
  obtain ⟨found, hfold, hleads⟩ := exists_foldlM_better hwanted (leads_singleton wanted first) hrest
  rw [List.singleton_append, ← hitems] at hleads
  refine ⟨found, ?_, hleads.isFirstExtreme hwanted⟩
  rw [present] at hitems
  rw [extreme, hitems]
  exact hfold

theorem extreme_eq_error (hfloats : ∀ item ∈ items, item.isFloat = false) (hmixed : ¬ Uniform items)
    (htwo : 2 ≤ (present items).length) (wanted : Ordering) (name : String) :
    ∃ left ∈ items, ∃ right ∈ items, (∀ order, ¬ left.Compares right order) ∧
      extreme wanted name (array items) =
        .error (.evaluation (.incomparable name left.kindName right.kindName)) := by
  obtain ⟨first, second, rest, hitems⟩ : ∃ first second rest, present items = first :: second :: rest := by
    match hitems : present items with
    | [] => simp [hitems] at htwo
    | [item] => simp [hitems] at htwo
    | first :: second :: rest => exact ⟨first, second, rest, rfl⟩
  have hmem : ∀ item ∈ first :: second :: rest, item ∈ items := fun item hitem =>
    (mem_present.mp (hitems ▸ hitem)).1
  have hnone : ∃ item ∈ second :: rest, ∀ order, ¬ item.Compares first order := by
    by_contra hall
    push Not at hall
    -- The second item has an order with the first, so the first has one with itself.
    obtain ⟨order, horder⟩ := hall second List.mem_cons_self
    obtain ⟨self, hself⟩ := horder.swap.exists_trans horder
    refine hmixed (uniform_of_compares hself fun item hitem => ?_)
    rcases List.mem_cons.mp (hitems ▸ hitem) with rfl | hothers
    · exact ⟨self, hself⟩
    · exact hall item hothers
  obtain ⟨left, hleft, right, hright, hapart, hfold⟩ :=
    foldlM_better_eq_error (fun item hitem => hfloats item (hmem item hitem)) hnone
  refine ⟨left, hmem left hleft, right, hmem right hright, hapart, ?_⟩
  rw [present] at hitems
  rw [extreme, hitems]
  exact hfold

/-! ### Other orders of the items -/

theorem perm_present (hperm : others.Perm items) : (present others).Perm (present items) := hperm.filter _

theorem Uniform.perm (huniform : Uniform items) (hperm : others.Perm items) : Uniform others := by
  simpa only [Uniform, hperm.mem_iff] using huniform

theorem IsExtreme.perm (hextreme : IsExtreme wanted items best) (hperm : others.Perm items) :
    IsExtreme wanted others best where
  mem := hperm.mem_iff.mpr hextreme.mem
  isNull_eq := hextreme.isNull_eq
  unbeaten item hitem := hextreme.unbeaten item (hperm.mem_iff.mp hitem)

/-- Extreme items have the same value. -/
theorem IsExtreme.meaning_eq (hwanted : wanted ≠ .eq) (hfloats : ∀ item ∈ items, item.isFloat = false)
    (huniform : Uniform items) (hfound : IsExtreme wanted items found) (hbest : IsExtreme wanted items best) :
    found.meaning = best.meaning := by
  obtain ⟨order, horder⟩ := huniform.exists_compares hfloats (mem_present.mpr ⟨hfound.mem, hfound.isNull_eq⟩)
    (mem_present.mpr ⟨hbest.mem, hbest.isNull_eq⟩)
  have hne : order ≠ wanted := by
    rintro rfl
    exact hbest.unbeaten found hfound.mem hfound.isNull_eq horder
  have hneSwap : order.swap ≠ wanted := by
    rintro rfl
    exact hfound.unbeaten best hbest.mem hbest.isNull_eq horder.swap
  have heq : order = .eq := by
    cases order <;> cases wanted <;> first | rfl | exact absurd rfl hwanted | exact absurd rfl hne | exact absurd rfl hneSwap
  exact (heq ▸ horder).meaning_eq

theorem exists_extreme_perm (hwanted : wanted ≠ .eq) (hfloats : ∀ item ∈ items, item.isFloat = false)
    (huniform : Uniform items) (hpresent : present items ≠ []) (name : String) (hperm : others.Perm items) :
    ∃ found, extreme wanted name (array others) = .ok found ∧ IsExtreme wanted items found := by
  have hsome : present others ≠ [] := fun hnone => hpresent (hnone ▸ perm_present hperm.symm).eq_nil
  obtain ⟨found, hfound, -, -, -, hextreme, -⟩ := exists_extreme hwanted
    (fun item hitem => hfloats item (hperm.mem_iff.mp hitem)) (huniform.perm hperm) hsome name
  exact ⟨found, hfound, hextreme.perm hperm.symm⟩

theorem extreme_eq_error_perm (hfloats : ∀ item ∈ items, item.isFloat = false) (hmixed : ¬ Uniform items)
    (htwo : 2 ≤ (present items).length) (wanted : Ordering) (name : String) (hperm : others.Perm items) :
    ∃ left ∈ items, ∃ right ∈ items, (∀ order, ¬ left.Compares right order) ∧
      extreme wanted name (array others) =
        .error (.evaluation (.incomparable name left.kindName right.kindName)) := by
  have hlength : (present others).length = (present items).length := (perm_present hperm).length_eq
  obtain ⟨left, hleft, right, hright, hapart, herror⟩ := extreme_eq_error
    (fun item hitem => hfloats item (hperm.mem_iff.mp hitem)) (fun huniform => hmixed (huniform.perm hperm.symm))
    (by rwa [hlength]) wanted name
  exact ⟨left, hperm.mem_iff.mp hleft, right, hperm.mem_iff.mp hright, hapart, herror⟩

end Tree

open TreeQuery.Tree

theorem PathFunction.apply_eq_extreme {function : PathFunction} {wanted : Ordering} {name : String}
    (hfunction : (function, wanted, name) ∈ [(max, .gt, "max"), (min, .lt, "min")]) :
    wanted ≠ .eq ∧ ∀ tree, function.apply tree = tree.extreme wanted name := by
  rcases List.mem_cons.mp hfunction with hmax | hmin
  · cases hmax
    exact ⟨by decide, fun tree => rfl⟩
  · cases List.mem_singleton.mp hmin
    exact ⟨by decide, fun tree => rfl⟩

/-- **Extreme values do not depend on the order of the items.** Among at least two items that are not null and no binary
numbers, an extreme value is found exactly if they are all numbers, all strings or all booleans. It is the first item
that no other is beyond, and has the same value whatever the order of the items; else the pass ends, whatever the order,
at two items that have no order. -/
theorem PathFunction.apply_extreme {function : PathFunction} {wanted : Ordering} {name : String} {items : List Tree}
    (hfunction : (function, wanted, name) ∈ [(max, .gt, "max"), (min, .lt, "min")])
    (hfloats : ∀ item ∈ items, item.isFloat = false) (htwo : 2 ≤ (present items).length) :
    ((∃ best, function.apply (.array items) = .ok best) ↔ Uniform items) ∧
      (∀ best, function.apply (.array items) = .ok best → IsFirstExtreme wanted items best ∧
        ∀ others, others.Perm items →
          ∃ found, function.apply (.array others) = .ok found ∧ found.meaning = best.meaning) ∧
      (¬ Uniform items → ∀ others, others.Perm items →
        ∃ left ∈ items, ∃ right ∈ items, (∀ order, ¬ left.Compares right order) ∧
          function.apply (.array others) =
            .error (.evaluation (.incomparable name left.kindName right.kindName))) := by
  obtain ⟨hwanted, happly⟩ := apply_eq_extreme hfunction
  simp only [happly]
  have hsome : present items ≠ [] := List.ne_nil_of_length_pos (by omega)
  have huniform {best : Tree} (hbest : extreme wanted name (.array items) = .ok best) : Uniform items := by
    by_contra hmixed
    obtain ⟨left, -, right, -, -, herror⟩ := extreme_eq_error hfloats hmixed htwo wanted name
    rw [herror] at hbest
    cases hbest
  refine ⟨⟨fun ⟨best, hbest⟩ => huniform hbest, fun hkind => ?_⟩, fun best hbest => ?_, fun hmixed others hperm => ?_⟩
  · obtain ⟨found, hfound, -⟩ := exists_extreme hwanted hfloats hkind hsome name
    exact ⟨found, hfound⟩
  · have hkind := huniform hbest
    obtain ⟨found, hfound, hfirst⟩ := exists_extreme hwanted hfloats hkind hsome name
    obtain rfl : found = best := Except.ok.inj (hfound.symm.trans hbest)
    refine ⟨hfirst, fun others hperm => ?_⟩
    obtain ⟨-, -, -, hbestExtreme, -⟩ := hfirst
    obtain ⟨other, hother, hextreme⟩ := exists_extreme_perm hwanted hfloats hkind hsome name hperm
    exact ⟨other, hother, hextreme.meaning_eq hwanted hfloats hkind hbestExtreme⟩
  · exact extreme_eq_error_perm hfloats hmixed htwo wanted name hperm

/-- The greatest of numbers, two of them equal in different forms, and a null between them. -/
theorem PathFunction.apply_extreme_ties :
    let items := [Tree.integer 3, .null, .decimal ⟨75, 1⟩, .decimal ⟨750, 2⟩, .integer (-1)]
    (∀ item ∈ items, item.isFloat = false) ∧ 2 ≤ (present items).length ∧
      max.apply (.array items) = .ok (.decimal ⟨75, 1⟩) ∧ IsFirstExtreme .gt items (.decimal ⟨75, 1⟩) ∧
        max.apply (.array items.reverse) = .ok (.decimal ⟨750, 2⟩) ∧
          (Tree.decimal ⟨750, 2⟩).meaning = (Tree.decimal ⟨75, 1⟩).meaning := by
  intro items
  have hfloats : ∀ item ∈ items, item.isFloat = false := by decide
  have htwo : 2 ≤ (present items).length := by decide
  have hmax : (max, Ordering.gt, "max") ∈ [(max, .gt, "max"), (min, .lt, "min")] := List.mem_cons_self
  obtain ⟨-, hfinds, -⟩ := apply_extreme hmax hfloats htwo
  obtain ⟨hfirst, hsame⟩ := hfinds (.decimal ⟨75, 1⟩) rfl
  obtain ⟨found, hfound, hmeaning⟩ := hsame items.reverse (List.reverse_perm items)
  obtain rfl : Tree.decimal ⟨750, 2⟩ = found := Except.ok.inj hfound
  exact ⟨hfloats, htwo, rfl, hfirst, rfl, hmeaning⟩

end TreeQuery
