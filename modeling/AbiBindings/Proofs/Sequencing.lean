import AbiBindings.Outcome
import Mathlib.Data.List.Forall2

/-!
# Values of sequences

A sequence has a value exactly when each of its steps has one, in order.
`bind_eq_ok` and `map_eq_ok` take one step apart; `result_mapM_eq_ok` takes a
whole traversal apart, item by item, so later files never follow the
recursion of a traversal again.  A sequence that has no value ends with the
fault of one of its steps (`bind_eq_error`, `exists_of_mapM_eq_error`).  What
holds of items and values side by side is then taken to single values
(`exists_item`) and to whole lists (`map_eq_map`).
-/

namespace AbiBindings

section Except

variable {ε α β : Type}

/-- A step followed by another has a value when both have one. -/
theorem bind_eq_ok {x : Except ε α} {f : α → Except ε β} {b : β} :
    x >>= f = .ok b ↔ ∃ a, x = .ok a ∧ f a = .ok b := by
  cases x with
  | error e => simp [bind, Except.bind]
  | ok a => simp [bind, Except.bind]

/-- A mapped step has a value when the step has one. -/
theorem map_eq_ok {x : Except ε α} {f : α → β} {b : β} :
    f <$> x = .ok b ↔ ∃ a, x = .ok a ∧ f a = b := by
  cases x with
  | error e => simp [Functor.map, Except.map]
  | ok a => simp [Functor.map, Except.map]

/-- A step followed by another ends with the fault of the first, or with that
of the second. -/
theorem bind_eq_error {x : Except ε α} {f : α → Except ε β} {e : ε} :
    x >>= f = .error e ↔ x = .error e ∨ ∃ a, x = .ok a ∧ f a = .error e := by
  cases x with
  | error e => simp [bind, Except.bind]
  | ok a => simp [bind, Except.bind]

/-- A mapped step ends with the fault of the step. -/
theorem map_eq_error {x : Except ε α} {f : α → β} {e : ε} :
    f <$> x = .error e ↔ x = .error e := by
  cases x with
  | error e => simp [Functor.map, Except.map]
  | ok a => simp [Functor.map, Except.map]

@[simp]
theorem pure_eq_ok {a b : α} : (pure a : Except ε α) = .ok b ↔ a = b := by
  simp [pure, Except.pure]

end Except

namespace SideBySide

variable {α β γ : Type} {r : α → β → Prop} {xs : List α} {ys : List β}

/-- Every item has a value. -/
theorem exists_value (h : List.Forall₂ r xs ys) {x : α} (hx : x ∈ xs) :
    ∃ y ∈ ys, r x y := by
  induction h with
  | nil => cases hx
  | cons hxy _ ih =>
      rcases List.mem_cons.mp hx with rfl | hrest
      · exact ⟨_, List.mem_cons_self, hxy⟩
      · obtain ⟨y, hy, hr⟩ := ih hrest
        exact ⟨y, List.mem_cons_of_mem _ hy, hr⟩

/-- Every value belongs to an item. -/
theorem exists_item (h : List.Forall₂ r xs ys) {y : β} (hy : y ∈ ys) :
    ∃ x ∈ xs, r x y :=
  exists_value h.flip hy

/-- The value of an item stands in its place. -/
theorem getElem?_value (h : List.Forall₂ r xs ys) {i : Nat} {x : α} (hx : xs[i]? = some x) :
    ∃ y, ys[i]? = some y ∧ r x y := by
  induction h generalizing i with
  | nil => cases hx
  | @cons _ y _ _ hxy _ ih =>
      cases i with
      | zero =>
          cases hx
          exact ⟨y, rfl, hxy⟩
      | succ i => exact ih hx

/-- Items that all have values have a list of values. -/
theorem exists_values (h : ∀ x ∈ xs, ∃ y, r x y) : ∃ ys, List.Forall₂ r xs ys := by
  induction xs with
  | nil => exact ⟨[], .nil⟩
  | cons x rest ih =>
      obtain ⟨⟨y, hy⟩, hrest⟩ := List.forall_mem_cons.mp h
      obtain ⟨ys, hys⟩ := ih hrest
      exact ⟨y :: ys, .cons hy hys⟩

/-- Items whose values cannot differ have one list of values. -/
theorem values_unique {s : γ → β → Prop} {t : α → γ → Prop} {zs : List γ}
    {ys' : List β} (hitems : List.Forall₂ t xs zs) (h : List.Forall₂ r xs ys)
    (h' : List.Forall₂ s zs ys')
    (hunique : ∀ x ∈ xs, ∀ z ∈ zs, t x z → ∀ y y', r x y → s z y' → y = y') : ys = ys' := by
  induction hitems generalizing ys ys' with
  | nil =>
      cases h
      cases h'
      rfl
  | cons hxz _ ih =>
      cases h with
      | cons hy hys =>
        cases h' with
        | cons hy' hys' =>
          obtain rfl := hunique _ List.mem_cons_self _ List.mem_cons_self hxz _ _ hy hy'
          rw [ih hys hys' fun x hx z hz =>
            hunique x (List.mem_cons_of_mem _ hx) z (List.mem_cons_of_mem _ hz)]

/-- What each value has from its item, the values have from the items. -/
theorem map_eq_map {f : α → γ} {k : β → γ} (h : List.Forall₂ r xs ys)
    (hr : ∀ x y, r x y → k y = f x) : ys.map k = xs.map f := by
  induction h with
  | nil => rfl
  | cons hxy _ ih => rw [List.map_cons, List.map_cons, ih, hr _ _ hxy]

end SideBySide

namespace Outcome

variable {α β : Type}

/-- **Traversals.**  A traversal has a value when every item has one, and the
value lists those of the items. -/
theorem result_mapM_eq_ok {f : α → Outcome β} {xs : List α} {ys : List β} :
    (xs.mapM f).result = .ok ys ↔
      List.Forall₂ (fun x y => (f x).result = .ok y) xs ys := by
  induction xs generalizing ys with
  | nil => simp [List.forall₂_nil_left_iff, eq_comm]
  | cons x rest ih =>
      simp only [List.mapM_cons, result_bind, result_pure, bind_eq_ok,
        List.forall₂_cons_left_iff, ih]
      constructor
      · intro hall
        obtain ⟨y, hy, others, hothers, h⟩ := hall
        exact ⟨y, others, hy, hothers, by simpa using h.symm⟩
      · intro hall
        obtain ⟨y, others, hy, hothers, rfl⟩ := hall
        exact ⟨y, hy, others, hothers, rfl⟩

/-- A traversal ends with the fault of some item. -/
theorem exists_of_mapM_eq_error {f : α → Outcome β} {xs : List α} {fault : Fault}
    (h : (xs.mapM f).result = .error fault) : ∃ x ∈ xs, (f x).result = .error fault := by
  induction xs with
  | nil => cases h
  | cons x rest ih =>
      simp only [List.mapM_cons, result_bind, bind_eq_error, result_pure, reduceCtorEq,
        and_false, exists_false, or_false] at h
      rcases h with hx | ⟨y, -, hrest⟩
      · exact ⟨x, List.mem_cons_self, hx⟩
      · obtain ⟨x', hx', hfault⟩ := ih hrest
        exact ⟨x', List.mem_cons_of_mem _ hx', hfault⟩

end Outcome

end AbiBindings
