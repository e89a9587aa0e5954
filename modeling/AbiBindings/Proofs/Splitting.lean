import Mathlib.Data.List.Basic

/-!
# Taking lists apart

A list that was put together can be taken apart again where the parts can be
told by what is in them: at the first item of some kind (`append_inj_at`), at
the last one (`append_cons_inj_last`), at each separator between parts that do
not hold it (`intercalate_inj`) or behind each part (`flatMap_concat_inj`).
What the parts stand for is then compared part by part (`map_eq_map`), so it is
told by the whole list (`map_eq_of_intercalate`, `map_eq_of_flatMap`).
-/

namespace AbiBindings

variable {α β : Type}

/-- A list can be taken apart in one place only where the second part starts
with the first item of some kind. -/
theorem append_inj_at (stop : α → Prop) {a b r s : List α} (ha : ∀ c ∈ a, ¬ stop c)
    (hb : ∀ c ∈ b, ¬ stop c) (hr : ∀ c ∈ r.head?, stop c) (hs : ∀ c ∈ s.head?, stop c)
    (h : a ++ r = b ++ s) : a = b ∧ r = s := by
  induction a generalizing b with
  | nil =>
      cases b with
      | nil => exact ⟨rfl, h⟩
      | cons d b =>
          have hd : stop d := hr d (by simp [show r = d :: (b ++ s) from h])
          exact absurd hd (hb d List.mem_cons_self)
  | cons c a ih =>
      cases b with
      | nil =>
          have hc : stop c := hs c (by simp [show s = c :: (a ++ r) from h.symm])
          exact absurd hc (ha c List.mem_cons_self)
      | cons d b =>
          obtain ⟨rfl, hrest⟩ := List.cons.inj h
          obtain ⟨rfl, heq⟩ := ih (fun x hx => ha x (List.mem_cons_of_mem _ hx))
            (fun x hx => hb x (List.mem_cons_of_mem _ hx)) hrest
          exact ⟨rfl, heq⟩

/-- A list can be taken apart in one place only at its first item of some
kind. -/
theorem append_cons_inj_first (stop : α → Prop) {x y : α} {a b r s : List α}
    (ha : ∀ c ∈ a, ¬ stop c) (hb : ∀ c ∈ b, ¬ stop c) (hx : stop x) (hy : stop y)
    (h : a ++ x :: r = b ++ y :: s) : a = b ∧ x = y ∧ r = s := by
  obtain ⟨hfront, hrest⟩ := append_inj_at stop ha hb (by simpa using hx) (by simpa using hy) h
  exact ⟨hfront, List.cons.inj hrest⟩

/-- A list can be taken apart in one place only at its last item of some
kind. -/
theorem append_cons_inj_last (stop : α → Prop) {x y : α} {a b r s : List α}
    (hr : ∀ c ∈ r, ¬ stop c) (hs : ∀ c ∈ s, ¬ stop c) (hx : stop x) (hy : stop y)
    (h : a ++ x :: r = b ++ y :: s) : a = b ∧ x = y ∧ r = s := by
  have hreverse : r.reverse ++ x :: a.reverse = s.reverse ++ y :: b.reverse := by
    simpa using congrArg List.reverse h
  obtain ⟨hrest, hitem, hfront⟩ := append_cons_inj_first stop (by simpa using hr)
    (by simpa using hs) hx hy hreverse
  exact ⟨List.reverse_injective hfront, hitem, List.reverse_injective hrest⟩

/-- Parts that are not empty and do not hold the separator between them can be
told from the list that they make. -/
theorem intercalate_inj {sep : α} {xs ys : List (List α)}
    (hxs : ∀ x ∈ xs, x ≠ [] ∧ sep ∉ x) (hys : ∀ y ∈ ys, y ≠ [] ∧ sep ∉ y)
    (h : List.intercalate [sep] xs = List.intercalate [sep] ys) : xs = ys := by
  have hsome : ∀ {x : List α} {rest : List (List α)}, x ≠ [] →
      List.intercalate [sep] (x :: rest) ≠ [] := by
    intro x rest hx hnil
    cases rest <;> simp_all [List.intercalate_cons_cons]
  induction xs generalizing ys with
  | nil =>
      cases ys with
      | nil => rfl
      | cons y ys => exact absurd h.symm (hsome (hys y List.mem_cons_self).1)
  | cons x xs ih =>
      cases ys with
      | nil => exact absurd h (hsome (hxs x List.mem_cons_self).1)
      | cons y ys =>
          obtain ⟨⟨-, hx⟩, hxrest⟩ := List.forall_mem_cons.mp hxs
          obtain ⟨⟨-, hy⟩, hyrest⟩ := List.forall_mem_cons.mp hys
          cases xs with
          | nil =>
              cases ys with
              | nil => simpa using h
              | cons y' ys =>
                  rw [List.intercalate_singleton, List.intercalate_cons_cons] at h
                  exact absurd (h ▸ by simp) hx
          | cons x' xs =>
              cases ys with
              | nil =>
                  rw [List.intercalate_singleton, List.intercalate_cons_cons] at h
                  exact absurd (h ▸ by simp) hy
              | cons y' ys =>
                  simp only [List.intercalate_cons_cons, List.append_assoc,
                    List.singleton_append] at h
                  obtain ⟨rfl, -, hrest⟩ := append_cons_inj_first (· = sep)
                    (fun c hc hsep => hx (hsep ▸ hc)) (fun c hc hsep => hy (hsep ▸ hc)) rfl rfl h
                  exact congrArg _ (ih hxrest hyrest hrest)

/-- Parts that do not hold what ends each of them can be told from the list that
they make. -/
theorem flatMap_concat_inj {stop : α} {xs ys : List (List α)} (hxs : ∀ x ∈ xs, stop ∉ x)
    (hys : ∀ y ∈ ys, stop ∉ y)
    (h : xs.flatMap (· ++ [stop]) = ys.flatMap (· ++ [stop])) : xs = ys := by
  induction xs generalizing ys with
  | nil =>
      cases ys with
      | nil => rfl
      | cons y ys => simp at h
  | cons x xs ih =>
      cases ys with
      | nil => simp at h
      | cons y ys =>
          obtain ⟨hx, hxrest⟩ := List.forall_mem_cons.mp hxs
          obtain ⟨hy, hyrest⟩ := List.forall_mem_cons.mp hys
          simp only [List.flatMap_cons, List.append_assoc, List.singleton_append] at h
          obtain ⟨rfl, -, hrest⟩ := append_cons_inj_first (· = stop)
            (fun c hc hstop => hx (hstop ▸ hc)) (fun c hc hstop => hy (hstop ▸ hc)) rfl rfl h
          exact congrArg _ (ih hxrest hyrest hrest)

/-- What stands in a list of parts is of a part or of the separator. -/
theorem mem_of_mem_intercalate {sep : List α} {parts : List (List α)} {c : α}
    (h : c ∈ List.intercalate sep parts) : c ∈ sep ∨ ∃ part ∈ parts, c ∈ part := by
  induction parts with
  | nil => simp at h
  | cons part rest ih =>
      cases rest with
      | nil => exact .inr ⟨part, by simp, by simpa using h⟩
      | cons next rest =>
          rw [List.intercalate_cons_cons, List.mem_append, List.mem_append] at h
          rcases h with (hpart | hsep) | hrest
          · exact .inr ⟨part, List.mem_cons_self, hpart⟩
          · exact .inl hsep
          · rcases ih hrest with hsep | ⟨p, hp, hc⟩
            · exact .inl hsep
            · exact .inr ⟨p, List.mem_cons_of_mem _ hp, hc⟩

theorem intercalate_nil_left (parts : List (List α)) :
    List.intercalate [] parts = parts.flatten := by
  induction parts with
  | nil => rfl
  | cons part rest ih =>
      cases rest with
      | nil => simp
      | cons next rest => simp [List.intercalate_cons_cons, ih]

/-- Values that cannot differ where the items do not are the same for the same
items. -/
theorem map_eq_map {γ δ : Type} {f : α → γ} {g : α → δ} {xs ys : List α}
    (h : xs.map f = ys.map f) (hunique : ∀ x ∈ xs, ∀ y ∈ ys, f x = f y → g x = g y) :
    xs.map g = ys.map g := by
  induction xs generalizing ys with
  | nil =>
      cases ys with
      | nil => rfl
      | cons y ys => cases h
  | cons x xs ih =>
      cases ys with
      | nil => cases h
      | cons y ys =>
          obtain ⟨hitem, hitems⟩ := List.cons.inj h
          have hvalue := hunique x List.mem_cons_self y List.mem_cons_self hitem
          rw [List.map_cons, List.map_cons, hvalue, ih hitems fun x hx y hy =>
            hunique x (List.mem_cons_of_mem _ hx) y (List.mem_cons_of_mem _ hy)]

/-- What parts between separators stand for can be told from the list that they
make. -/
theorem map_eq_of_intercalate {γ δ : Type} {sep : γ} {f : α → List γ} {g : α → δ} {xs ys : List α}
    (hxs : ∀ x ∈ xs, f x ≠ [] ∧ sep ∉ f x) (hys : ∀ y ∈ ys, f y ≠ [] ∧ sep ∉ f y)
    (hunique : ∀ x ∈ xs, ∀ y ∈ ys, f x = f y → g x = g y)
    (h : List.intercalate [sep] (xs.map f) = List.intercalate [sep] (ys.map f)) :
    xs.map g = ys.map g :=
  map_eq_map (intercalate_inj (List.forall_mem_map.mpr hxs) (List.forall_mem_map.mpr hys) h)
    hunique

/-- What parts with their ends stand for can be told from the list that they
make. -/
theorem map_eq_of_flatMap {γ δ : Type} {stop : γ} {f : α → List γ} {g : α → δ} {xs ys : List α}
    (hxs : ∀ x ∈ xs, stop ∉ f x) (hys : ∀ y ∈ ys, stop ∉ f y)
    (hunique : ∀ x ∈ xs, ∀ y ∈ ys, f x = f y → g x = g y)
    (h : (xs.map f).flatMap (· ++ [stop]) = (ys.map f).flatMap (· ++ [stop])) :
    xs.map g = ys.map g :=
  map_eq_map (flatMap_concat_inj (List.forall_mem_map.mpr hxs) (List.forall_mem_map.mpr hys) h)
    hunique

/-- Values that are each of some item are those of a list of items. -/
theorem exists_map_eq {f : α → β} {p : α → Prop} {ys : List β}
    (h : ∀ y ∈ ys, ∃ x, f x = y ∧ p x) : ∃ xs : List α, xs.map f = ys ∧ ∀ x ∈ xs, p x := by
  induction ys with
  | nil => exact ⟨[], rfl, by simp⟩
  | cons y rest ih =>
      obtain ⟨⟨x, rfl, hx⟩, hrest⟩ := List.forall_mem_cons.mp h
      obtain ⟨xs, rfl, hxs⟩ := ih hrest
      exact ⟨x :: xs, rfl, List.forall_mem_cons.mpr ⟨hx, hxs⟩⟩

end AbiBindings
