import AbiBindings.Proofs.Script.Bracketing
import AbiBindings.Proofs.Splitting

/-!
# Grammars in levels

A grammar with operators has a level for each of them, and what stands at some
place of a text has to be of the level of the place or of a tighter one.  In
parentheses everything stands by itself (`Leveled`).  So an operand is written
right, with parentheses or without, if none are left out where it is weaker
than its place (`IsWritten.operand`), and where the grammar gives a text one
reading only, what was printed is what is read (`IsWritten.read_iff`).
-/

namespace AbiBindings.Script

variable {α : Type} {reads : Nat → List Tree → α → Prop} {top : Nat}

/-- A grammar with levels: the trees are of that level or of a tighter one.
Level 1 is the weakest one, and what stands by itself is of level `top`.  A
comma stands at the top of nothing. -/
structure Leveled (reads : Nat → List Tree → α → Prop) (top : Nat) : Prop where
  tighter : ∀ {r ts x}, reads (r + 1) ts x → reads r ts x
  paren : ∀ {ts x}, reads 1 ts x → reads top [.group .paren ts] x
  ne_nil : ∀ {r ts x}, reads r ts x → ts ≠ []
  comma_not_mem : ∀ {r ts x}, reads r ts x → Tree.leaf (.mark .comma) ∉ ts

/-- The tokens are a text of that level. -/
def IsWritten (reads : Nat → List Tree → α → Prop) (width r : Nat) (x : α) (ts : List Token) :
    Prop :=
  ∃ trees, reads r trees x ∧ ∀ next, WordEnds next → Prints width next ts trees

namespace Leveled

variable (g : Leveled reads top)

include g

/-- What is of a level is of every weaker one. -/
theorem weaken {r s : Nat} {ts : List Tree} {x : α} (hs : s ≤ r) (h : reads r ts x) :
    reads s ts x := by
  obtain ⟨k, rfl⟩ := Nat.exists_eq_add_of_le hs
  induction k with
  | zero => exact h
  | succ k ih => exact ih (Nat.le_add_right s k) (g.tighter h)

/-- A list can be taken apart at its commas, so it is read in one way if each of
its parts is. -/
theorem commas_unique {xs ys : List (List Tree × α)} (hxs : ∀ x ∈ xs, reads 1 x.1 x.2)
    (hys : ∀ y ∈ ys, reads 1 y.1 y.2)
    (hunique : ∀ x ∈ xs, ∀ {s : Nat} {y : α}, reads s x.1 y → x.2 = y)
    (h : commas (xs.map Prod.fst) = commas (ys.map Prod.fst)) :
    xs.map Prod.snd = ys.map Prod.snd := by
  exact map_eq_of_intercalate (fun x hx => ⟨g.ne_nil (hxs x hx), g.comma_not_mem (hxs x hx)⟩)
    (fun y hy => ⟨g.ne_nil (hys y hy), g.comma_not_mem (hys y hy)⟩)
    (fun x hx y hy heq => hunique x hx (heq ▸ hys y hy)) h

end Leveled

namespace IsWritten

variable {width r s : Nat} {x : α} {ts : List Token}

theorem weaken (g : Leveled reads top) (h : IsWritten reads width r x ts) (hs : s ≤ r) :
    IsWritten reads width s x ts := by
  obtain ⟨trees, hreads, hprints⟩ := h
  exact ⟨trees, g.weaken hs hreads, hprints⟩

/-- An operand is of the level of its place, with parentheses or without. -/
theorem operand (g : Leveled reads top) (h : IsWritten reads width r x ts) (hr : 1 ≤ r)
    {loose : Bool} (hs : s ≤ top) (htight : loose = false → s ≤ r) :
    IsWritten reads width s x (Token.parenthesisedIf loose ts) := by
  cases loose with
  | true =>
      obtain ⟨trees, hreads, hprints⟩ := h
      have hinside := hprints (some ')') (wordEnds_some (by decide))
      exact ⟨_, g.weaken hs (g.paren (g.weaken hr hreads)), fun _ _ => hinside.parenthesised⟩
  | false => exact h.weaken g (htight rfl)

/-- What is written part by part can be listed with the trees of each part. -/
theorem exists_parts {xs : List α} {f : α → List Token}
    (h : ∀ x ∈ xs, IsWritten reads width r x (f x)) :
    ∃ items : List (List Tree × α), items.map Prod.snd = xs ∧ ∀ item ∈ items,
      reads r item.1 item.2 ∧ ∀ next, WordEnds next → Prints width next (f item.2) item.1 :=
  exists_map_eq fun x hx =>
    let ⟨trees, hreads, hprints⟩ := h x hx
    ⟨(trees, x), rfl, hreads, hprints⟩

theorem exists_commas {xs : List α} {f : α → List Token}
    (h : ∀ x ∈ xs, IsWritten reads width 1 x (f x)) :
    ∃ items : List (List Tree × α), items.map Prod.snd = xs ∧
      (∀ item ∈ items, reads 1 item.1 item.2) ∧
      ∀ next, WordEnds next → Prints width next (Token.commaSeparated (xs.map f))
        (commas (items.map Prod.fst)) := by
  obtain ⟨items, rfl, hitems⟩ := exists_parts h
  refine ⟨items, rfl, fun item hitem => (hitems item hitem).1, fun next hnext => ?_⟩
  rw [List.map_map]
  exact Prints.commaSeparated (wordEnds_some (by decide)) hnext fun item hitem =>
    (hitems item hitem).2

/-- What is written is what is read, if nothing else can be read. -/
theorem read_iff (h : IsWritten reads width 1 x ts)
    (hunique : ∀ {trees y}, reads 1 trees x → reads 1 trees y → x = y) (y : α) :
    (∃ trees, Forest.read? (Token.render width ts) = some trees ∧ reads 1 trees y) ↔ y = x := by
  obtain ⟨trees, hreads, hprints⟩ := h
  have htext : Forest.read? (Token.render width ts) = some trees :=
    (hprints none (by simp [WordEnds])).read?_render
  constructor
  · rintro ⟨trees', htrees, hreads'⟩
    obtain rfl := Option.some.inj (htext.symm.trans htrees)
    exact (hunique hreads hreads').symm
  · rintro rfl
    exact ⟨trees, htext, hreads⟩

end IsWritten

end AbiBindings.Script
