import AbiBindings.Proofs.Descriptor.Checks

/-!
# The checks of unions

The guards of a union are those of its members, and the members of a member
that is a union itself count in its place.  Its check is nested as the union is:
the disjunction of the checks of the members.  So there are two ways to ask
whether a value has the type, and `eval_check_iff` says when they agree: the
check passes when one of the guards accepts the value, or when a union without
members stands somewhere in the union, which is checked as if it were guarded
against `undefined` but has no guard.

`checks_agree_with_guards` leaves such unions out.  Then types without a common
guard never pass one value, unless one of them is a type parameter, whose guard
accepts everything but `undefined`.
-/

namespace AbiBindings

open Script

namespace Descriptor

/-- The descriptor stands in the other one: it is that descriptor, or stands in
a member of the union that it is. -/
inductive Within (d : Descriptor) : Descriptor → Prop where
  | self : Within d d
  | member {m : Descriptor} {members : List Descriptor} (hm : m ∈ members)
      (inside : Within d m) : Within d (.union members)

/-- Nothing stands in what is no union, but itself. -/
theorem within_iff_eq {d e : Descriptor} (h : ∀ members, e ≠ .union members) :
    Within d e ↔ d = e := by
  constructor
  · rintro (_ | ⟨_, _⟩)
    · rfl
    · exact absurd rfl (h _)
  · rintro rfl
    exact .self

theorem within_union {d : Descriptor} {members : List Descriptor} :
    Within d (.union members) ↔ d = .union members ∨ ∃ m ∈ members, Within d m := by
  constructor
  · rintro (_ | ⟨hm, inside⟩)
    · exact .inl rfl
    · exact .inr ⟨_, hm, inside⟩
  · rintro (rfl | ⟨m, hm, inside⟩)
    · exact .self
    · exact .member hm inside

/-- A property of all descriptors is shown for unions from their members. -/
@[elab_as_elim]
theorem induction_on_unions {motive : Descriptor → Prop} (d : Descriptor)
    (plain : ∀ d : Descriptor, (∀ members, d ≠ .union members) → motive d)
    (union : ∀ members : List Descriptor, (∀ m ∈ members, motive m) → motive (.union members)) :
    motive d := by
  cases d with
  | union members =>
      exact union members fun m hm => induction_on_unions m plain union
  | _ => exact plain _ (by simp)
termination_by sizeOf d

/-- The guards of several descriptors are those of each of them. -/
theorem mem_guardsOfAll {g : Guard} {ds : List Descriptor} :
    g ∈ guardsOfAll ds ↔ ∃ d ∈ ds, g ∈ d.guards := by
  induction ds with
  | nil => simp [guardsOfAll]
  | cons d rest ih => simp [guardsOfAll, ih]

/-- Only a type parameter makes a type accept everything. -/
theorem any_not_mem_guards {d : Descriptor} (h : ∀ name, ¬ Within (.generic name) d) :
    Guard.any ∉ d.guards := by
  induction d using induction_on_unions with
  | plain d hd =>
      rw [guards_of_ne_union hd, List.mem_singleton]
      intro hany
      cases d with
      | union members => exact hd members rfl
      | generic name => exact h name .self
      | _ => cases hany
  | union members ih =>
      rw [guards, mem_guardsOfAll]
      rintro ⟨m, hm, hany⟩
      exact ih m hm (fun name inside => h name (.member hm inside)) hany

/-- The value has the type: a guard of the descriptor accepts it, or it is not
`undefined` and a union without members stands in the descriptor. -/
def Admits (d : Descriptor) (v : Value) : Prop :=
  (∃ g ∈ d.guards, g.accepts v = true) ∨ Within (.union []) d ∧ Guard.any.accepts v = true

/-- What is no union admits what its guard accepts. -/
theorem admits_iff {d : Descriptor} {v : Value} (h : ∀ members, d ≠ .union members) :
    d.Admits v ↔ d.guard.accepts v = true := by
  have hempty : ¬ Within (.union []) d := by
    rw [within_iff_eq h]
    exact (h []).symm
  simp [Admits, guards_of_ne_union h, hempty]

/-- A union without members admits all but `undefined`. -/
theorem admits_empty_union {v : Value} :
    (union []).Admits v ↔ Guard.any.accepts v = true := by
  simp [Admits, guards, guardsOfAll, Within.self]

/-- A union with members admits what one of them admits. -/
theorem admits_union {members : List Descriptor} (h : members ≠ []) {v : Value} :
    (union members).Admits v ↔ ∃ m ∈ members, m.Admits v := by
  have hguards : (∃ g ∈ (union members).guards, g.accepts v = true) ↔
      ∃ m ∈ members, ∃ g ∈ m.guards, g.accepts v = true := by
    simp only [guards, mem_guardsOfAll]
    grind
  have hempty : Within (.union []) (.union members) ↔
      ∃ m ∈ members, Within (.union []) m := by
    simp [within_union, h.symm]
  rw [Admits, hguards, hempty]
  simp only [Admits]
  grind

section Evaluation

variable {env : Env} {subject : Expr} {v : Value}

/-- Where each of several checks has a value, they have them together. -/
theorem eval_checks {ds : List Descriptor}
    (h : ∀ d ∈ ds, ∃ passes : Bool, (d.check subject).eval? env = some (.boolean passes) ∧
      (passes = true ↔ d.Admits v)) :
    ∃ bs : List Bool,
      List.Forall₂ (fun e b => e.eval? env = some (.boolean b)) (checks subject ds) bs ∧
        (true ∈ bs ↔ ∃ d ∈ ds, d.Admits v) := by
  induction ds with
  | nil => exact ⟨[], .nil, by simp⟩
  | cons d rest ih =>
      obtain ⟨hd, hrest⟩ := List.forall_mem_cons.mp h
      obtain ⟨b, hb, hadmits⟩ := hd
      obtain ⟨bs, hbs, hsome⟩ := ih hrest
      exact ⟨b :: bs, .cons hb hbs, by simp [hadmits, hsome, eq_comm]⟩

/-- **Checks of unions.**  The check of a descriptor has a value, which is
whether the descriptor admits the value of what is checked. -/
theorem eval_check_iff (henv : env.KeepsGlobals) (hv : subject.eval? env = some v)
    (d : Descriptor) : ∃ passes : Bool,
      (d.check subject).eval? env = some (.boolean passes) ∧ (passes = true ↔ d.Admits v) := by
  induction d using induction_on_unions with
  | plain d hd =>
      refine ⟨_, ?_, (admits_iff hd).symm⟩
      rw [check_of_ne_union hd]
      exact Guard.eval_check_of_eval henv hv _
  | union members ih =>
      cases members with
      | nil => exact ⟨_, Guard.eval_check_of_eval henv hv .any, admits_empty_union.symm⟩
      | cons first rest =>
          obtain ⟨hfirst, hrest⟩ := List.forall_mem_cons.mp ih
          obtain ⟨b, hb, hadmits⟩ := hfirst
          obtain ⟨bs, hbs, hsome⟩ := eval_checks hrest
          obtain ⟨test, htest, heval⟩ := eval_anyOf hb hbs
          refine ⟨(b :: bs).any id, ?_, ?_⟩
          · rw [check, checks, htest]
            exact heval
          · rw [admits_union (List.cons_ne_nil _ _)]
            simp [hadmits, hsome]

/-- **Checks and guards agree.**  Whatever is checked, the check of a descriptor
without empty unions has a value, and it is true exactly if a guard of the
descriptor accepts the value that is checked.  So the check is false on
`undefined`, and of two descriptors without type parameters and without a common
guard at most one check is true. -/
theorem checks_agree_with_guards (henv : env.KeepsGlobals)
    (hv : subject.eval? env = some v) :
    (∀ d : Descriptor, ¬ Within (.union []) d → ∃ passes : Bool,
      (d.check subject).eval? env = some (.boolean passes) ∧
        (passes = true ↔ ∃ g ∈ d.guards, g.accepts v = true)) ∧
    (∀ d : Descriptor, ¬ Within (.union []) d → v = .undefined →
      (d.check subject).eval? env = some (.boolean false)) ∧
    ∀ d e : Descriptor, ¬ Within (.union []) d → ¬ Within (.union []) e →
      (∀ name, ¬ Within (.generic name) d) → (∀ name, ¬ Within (.generic name) e) →
      (∀ g ∈ d.guards, g ∉ e.guards) →
        ¬ (env.Holds (d.check subject) ∧ env.Holds (e.check subject)) := by
  have hagree : ∀ d : Descriptor, ¬ Within (.union []) d → ∃ passes : Bool,
      (d.check subject).eval? env = some (.boolean passes) ∧
        (passes = true ↔ ∃ g ∈ d.guards, g.accepts v = true) := by
    intro d hempty
    obtain ⟨passes, heval, hpasses⟩ := eval_check_iff henv hv d
    refine ⟨passes, heval, hpasses.trans ?_⟩
    simp [Admits, hempty]
  have hguard : ∀ d : Descriptor, ¬ Within (.union []) d → env.Holds (d.check subject) →
      ∃ g ∈ d.guards, g.accepts v = true := by
    intro d hempty hholds
    obtain ⟨passes, heval, hpasses⟩ := hagree d hempty
    cases hholds.symm.trans heval
    exact hpasses.mp rfl
  refine ⟨hagree, ?_, ?_⟩
  · rintro d hempty rfl
    obtain ⟨passes, heval, hpasses⟩ := hagree d hempty
    cases passes with
    | false => exact heval
    | true =>
        obtain ⟨g, -, haccepts⟩ := hpasses.mp rfl
        simp at haccepts
  · rintro d e hd he hdGeneric heGeneric hdisjoint ⟨hdHolds, heHolds⟩
    obtain ⟨g, hg, hgv⟩ := hguard d hd hdHolds
    obtain ⟨h, hh, hhv⟩ := hguard e he heHolds
    have hgAny : g ≠ .any := fun heq => any_not_mem_guards hdGeneric (heq ▸ hg)
    have hhAny : h ≠ .any := fun heq => any_not_mem_guards heGeneric (heq ▸ hh)
    exact hdisjoint g hg (Guard.eq_of_accepts hgAny hhAny hgv hhv ▸ hh)

end Evaluation

/-- A nested union, and one that shares no guard with it. -/
theorem checks_agree_with_guards_nested :
    (Env.ofArguments ["to"] [.buffer 0]).KeepsGlobals ∧
      (Expr.ident "to").eval? (Env.ofArguments ["to"] [.buffer 0]) = some (.buffer 0) ∧
      ¬ Within (.union []) (.union [.union [.integer, .string], .bytes]) ∧
      (Env.ofArguments ["to"] [.buffer 0]).Holds
        (check (.ident "to") (.union [.union [.integer, .string], .bytes])) ∧
      ¬ (Env.ofArguments ["to"] [.buffer 0]).Holds
        (check (.ident "to") (.union [.boolean, .array .integer])) := by
  have henv : (Env.ofArguments ["to"] [.buffer 0]).KeepsGlobals := ⟨rfl, rfl, rfl⟩
  have hv : (Expr.ident "to").eval? (Env.ofArguments ["to"] [.buffer 0]) = some (.buffer 0) := rfl
  have hfirst : ¬ Within (.union []) (.union [.union [.integer, .string], .bytes]) := by
    simp [within_union, within_iff_eq]
  have hsecond : ¬ Within (.union []) (.union [.boolean, .array .integer]) := by
    simp [within_union, within_iff_eq]
  have hfirstGeneric : ∀ name,
      ¬ Within (.generic name) (.union [.union [.integer, .string], .bytes]) := by
    simp [within_union, within_iff_eq]
  have hsecondGeneric : ∀ name, ¬ Within (.generic name) (.union [.boolean, .array .integer]) := by
    simp [within_union, within_iff_eq]
  obtain ⟨hagree, -, hapart⟩ := checks_agree_with_guards henv hv
  have hholds : (Env.ofArguments ["to"] [.buffer 0]).Holds
      (check (.ident "to") (.union [.union [.integer, .string], .bytes])) := by
    obtain ⟨passes, heval, hpasses⟩ := hagree _ hfirst
    have hpass : passes = true := hpasses.mpr ⟨.buffer, by decide, rfl⟩
    rwa [hpass] at heval
  refine ⟨henv, hv, hfirst, hholds, fun hother => ?_⟩
  exact hapart _ _ hfirst hsecond hfirstGeneric hsecondGeneric (by decide) ⟨hholds, hother⟩

end Descriptor

end AbiBindings
