import AbiBindings.Fault
import AbiBindings.Warning

/-!
# Outcomes

An outcome is a value or the fault that took its place, beside the warnings
given on the way; a fault ends an operation but keeps the warnings before it.
`Outcome.result` forgets the warnings and respects sequencing (`result_bind`),
so a statement on values and faults never has to mention them.
-/

namespace AbiBindings

/-- A value or a fault, with the warnings given on the way. -/
structure Outcome (α : Type) where
  warnings : List Warning
  result : Except Fault α

namespace Outcome

variable {α β : Type}

/-- No value. -/
def fail (f : Fault) : Outcome α := ⟨[], .error f⟩

/-- A warning. -/
def warn (w : Warning) : Outcome Unit := ⟨[w], .ok ()⟩

/-- Several warnings. -/
def note (ws : List Warning) : Outcome Unit := ⟨ws, .ok ()⟩

/-- What was decided without warnings. -/
def ofExcept (x : Except Fault α) : Outcome α := ⟨[], x⟩

instance : Monad Outcome where
  pure a := ⟨[], .ok a⟩
  bind x f :=
    match x.result with
    | .ok a => ⟨x.warnings ++ (f a).warnings, (f a).result⟩
    | .error e => ⟨x.warnings, .error e⟩

instance : MonadLift (Except Fault) Outcome := ⟨ofExcept⟩

@[ext]
theorem ext {x y : Outcome α} (hw : x.warnings = y.warnings) (hr : x.result = y.result) :
    x = y := by
  cases x
  cases y
  simp_all

@[simp]
theorem result_pure (a : α) : (pure a : Outcome α).result = .ok a := rfl

@[simp]
theorem result_fail (f : Fault) : (fail f : Outcome α).result = .error f := rfl

@[simp]
theorem result_warn (w : Warning) : (warn w).result = .ok () := rfl

@[simp]
theorem result_note (ws : List Warning) : (note ws).result = .ok () := rfl

@[simp]
theorem result_ofExcept (x : Except Fault α) : (ofExcept x).result = x := rfl

/-- The result of a sequence is the sequence of the results. -/
@[simp]
theorem result_bind (x : Outcome α) (f : α → Outcome β) :
    (x >>= f).result = x.result >>= fun a => (f a).result := by
  obtain ⟨w, r⟩ := x
  cases r <;> rfl

@[simp]
theorem warnings_pure (a : α) : (pure a : Outcome α).warnings = [] := rfl

private theorem id_map (x : Outcome α) : id <$> x = x := by
  obtain ⟨w, r⟩ := x
  cases r <;> simp [Functor.map]

private theorem pure_bind (a : α) (f : α → Outcome β) : pure a >>= f = f a := by
  apply ext <;> simp [pure, bind]

private theorem bind_assoc {γ : Type} (x : Outcome α) (f : α → Outcome β) (g : β → Outcome γ) :
    x >>= f >>= g = x >>= fun a => f a >>= g := by
  obtain ⟨w, r⟩ := x
  cases r with
  | error e => rfl
  | ok a =>
      simp only [bind]
      cases (f a).result <;> simp

instance : LawfulMonad Outcome := LawfulMonad.mk' Outcome id_map pure_bind bind_assoc

@[simp]
theorem result_map (g : α → β) (x : Outcome α) : (g <$> x).result = g <$> x.result := by
  obtain ⟨w, r⟩ := x
  cases r <;> rfl

end Outcome

end AbiBindings
