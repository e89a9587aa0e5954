import AbiBindings.Descriptor.Code
import AbiBindings.Descriptor.OfParam
import AbiBindings.Proofs.Script.Evaluation
import AbiBindings.Proofs.Sequencing

/-!
# What the checks of mapped types accept

The descriptor of an ABI type is neither a union nor a type parameter
(`Descriptor.ofParam_guard_ne_any`), so it has one guard, and its check is the
check of that guard.  Where the globals keep their meaning the check has a
value: whether the guard accepts the argument (`Guard.eval_check`).  No guard
accepts `undefined`, and two guards of mapped types that accept one value are
the same guard.
-/

namespace AbiBindings

open Script

namespace Guard

/-- Whether a value passes the guard. -/
def accepts : Guard → Value → Bool
  | .number, v => v.typeName == "number"
  | .boolean, v => v.typeName == "boolean"
  | .string, v => v.typeName == "string"
  | .buffer, v => v.isBuffer
  | .array, v => v.isArray
  | .any, v => v.typeName != "undefined"

/-- No guard accepts an argument that was left out. -/
@[simp]
theorem accepts_undefined (g : Guard) : g.accepts .undefined = false := by
  cases g <;> rfl

/-- A value passes one guard at most, the guard of everything apart. -/
theorem eq_of_accepts {g h : Guard} {v : Value} (hg : g ≠ .any) (hh : h ≠ .any)
    (hgv : g.accepts v = true) (hhv : h.accepts v = true) : g = h := by
  cases v <;> cases g <;> cases h <;>
    simp_all [accepts, Value.typeName, Value.isBuffer, Value.isArray]

end Guard

/-- The environment leaves the global names alone that the checks use. -/
structure Script.Env.KeepsGlobals (env : Env) : Prop where
  buffer : env "Buffer" = none
  array : env "Array" = none
  undefined : env "undefined" = none

namespace Guard

/-- **Checks decide guards.**  The check of a guard has a value, which is
whether the guard accepts the value of what is checked. -/
theorem eval_check_of_eval {env : Env} (henv : env.KeepsGlobals) {subject : Expr} {v : Value}
    (hv : subject.eval? env = some v) (g : Guard) :
    (g.check subject).eval? env = some (.boolean (g.accepts v)) := by
  have hbuffer := henv.buffer
  have harray := henv.array
  have hundefined := henv.undefined
  cases g with
  | number | boolean | string =>
      simp [check, Expr.equals, Expr.eval?, hv, accepts, Value.strictEq]
  | buffer | array =>
      simp [check, Expr.method, Expr.apply, Expr.eval?, hv, accepts, Value.test?,
        hbuffer, harray]
  | any =>
      cases v <;> simp [check, Expr.eval?, hv, hundefined, accepts, Value.strictEq,
        Value.typeName]

/-- A check of a name decides what the name is bound to. -/
theorem eval_check {env : Env} (henv : env.KeepsGlobals) {name : String} {v : Value}
    (hv : env name = some v) (g : Guard) :
    (g.check (.ident name)).eval? env = some (.boolean (g.accepts v)) :=
  eval_check_of_eval henv (by rw [Expr.eval?, hv]) g

end Guard

/-- Whether an argument was left out is decided in the same way. -/
theorem Script.Expr.eval_equals_undefined {env : Env} (henv : env.KeepsGlobals)
    {name : String} {v : Value} (hv : env name = some v) :
    (Expr.equals (.ident name) .undefined).eval? env =
      some (.boolean (v.strictEq .undefined)) := by
  simp [Expr.equals, Expr.eval?, hv, henv.undefined]

/-- Only `undefined` is strictly equal to it. -/
theorem Script.Value.strictEq_undefined {v : Value} :
    v.strictEq .undefined = true ↔ v = .undefined := by
  cases v <;> simp [Value.strictEq]

namespace Descriptor

/-- Array layers keep a guard from accepting everything. -/
theorem layered_guard_ne_any {d : Descriptor} (h : d.guard ≠ .any) (layers : Nat) :
    (layered layers d).guard ≠ .any := by
  cases layers with
  | zero => exact h
  | succ n => simp [layered, guard]

/-- A tuple of components is guarded as an array. -/
theorem ofComponents_guard {path : String} {components : Option (List Abi.Param)}
    {d : Descriptor} (h : (ofComponents path components).result = .ok d) :
    d.guard = .array := by
  match components with
  | none => simp [ofComponents] at h
  | some [] => simp [ofComponents] at h
  | some (c :: rest) =>
      simp only [ofComponents, Outcome.result_bind, Outcome.result_pure, bind_eq_ok] at h
      obtain ⟨first, -, others, -, h⟩ := h
      cases h
      rfl

/-- **Mapped types are plain.**  The descriptor of a parameter is no union and
no type parameter: its guard tells something. -/
theorem ofParam_guard_ne_any {scope : String} {p : Abi.Param} {d : Descriptor}
    (h : (ofParam scope p).result = .ok d) : d.guard ≠ .any := by
  obtain ⟨name, kind, internalType, components, indexed⟩ := p
  simp only [ofParam, Outcome.result_map, map_eq_ok] at h
  obtain ⟨base, hbase, rfl⟩ := h
  apply layered_guard_ne_any
  split at hbase
  case h_6 => rw [ofComponents_guard hbase]; decide
  all_goals
    simp at hbase
    subst hbase
    decide

section Plain

variable {d : Descriptor}

/-- What is no union has its own guard only. -/
theorem guards_of_ne_union (h : ∀ members, d ≠ .union members) : d.guards = [d.guard] := by
  cases d with
  | union members => exact absurd rfl (h members)
  | _ => rfl

/-- What is no union is checked by its guard. -/
theorem check_of_ne_union (h : ∀ members, d ≠ .union members) (subject : Expr) :
    d.check subject = d.guard.check subject := by
  cases d with
  | union members => exact absurd rfl (h members)
  | _ => rfl

/-- A descriptor whose guard tells something is no union. -/
theorem ne_union_of_guard (h : d.guard ≠ .any) (members : List Descriptor) :
    d ≠ .union members := by
  rintro rfl
  exact h rfl

/-- A descriptor whose guard tells something has that guard alone. -/
theorem guards_eq_singleton (h : d.guard ≠ .any) : d.guards = [d.guard] :=
  guards_of_ne_union (ne_union_of_guard h)

/-- A descriptor whose guard tells something is checked by that guard. -/
theorem check_eq_guard_check (h : d.guard ≠ .any) (subject : Expr) :
    d.check subject = d.guard.check subject :=
  check_of_ne_union (ne_union_of_guard h) subject

end Plain

end Descriptor

end AbiBindings
