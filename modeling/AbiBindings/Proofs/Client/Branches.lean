import AbiBindings.Client.Encode
import AbiBindings.Proofs.Descriptor.Checks

/-!
# The branches of an encoder

Whatever the group, an encoder is a closure over the parameters of the group,
and each statement of it is the branch of some function, behind checks of some
of these parameters, or the throw at the end (`branches_of_encoder`).
-/

namespace AbiBindings.Client

open Script Interface

variable {g : MethodGroup}

/-- The check of some parameter of the group: that it was left out, or that it
has some guard. -/
def IsCheck (g : MethodGroup) (e : Expr) : Prop :=
  ∃ p ∈ g.params, e = .equals (.ident p.ident) .undefined ∨
    ∃ guard : Guard, e = guard.check (.ident p.ident)

/-- The branch of some function of the group, behind checks that all have to
pass. -/
def IsBranch (g : MethodGroup) (s : Stmt) : Prop :=
  ∃ f ∈ g.overloads, ∃ checks, (∀ c ∈ checks, IsCheck g c) ∧
    s = dispatch g f (Expr.allOf? checks)

/-- Mapped types are checked by one guard. -/
theorem isCheck_of_overloadType {f : Abi.Function} {p : GroupParam} (hp : p ∈ g.params)
    {d : Option Descriptor} (h : (g.overloadType f p).result = .ok d) :
    IsCheck g (paramCheck p d) := by
  cases d with
  | none => exact ⟨p, hp, .inl rfl⟩
  | some d =>
      unfold MethodGroup.overloadType at h
      split at h
      · simp only [Outcome.result_map, map_eq_ok] at h
        obtain ⟨d', hd', heq⟩ := h
        cases heq
        have hguard := Descriptor.ofParam_guard_ne_any hd'
        exact ⟨p, hp, .inr ⟨d.guard, Descriptor.check_eq_guard_check hguard _⟩⟩
      · cases h

/-- The checks for a function are checks of parameters. -/
theorem isCheck_of_paramChecks {f : Abi.Function} {params : List GroupParam}
    (hparams : ∀ p ∈ params, p ∈ g.params) {checks : List Expr}
    (h : (paramChecks g f params).result = .ok checks) : ∀ c ∈ checks, IsCheck g c := by
  induction params generalizing checks with
  | nil =>
      cases h
      simp
  | cons p rest ih =>
      obtain ⟨hp, hrest⟩ := List.forall_mem_cons.mp hparams
      simp only [paramChecks, Outcome.result_bind, Outcome.result_pure, bind_eq_ok] at h
      obtain ⟨d, hd, others, hothers, h⟩ := h
      cases h
      exact List.forall_mem_cons.mpr ⟨isCheck_of_overloadType hp hd, ih hrest hothers⟩

/-- What picks one of some functions is a branch for each of them. -/
theorem isBranch_of_dispatchAll {fs : List Abi.Function} (hfs : ∀ f ∈ fs, f ∈ g.overloads)
    {branches : List Stmt} (h : (dispatchAll g fs).result = .ok branches) :
    ∀ s ∈ branches, IsBranch g s := by
  induction fs generalizing branches with
  | nil =>
      cases h
      simp
  | cons f rest ih =>
      obtain ⟨hf, hrest⟩ := List.forall_mem_cons.mp hfs
      simp only [dispatchAll, dispatchCondition, Outcome.result_bind, Outcome.result_map,
        Outcome.result_pure, bind_eq_ok, map_eq_ok] at h
      obtain ⟨test, ⟨checks, hchecks, rfl⟩, others, hothers, h⟩ := h
      cases h
      have hall := isCheck_of_paramChecks (fun _ hp => hp) hchecks
      exact List.forall_mem_cons.mpr ⟨⟨f, hf, checks, hall, rfl⟩, ih hrest hothers⟩

/-- **Encoders.**  An encoder takes the parameters of its group and has
nothing but branches in it, and perhaps the throw. -/
theorem branches_of_encoder {e : Expr} (h : (encoder g).result = .ok e) :
    ∃ body, e = .arrow [] g.parameters none body ∧
      ∀ s ∈ body, IsBranch g s ∨ s = noOverload g := by
  unfold encoder at h
  split at h
  · simp only [Outcome.result_bind, Outcome.result_pure, bind_eq_ok] at h
    obtain ⟨branches, hok, h⟩ := h
    cases h
    refine ⟨_, rfl, ?_⟩
    intro s hs
    rcases List.mem_append.mp hs with hs | hs
    · exact .inl (isBranch_of_dispatchAll (fun _ hf => hf) hok s hs)
    · exact .inr (List.mem_singleton.mp hs)
  · cases h
    refine ⟨_, rfl, ?_⟩
    intro s hs
    rw [List.mem_singleton.mp hs]
    exact .inl ⟨g.first, List.mem_cons_self, [], by simp, rfl⟩

end AbiBindings.Client
