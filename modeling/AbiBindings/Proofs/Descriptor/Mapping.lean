import AbiBindings.Descriptor.Code
import AbiBindings.Descriptor.Combine
import AbiBindings.Descriptor.OfParam
import AbiBindings.Proofs.Script.Texts
import AbiBindings.Proofs.Sequencing

/-!
# What mapping a type ends with

Mapping follows the components of a parameter.  It ends with a fault only
where some tuple lacks components, and that is what the fault says
(`ofParam_eq_error`).  Where it ends with a descriptor, the type annotation
of the descriptor has no text of the parameter in it: the only name that it
refers to is the one of buffers (`texts_ty_ofParam`).
-/

namespace AbiBindings.Descriptor

open Script

mutual

/-- **Faults of mapping.**  The only fault is a tuple without components. -/
theorem ofParam_eq_error : (p : Abi.Param) → ∀ {scope : String} {fault : Fault},
    (ofParam scope p).result = .error fault → ∃ path, fault = .emptyTuple path
  | ⟨name, kind, _, components, _⟩, scope, fault => by
      intro h
      simp only [ofParam, Outcome.result_map, map_eq_error] at h
      split at h
      case h_6 => exact ofComponents_eq_error components h
      all_goals cases h

theorem ofComponents_eq_error : (components : Option (List Abi.Param)) →
    ∀ {path : String} {fault : Fault},
    (ofComponents path components).result = .error fault → ∃ path, fault = .emptyTuple path
  | none, path, fault => by
      intro h
      cases h
      exact ⟨path, rfl⟩
  | some [], path, fault => by
      intro h
      cases h
      exact ⟨path, rfl⟩
  | some (c :: rest), path, fault => by
      intro h
      simp only [ofComponents, Outcome.result_bind, Outcome.result_pure, bind_eq_error,
        reduceCtorEq, and_false, exists_false, or_false] at h
      rcases h with hfirst | ⟨d, -, hrest⟩
      · exact ofParam_eq_error c hfirst
      · exact ofParams_eq_error rest hrest

theorem ofParams_eq_error : (ps : List Abi.Param) → ∀ {scope : String} {fault : Fault},
    (ofParams scope ps).result = .error fault → ∃ path, fault = .emptyTuple path
  | [], _, _ => by
      intro h
      cases h
  | p :: rest, scope, fault => by
      intro h
      simp only [ofParams, Outcome.result_bind, Outcome.result_pure, bind_eq_error,
        reduceCtorEq, and_false, exists_false, or_false] at h
      rcases h with hp | ⟨d, -, hrest⟩
      · exact ofParam_eq_error p hp
      · exact ofParams_eq_error rest hrest

end

/-- The only text in type annotations is the name of buffers. -/
def OnlyBuffers (texts : List (Place × String)) : Prop :=
  ∀ x ∈ texts, x = (.reference, "Buffer")

theorem tys_eq_map (ds : List Descriptor) : tys ds = ds.map ty := by
  induction ds with
  | nil => rfl
  | cons d rest ih => simp [tys, ih]

theorem texts_ty_layered (layers : Nat) (d : Descriptor) :
    (layered layers d).ty.texts = d.ty.texts := by
  induction layers with
  | zero => rfl
  | succ n ih => simpa [layered, ty, Ty.texts] using ih

mutual

/-- **Type annotations of mapped types.** -/
theorem texts_ty_ofParam : (p : Abi.Param) → ∀ {scope : String} {d : Descriptor},
    (ofParam scope p).result = .ok d → OnlyBuffers d.ty.texts
  | ⟨name, kind, _, components, _⟩, scope, d => by
      intro h
      simp only [ofParam, Outcome.result_map, map_eq_ok] at h
      obtain ⟨base, hbase, rfl⟩ := h
      rw [texts_ty_layered]
      split at hbase
      case h_6 => exact texts_ty_ofComponents components hbase
      all_goals
        simp at hbase
        subst hbase
        simp [OnlyBuffers, ty, Ty.texts, Ty.named, Ty.textsOfAll]

theorem texts_ty_ofComponents : (components : Option (List Abi.Param)) →
    ∀ {path : String} {d : Descriptor},
    (ofComponents path components).result = .ok d → OnlyBuffers d.ty.texts
  | none, path, d => by
      intro h
      cases h
  | some [], path, d => by
      intro h
      cases h
  | some (c :: rest), path, d => by
      intro h
      simp only [ofComponents, Outcome.result_bind, Outcome.result_pure, bind_eq_ok] at h
      obtain ⟨first, hfirst, others, hothers, h⟩ := h
      cases h
      have hc := texts_ty_ofParam c hfirst
      have hrest := texts_tys_ofParams rest hothers
      simp only [ty, tys, Ty.texts, Ty.textsOfAll]
      exact List.forall_mem_append.mpr ⟨hc, hrest⟩

theorem texts_tys_ofParams : (ps : List Abi.Param) → ∀ {scope : String} {ds : List Descriptor},
    (ofParams scope ps).result = .ok ds → OnlyBuffers (Ty.textsOfAll (tys ds))
  | [], scope, ds => by
      intro h
      cases h
      simp [OnlyBuffers, tys, Ty.textsOfAll]
  | p :: rest, scope, ds => by
      intro h
      simp only [ofParams, Outcome.result_bind, Outcome.result_pure, bind_eq_ok] at h
      obtain ⟨first, hfirst, others, hothers, h⟩ := h
      cases h
      have hp := texts_ty_ofParam p hfirst
      have hrest := texts_tys_ofParams rest hothers
      simp only [tys, Ty.textsOfAll]
      exact List.forall_mem_append.mpr ⟨hp, hrest⟩

end

/-- The annotation of combined descriptors has the texts of theirs. -/
theorem texts_ty_ofMembers {ds : List Descriptor} (h : ∀ d ∈ ds, OnlyBuffers d.ty.texts) :
    OnlyBuffers (ofMembers ds).ty.texts := by
  have hunion : OnlyBuffers (Descriptor.union ds).ty.texts := by
    simp only [ty, Ty.texts, tys_eq_map, Ty.textsOfAll_eq]
    intro x hx
    obtain ⟨t, ht, hmem⟩ := List.mem_flatMap.mp hx
    obtain ⟨d, hd, rfl⟩ := List.mem_map.mp ht
    exact h d hd x hmem
  match ds with
  | [] => exact hunion
  | [d] => exact h d List.mem_cons_self
  | _ :: _ :: _ => exact hunion

end AbiBindings.Descriptor
