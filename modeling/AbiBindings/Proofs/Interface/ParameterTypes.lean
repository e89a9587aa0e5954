import AbiBindings.Proofs.Interface.Members
import AbiBindings.Proofs.Interface.MergedTypes

/-!
# The types of method parameters

A parameter of a method has the descriptors that the functions behind the
method take under its name, and no others, whether these functions were
combined or one of them stands alone (`descriptor_of_mem_params`).
-/

namespace AbiBindings.Interface

open Descriptor

/-- The type of a merged parameter is made of descriptors that its inputs
have. -/
theorem descriptor_of_mem_merged {inputs : InputShape} {p : String × Descriptor}
    (hp : p ∈ merged inputs) :
    ∃ ds, p.2 = ofMembers ds ∧ ∀ d ∈ ds, (p.1, d) ∈ inputs := by
  obtain ⟨name, -, rfl⟩ := List.mem_map.mp hp
  exact ⟨_, rfl, fun d hd => mem_taken.mp (by simpa using hd)⟩

/-- **Parameter types.**  The type of a parameter is made of descriptors that
the functions behind the method take under its name. -/
theorem descriptor_of_mem_params {contract : Contract} {policy : Policy} {face : Interface}
    (h : (ofContract contract policy).result = .ok face) {g : MethodGroup}
    (hg : g ∈ face.methods) {p : GroupParam} (hp : p ∈ g.params) :
    ∃ ds, p.descriptor = ofMembers ds ∧ ∀ d ∈ ds, Takes g.name g.overloads p.name d := by
  obtain ⟨plan, -, hmember, -⟩ := plan_of_mem_methods h hg
  cases policy with
  | combine =>
      obtain ⟨params, shapes, hmerge, -, -, rfl⟩ := combined_eq_ok.mp hmember
      obtain ⟨hshapes, -, rfl⟩ := mergeAll_nil_eq_ok.mp hmerge
      obtain ⟨entry, hentry, rfl⟩ := List.mem_map.mp hp
      obtain ⟨ds, heq, hall⟩ := descriptor_of_mem_merged hentry
      exact ⟨ds, heq, fun d hd => (mem_flatten_shapes hshapes).mp (hall d hd)⟩
  | mangle =>
      simp only [memberOf, alone, Outcome.result_bind, Outcome.result_pure, bind_eq_ok]
        at hmember
      obtain ⟨shape, hshape, hmember⟩ := hmember
      cases hmember
      obtain ⟨entry, hentry, rfl⟩ := List.mem_map.mp hp
      refine ⟨[entry.2], rfl, ?_⟩
      intro d hd
      rw [List.mem_singleton.mp hd]
      exact .of_mem List.mem_cons_self hshape hentry

end AbiBindings.Interface
