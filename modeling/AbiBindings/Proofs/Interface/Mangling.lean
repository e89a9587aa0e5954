import AbiBindings.Proofs.Interface.Acceptance

/-!
# Mangling never rejects an overload

A function that is mangled stands alone, so nothing about other functions can
be wrong with it: it becomes a member as soon as its named inputs have
descriptors, and a name is found for it in any case.  A contract is
`Mangleable` when this holds of all its named functions, and a fault is always
one of the two that `Unmangleable` tells apart.

Combining asks for the same and for more, and it is about the same functions:
a contract that can be combined can be mangled, and both interfaces have the
same constructor and the same signatures (`mangle_succeeds_iff`).
-/

namespace AbiBindings.Interface

open Descriptor

section Plans

variable {policy : Policy} {entries : List Abi.Entry}

/-- A plan has named functions of its base name. -/
theorem baseName_of_mem_plan {plan : String × NameGroup Abi.Function}
    (hplan : plan ∈ (memberNames policy entries).1) {f : Abi.Function} (hf : f ∈ plan.2.items) :
    f ∈ Abi.namedFunctions entries ∧ baseName f.name = plan.2.name := by
  have hsnd : plan.2 ∈ (methodRequests policy entries).map Prod.snd := by
    rw [← Registry.snd_serveAll (openRegistry policy entries)]
    exact List.mem_map_of_mem hplan
  obtain ⟨request, hrequest, heq⟩ := List.mem_map.mp hsnd
  obtain ⟨g, hg, hrequest⟩ := List.mem_flatMap.mp hrequest
  have hsub : request.2.name = g.name ∧ ∀ f ∈ request.2.items, f ∈ g.items := by
    cases policy with
    | combine =>
        obtain rfl := List.mem_singleton.mp hrequest
        exact ⟨rfl, fun _ => id⟩
    | mangle =>
        simp only [methodPlans] at hrequest
        split at hrequest
        · obtain ⟨only, honly, rfl⟩ := List.mem_map.mp hrequest
          refine ⟨rfl, fun f hf => ?_⟩
          rwa [List.mem_singleton.mp hf]
        · obtain rfl := List.mem_singleton.mp hrequest
          exact ⟨rfl, fun _ => id⟩
  rw [← heq] at hf ⊢
  have hmem : f ∈ g.items := hsub.2 f hf
  rw [NameGroup.items_of_mem_group hg] at hmem
  obtain ⟨hnamed, hbase⟩ := List.mem_filter.mp hmem
  exact ⟨hnamed, by simpa [hsub.1] using hbase⟩

variable (policy) in
/-- Every named function is in some plan. -/
theorem exists_plan {f : Abi.Function} (hf : f ∈ Abi.namedFunctions entries) :
    ∃ plan ∈ (memberNames policy entries).1, f ∈ plan.2.items := by
  have hgrouped : f ∈ groupedBy (fun f => baseName f.name) (Abi.namedFunctions entries) :=
    (groupedBy_perm _ _).mem_iff.mpr hf
  rw [← memberNames_functions policy] at hgrouped
  exact List.mem_flatMap.mp hgrouped

end Plans

/-- Inputs have a shape when all named ones have descriptors. -/
theorem exists_inputShape_iff {scope : String} {inputs : List Abi.Param} :
    (∃ shape, (inputShape scope inputs).result = .ok shape) ↔
      ∀ p ∈ inputs, p.isNamed = true → ∃ d, (ofParam scope p).result = .ok d := by
  constructor
  · intro hall p hp hnamed
    obtain ⟨shape, hshape⟩ := hall
    obtain ⟨e, -, -, he⟩ := SideBySide.exists_value (inputShape_eq_ok.mp hshape)
      (List.mem_filter.mpr ⟨hp, hnamed⟩)
    exact ⟨e.2, he⟩
  · intro hall
    cases hresult : (inputShape scope inputs).result with
    | ok shape => exact ⟨shape, rfl⟩
    | error fault =>
        obtain ⟨p, hp, hnamed, herror⟩ := inputShape_eq_error hresult
        obtain ⟨d, hd⟩ := hall p hp hnamed
        simp [hd] at herror

/-- A function that stands alone is a member when its inputs have a shape. -/
theorem result_alone (ident : String) (g : NameGroup Abi.Function) :
    (alone ident g).result =
      (fun shape => { toNameGroup := g, ident, params := shape.map (groupParam [shape]) }) <$>
        (inputShape g.name g.first.inputs).result := by
  simp only [alone, Outcome.result_bind, Outcome.result_pure]
  cases (inputShape g.name g.first.inputs).result <;> rfl

/-- What a contract has to satisfy to have an interface when its functions are
mangled. -/
structure Mangleable (contract : Contract) : Prop where
  constructor_unique : (Abi.constructors contract.abi).length ≤ 1
  described : ∀ f ∈ Abi.namedFunctions contract.abi, ∀ p ∈ f.inputs, p.isNamed = true →
    ∃ d, (ofParam (baseName f.name) p).result = .ok d

/-- What a fault reports to be wrong with a contract whose functions are
mangled: two constructors or a tuple without components, and nothing else. -/
def Unmangleable (contract : Contract) : Fault → Prop
  | .duplicateConstructor name =>
      name = contract.name ∧ 1 < (Abi.constructors contract.abi).length
  | .emptyTuple path => ∃ f ∈ Abi.namedFunctions contract.abi, ∃ p ∈ f.inputs,
      p.isNamed = true ∧ (ofParam (baseName f.name) p).result = .error (.emptyTuple path)
  | _ => False

theorem Unmangleable.not_mangleable {contract : Contract} {fault : Fault}
    (h : Unmangleable contract fault) : ¬ Mangleable contract := by
  intro hall
  cases fault with
  | duplicateConstructor name => exact Nat.not_lt.mpr hall.constructor_unique h.2
  | emptyTuple path =>
      obtain ⟨f, hf, p, hp, hnamed, herror⟩ := h
      obtain ⟨d, hd⟩ := hall.described f hf p hp hnamed
      simp [hd] at herror
  | _ => exact h

/-- The functions behind the methods, each with its signature. -/
def signedFunctions (face : Interface) : List (Abi.Function × Signature) :=
  face.methods.flatMap fun g => g.overloads.map fun f => (f, f.signature)

section OfContract

variable {contract : Contract} {policy : Policy} {face : Interface}

/-- The constructor of an interface is the only one of the contract. -/
theorem constructors_ofContract (h : (ofContract contract policy).result = .ok face) :
    Abi.constructors contract.abi = face.constructor.toList := by
  obtain ⟨constructor, groups, hconstructor, -, rfl⟩ := ofContract_eq_ok.mp h
  simpa using constructorOf_eq_ok.mp hconstructor

/-- The signatures of an interface are those of the entries. -/
theorem signatures_ofContract (h : (ofContract contract policy).result = .ok face) :
    face.signatures = contract.abi.filterMap Abi.Entry.signature? := by
  obtain ⟨constructor, groups, -, -, rfl⟩ := ofContract_eq_ok.mp h
  rfl

/-- Under either policy the methods stand for the named functions in grouped
order, each with its own signature. -/
theorem signedFunctions_ofContract (h : (ofContract contract policy).result = .ok face) :
    signedFunctions face =
      (groupedBy (fun f => baseName f.name) (Abi.namedFunctions contract.abi)).map
        fun f => (f, f.signature) := by
  rw [← overloads_ofContract h, List.map_flatMap]
  rfl

theorem mangleable_of_ofContract_eq_ok
    (h : (ofContract contract .mangle).result = .ok face) : Mangleable contract := by
  constructor
  · rw [constructors_ofContract h]
    cases face.constructor <;> simp
  · intro f hf
    obtain ⟨plan, hplan, hmem⟩ := exists_plan .mangle hf
    obtain ⟨m, -, hresult, hsingle⟩ := SideBySide.exists_value (plans_ofContract h) hplan
    obtain ⟨-, hbase⟩ := baseName_of_mem_plan hplan hmem
    have honly : f = plan.2.first := by
      simpa [NameGroup.items, hsingle rfl] using hmem
    rw [memberOf, result_alone, map_eq_ok] at hresult
    obtain ⟨shape, hshape, -⟩ := hresult
    rw [hbase, honly]
    exact exists_inputShape_iff.mp ⟨shape, hshape⟩

theorem unmangleable_of_ofContract_eq_error {fault : Fault}
    (h : (ofContract contract .mangle).result = .error fault) : Unmangleable contract fault := by
  simp only [ofContract, Outcome.result_bind, Outcome.result_pure, bind_eq_error, reduceCtorEq,
    and_false, exists_false, or_false, methodGroups_eq_mapM] at h
  rcases h with hconstructor | ⟨constructor, -, hgroups⟩
  · obtain ⟨rfl, hmany⟩ := constructorOf_eq_error hconstructor
    exact ⟨rfl, by simpa using hmany⟩
  · obtain ⟨plan, hplan, halone⟩ := Outcome.exists_of_mapM_eq_error hgroups
    rw [memberOf, result_alone, map_eq_error] at halone
    obtain ⟨p, hp, hnamed, herror⟩ := inputShape_eq_error halone
    obtain ⟨path, rfl⟩ := ofParam_eq_error p herror
    obtain ⟨hmem, hbase⟩ := baseName_of_mem_plan hplan List.mem_cons_self
    exact ⟨plan.2.first, hmem, p, hp, hnamed, hbase ▸ herror⟩

/-- A contract that can be combined can be mangled. -/
theorem Acceptable.mangleable (h : Acceptable contract) : Mangleable contract := by
  refine ⟨h.constructor_unique, ?_⟩
  intro f hf
  have hsharing : f ∈ Abi.sharing contract.abi (baseName f.name) :=
    List.mem_filter.mpr ⟨hf, by simp⟩
  exact (h.combinable (baseName f.name)).described f hsharing

/-- A mangleable contract has an interface. -/
theorem Mangleable.exists_ofContract (h : Mangleable contract) :
    ∃ face, (ofContract contract .mangle).result = .ok face := by
  cases hresult : (ofContract contract .mangle).result with
  | ok face => exact ⟨face, rfl⟩
  | error fault => exact absurd h (unmangleable_of_ofContract_eq_error hresult).not_mangleable

/-- **What can be mangled.**  A contract has an interface when its functions
are mangled exactly when it has one constructor at most and every named input
of every named function has a descriptor; where it has none, the fault tells
which of these fails.  Whatever can be combined can be mangled, with the same
constructor, the same signatures and the same functions behind the methods,
which are all named functions, each with its own signature. -/
theorem mangle_succeeds_iff (contract : Contract) :
    ((∃ face, (ofContract contract .mangle).result = .ok face) ↔ Mangleable contract) ∧
    (∀ fault, (ofContract contract .mangle).result = .error fault →
      Unmangleable contract fault) ∧
    ∀ face, (ofContract contract .combine).result = .ok face →
      ∃ other, (ofContract contract .mangle).result = .ok other ∧
        other.constructor = face.constructor ∧ other.signatures = face.signatures ∧
        signedFunctions other = signedFunctions face ∧
        (signedFunctions face).Perm
          ((Abi.namedFunctions contract.abi).map fun f => (f, f.signature)) := by
  refine ⟨⟨?_, Mangleable.exists_ofContract⟩, ?_, ?_⟩
  · intro hall
    obtain ⟨face, hface⟩ := hall
    exact mangleable_of_ofContract_eq_ok hface
  · intro fault
    exact unmangleable_of_ofContract_eq_error
  · intro face hface
    have hmangleable : Mangleable contract := (acceptable_of_ofContract_eq_ok hface).mangleable
    obtain ⟨other, hother⟩ := hmangleable.exists_ofContract
    refine ⟨other, hother, ?_, ?_, ?_, ?_⟩
    · have hconstructors : other.constructor.toList = face.constructor.toList := by
        rw [← constructors_ofContract hother, ← constructors_ofContract hface]
      simpa using congrArg List.head? hconstructors
    · rw [signatures_ofContract hother, signatures_ofContract hface]
    · rw [signedFunctions_ofContract hother, signedFunctions_ofContract hface]
    · rw [signedFunctions_ofContract hface]
      exact (groupedBy_perm _ _).map _

/-- Two transfers that cannot be told apart can be mangled, those of a tuple
without components cannot, and those that can be combined have the same
signatures either way. -/
theorem mangle_succeeds_iff_transfers :
    Mangleable (transfers "int8") ∧
      Unmangleable (transfers "tuple") (.emptyTuple "transfer.value") ∧
      ∃ face other, (ofContract (transfers "string") .combine).result = .ok face ∧
        (ofContract (transfers "string") .mangle).result = .ok other ∧
        signedFunctions other = signedFunctions face := by
  have hcombined : ∃ face, (ofContract (transfers "string") .combine).result = .ok face := ⟨_, rfl⟩
  obtain ⟨face, hface⟩ := hcombined
  obtain ⟨other, hother, -, -, hsigned, -⟩ := (mangle_succeeds_iff _).2.2 face hface
  exact ⟨(mangle_succeeds_iff _).1.mp ⟨_, rfl⟩, (mangle_succeeds_iff _).2.1 _ rfl,
    face, other, hface, hother, hsigned⟩

end OfContract

end AbiBindings.Interface
