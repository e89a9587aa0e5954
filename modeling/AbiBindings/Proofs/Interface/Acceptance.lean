import AbiBindings.Proofs.Descriptor.Mapping
import AbiBindings.Proofs.Interface.Members
import AbiBindings.Proofs.Interface.MergedTypes

/-!
# Which contracts can be combined

Combining is done step by step and stops at the first thing that is wrong.
Whether it succeeds does not depend on these steps: functions of one base name
can be combined exactly when they are `Combinable`, and a contract has an
interface exactly when it is `Acceptable`.  Both are conditions on the
declarations alone, in no order.

The proof goes through the faults.  `Objection` and `Refusal` say what a fault
reports to be wrong.  What is combined is combinable
(`combinable_of_combined_eq_ok`), what is not ends with a fault that is an
objection (`objection_of_combined_eq_error`), and nothing that is objected to
is combinable (`Objection.not_combinable`).
-/

namespace AbiBindings

/-- The named functions of that base name, in declared order. -/
def Abi.sharing (entries : List Entry) (base : String) : List Function :=
  (namedFunctions entries).filter fun f => Interface.baseName f.name = base

namespace Interface

open Descriptor

/-- The guard by which a function tells the parameter of that name, that of
its first input of the name; nothing when it has no such input. -/
def inputGuard (base : String) (f : Abi.Function) (name : String) :
    Option (Except Fault Guard) :=
  (input? f.inputs name).map fun p => Descriptor.guard <$> (ofParam base p).result

/-- Two functions lack the same parameters and tell each other one by the same
guard. -/
def SameCondition (base : String) (f h : Abi.Function) : Prop :=
  ∀ name, inputGuard base f name = inputGuard base h name

/-- Two functions declare as many outputs, of the same names and canonical
types. -/
def SameOutputs (f h : Abi.Function) : Prop :=
  List.Forall₂ (fun p q => p.name = q.name ∧ p.canonicalType = q.canonicalType)
    f.outputs h.outputs

/-- What functions of one base name have to satisfy to be combined. -/
structure Combinable (base : String) (fs : List Abi.Function) : Prop where
  described : ∀ f ∈ fs, ∀ p ∈ f.inputs, p.isNamed = true →
    ∃ d, (ofParam base p).result = .ok d
  told_apart : ∀ name d e, Takes base fs name d → Takes base fs name e → d ≠ e →
    d.guard ≠ e.guard
  unambiguous : fs.Pairwise fun f h => ¬ SameCondition base f h
  same_outputs : ∀ f ∈ fs, ∀ h ∈ fs, SameOutputs f h

/-- What a fault reports to be wrong with functions of one base name. -/
def Objection (base : String) (fs : List Abi.Function) : Fault → Prop
  | .emptyTuple path => ∃ f ∈ fs, ∃ p ∈ f.inputs, p.isNamed = true ∧
      (ofParam base p).result = .error (.emptyTuple path)
  | .typeConflict function name d e => function = base ∧ Takes base fs name d ∧
      Takes base fs name e ∧ d ≠ e ∧ d.guard = e.guard
  | .ambiguousOverload function first second => function = base ∧
      ∃ f h, [f, h].Sublist fs ∧ SameCondition base f h ∧
        first = f.signature.canonical ∧ second = h.signature.canonical
  | .outputConflict function first second => function = base ∧
      ∃ f h, [f, h].Sublist fs ∧ ¬ SameOutputs f h ∧
        first = f.signature.canonical ∧ second = h.signature.canonical
  | _ => False

/-- Nothing that is objected to is combinable. -/
theorem Objection.not_combinable {base : String} {fs : List Abi.Function} {fault : Fault}
    (h : Objection base fs fault) : ¬ Combinable base fs := by
  intro hall
  cases fault with
  | emptyTuple path =>
      obtain ⟨f, hf, p, hp, hnamed, herror⟩ := h
      obtain ⟨d, hd⟩ := hall.described f hf p hp hnamed
      simp [hd] at herror
  | typeConflict function name d e =>
      obtain ⟨-, hd, he, hne, hguard⟩ := h
      exact hall.told_apart name d e hd he hne hguard
  | ambiguousOverload function first second =>
      obtain ⟨-, f, h, hsub, hsame, -, -⟩ := h
      exact (List.pairwise_pair.mp (hall.unambiguous.sublist hsub)) hsame
  | outputConflict function first second =>
      obtain ⟨-, f, h, hsub, hdiffer, -, -⟩ := h
      exact hdiffer (hall.same_outputs f (hsub.subset (by simp)) h (hsub.subset (by simp)))
  | _ => exact h

theorem sameOutputs_iff {f h : Abi.Function} :
    sameOutputs f.outputs h.outputs = true ↔ SameOutputs f h := by
  rw [sameOutputs, beq_iff_eq, SameOutputs]
  generalize f.outputs = left
  generalize h.outputs = right
  induction left generalizing right with
  | nil => cases right <;> simp
  | cons p rest ih => cases right <;> simp [outputKey, ih]

section Conditions

variable {base : String} {f h : Abi.Function} {s t : InputShape}

/-- The guard of a parameter is that of its descriptor in the shape. -/
theorem inputGuard_eq (hs : (inputShape base f.inputs).result = .ok s) (name : String) :
    inputGuard base f name = (s.lookup name).map fun d => .ok d.guard := by
  have hlookup := lookup_inputShape hs name
  unfold inputGuard
  cases hinput : input? f.inputs name with
  | none =>
      rw [hinput] at hlookup
      simp [show s.lookup name = none from hlookup]
  | some p =>
      rw [hinput] at hlookup
      obtain ⟨d, hd, heq⟩ := hlookup
      simp [hd, heq, Functor.map, Except.map]

/-- Conditions agree under a name when the guards do. -/
theorem guards_lookup_iff (hs : (inputShape base f.inputs).result = .ok s)
    (ht : (inputShape base h.inputs).result = .ok t) (name : String) :
    (s.lookup name).map Descriptor.guards = (t.lookup name).map Descriptor.guards ↔
      inputGuard base f name = inputGuard base h name := by
  have hone : ∀ {f : Abi.Function} {s : InputShape},
      (inputShape base f.inputs).result = .ok s →
      ∀ d, s.lookup name = some d → d.guards = [d.guard] := fun hs d hd =>
    guards_eq_singleton (guard_ne_any_of_mem_inputShape hs hd)
  rw [inputGuard_eq hs, inputGuard_eq ht]
  cases hd : s.lookup name with
  | none => cases t.lookup name <;> simp
  | some d =>
      cases he : t.lookup name with
      | none => simp
      | some e => simp [hone hs d hd, hone ht e he]

/-- **Conditions.**  By parameters that have all names of two functions, the
conditions of the functions agree when the functions have the same
condition. -/
theorem condition_eq_iff {params : InputShape}
    (hs : (inputShape base f.inputs).result = .ok s)
    (ht : (inputShape base h.inputs).result = .ok t)
    (hcover : ∀ name, name ∈ s.map Prod.fst ∨ name ∈ t.map Prod.fst →
      name ∈ params.map Prod.fst) :
    condition params s = condition params t ↔ SameCondition base f h := by
  rw [condition, condition, List.map_inj_left]
  constructor
  · intro hall name
    by_cases hname : name ∈ params.map Prod.fst
    · obtain ⟨p, hp, rfl⟩ := List.mem_map.mp hname
      exact (guards_lookup_iff hs ht p.1).mp (hall p hp)
    · -- a name that no parameter has is one that neither function takes
      have hnone : s.lookup name = none :=
        lookup_eq_none_iff_not_mem.mpr fun hmem => hname (hcover name (.inl hmem))
      have hnone' : t.lookup name = none :=
        lookup_eq_none_iff_not_mem.mpr fun hmem => hname (hcover name (.inr hmem))
      simp [inputGuard_eq hs, inputGuard_eq ht, hnone, hnone']
  · intro hsame p _
    exact (guards_lookup_iff hs ht p.1).mpr (hsame p.1)

end Conditions

section Combined

variable {ident : String} {g : NameGroup Abi.Function}

/-- By the merged parameters, functions agree in their conditions when they
have the same condition. -/
theorem condition_merged_iff {fs : List Abi.Function} {shapes : List InputShape}
    {base : String}
    (hshapes : List.Forall₂ (fun f s => (inputShape base f.inputs).result = .ok s) fs shapes)
    {a b : Abi.Function × InputShape} (ha : a ∈ fs.zip shapes) (hb : b ∈ fs.zip shapes) :
    condition (merged shapes.flatten) a.2 = condition (merged shapes.flatten) b.2 ↔
      SameCondition base a.1 b.1 := by
  have hok : ∀ c ∈ fs.zip shapes, (inputShape base c.1.inputs).result = .ok c.2 :=
    fun c hc => (List.forall₂_iff_zip.mp hshapes).2 hc
  have hname : ∀ c ∈ fs.zip shapes, ∀ name ∈ c.2.map Prod.fst,
      name ∈ (merged shapes.flatten).map Prod.fst := by
    intro c hc name hname
    have hmem : c.2 ∈ shapes := (List.of_mem_zip hc).2
    have hflat : name ∈ shapes.flatten.map Prod.fst := by
      rw [List.map_flatten]
      exact List.mem_flatten.mpr ⟨_, List.mem_map_of_mem hmem, hname⟩
    simpa [merged, Function.comp_def] using hflat
  exact condition_eq_iff (hok a ha) (hok b hb) fun name hmem =>
    hmem.elim (hname a ha name) (hname b hb name)

/-- What is combined is combinable. -/
theorem combinable_of_combined_eq_ok {m : MethodGroup}
    (h : (combined ident g).result = .ok m) : Combinable g.name g.items := by
  obtain ⟨params, shapes, hmerge, hdiffer, houtputs, -⟩ := combined_eq_ok.mp h
  obtain ⟨hshapes, hmergeable, rfl⟩ := mergeAll_nil_eq_ok.mp hmerge
  refine ⟨?_, ?_, ?_, ?_⟩
  · intro f hf p hp hnamed
    obtain ⟨shape, -, hshape⟩ := SideBySide.exists_value hshapes hf
    obtain ⟨e, -, -, he⟩ := SideBySide.exists_value (inputShape_eq_ok.mp hshape)
      (List.mem_filter.mpr ⟨hp, hnamed⟩)
    exact ⟨e.2, he⟩
  · intro name d e hd he hne hguard
    exact hne (hmergeable.apart _ ((mem_flatten_shapes hshapes).mpr hd) _
      ((mem_flatten_shapes hshapes).mpr he) rfl hguard)
  · have hitems : (g.items.zip shapes).map Prod.fst = g.items :=
      List.map_fst_zip (Nat.le_of_eq hshapes.length_eq)
    rw [← hitems, List.pairwise_map]
    exact hdiffer.imp_of_mem fun ha hb hne =>
      hne ∘ (condition_merged_iff hshapes ha hb).mpr
  · -- both agree with the first function
    have hfirst : ∀ f ∈ g.items, g.first.outputs.map outputKey = f.outputs.map outputKey := by
      intro f hf
      rcases List.mem_cons.mp hf with rfl | hother
      · rfl
      · simpa [sameOutputs] using houtputs f hother
    intro f hf h hh
    apply sameOutputs_iff.mp
    simp [sameOutputs, ← hfirst f hf, ← hfirst h hh]

/-- What is not combined is objected to by the fault. -/
theorem objection_of_combined_eq_error {fault : Fault}
    (h : (combined ident g).result = .error fault) : Objection g.name g.items fault := by
  simp only [combined, Outcome.result_bind, bind_eq_error, Prod.exists] at h
  rcases h with hmerge | ⟨params, shapes, hmerge, hrest⟩
  · rcases mergeAll_eq_error Mergeable.nil (show (mergeAll g.name (merged []) g.items).result =
      .error fault from hmerge) with ⟨f, hf, p, hp, hnamed, herror⟩ | hconflict
    · obtain ⟨path, rfl⟩ := ofParam_eq_error p herror
      exact ⟨f, hf, p, hp, hnamed, herror⟩
    · obtain ⟨name, d, e, hd, he, hne, hguard, rfl⟩ := hconflict
      exact ⟨rfl, hd.resolve_left (by simp), he.resolve_left (by simp), hne, hguard⟩
  · obtain ⟨hshapes, -, rfl⟩ := mergeAll_nil_eq_ok.mp hmerge
    have hitems : (g.items.zip shapes).map Prod.fst = g.items :=
      List.map_fst_zip (Nat.le_of_eq hshapes.length_eq)
    split at hrest
    case h_1 f s h t hclash =>
      cases hrest
      obtain ⟨hsub, hsame⟩ := firstClash?_eq_some hclash
      have hpair : [f, h].Sublist g.items := by
        simpa [hitems] using hsub.map Prod.fst
      exact ⟨rfl, f, h, hpair, (condition_merged_iff hshapes (hsub.subset (by simp))
        (hsub.subset (by simp))).mp hsame, rfl, rfl⟩
    case h_2 =>
      split at hrest
      case h_2 => cases hrest
      case h_1 f hfind =>
        cases hrest
        have hother := List.mem_of_find?_eq_some hfind
        have hdiffer : sameOutputs g.first.outputs f.outputs = false := by
          simpa using List.find?_some hfind
        refine ⟨rfl, g.first, f, (List.singleton_sublist.mpr hother).cons_cons _, ?_, rfl, rfl⟩
        rw [← sameOutputs_iff, hdiffer]
        decide

end Combined

/-- What a contract has to satisfy to have an interface when its functions are
combined. -/
structure Acceptable (contract : Contract) : Prop where
  constructor_unique : (Abi.constructors contract.abi).length ≤ 1
  combinable : ∀ base, Combinable base (Abi.sharing contract.abi base)

/-- What a fault reports to be wrong with a contract. -/
def Refusal (contract : Contract) : Fault → Prop
  | .duplicateConstructor name =>
      name = contract.name ∧ 1 < (Abi.constructors contract.abi).length
  | fault => ∃ base, Objection base (Abi.sharing contract.abi base) fault

/-- No contract that is refused is acceptable. -/
theorem Refusal.not_acceptable {contract : Contract} {fault : Fault}
    (h : Refusal contract fault) : ¬ Acceptable contract := by
  intro hall
  cases fault with
  | duplicateConstructor name => exact Nat.not_lt.mpr hall.constructor_unique h.2
  | _ =>
      obtain ⟨base, hobjection⟩ := h
      exact hobjection.not_combinable (hall.combinable base)

section OfContract

variable {contract : Contract}

/-- The plan for a base name has the functions that share it. -/
theorem items_of_mem_memberNames {plan : String × NameGroup Abi.Function}
    (hplan : plan ∈ (memberNames .combine contract.abi).1) :
    plan.2.items = Abi.sharing contract.abi plan.2.name :=
  NameGroup.items_of_mem_group (mem_group_of_mem_memberNames hplan)

/-- Functions that share a base name have a plan. -/
theorem plan_of_mem_sharing {base : String} {f : Abi.Function}
    (hf : f ∈ Abi.sharing contract.abi base) :
    ∃ plan ∈ (memberNames .combine contract.abi).1, plan.2.name = base := by
  obtain ⟨hmem, hbase⟩ := List.mem_filter.mp hf
  obtain ⟨g, hg, hname⟩ := NameGroup.exists_group Abi.Function.name hmem
  rw [← snd_memberNames_combine] at hg
  obtain ⟨plan, hplan, rfl⟩ := List.mem_map.mp hg
  exact ⟨plan, hplan, hname.trans (by simpa using hbase)⟩

theorem acceptable_of_ofContract_eq_ok {face : Interface}
    (h : (ofContract contract .combine).result = .ok face) : Acceptable contract := by
  obtain ⟨constructor, groups, hconstructor, hgroups, -⟩ := ofContract_eq_ok.mp h
  constructor
  · have hfound := constructorOf_eq_ok.mp hconstructor
    have hone : Abi.constructors contract.abi = constructor.toList := by simpa using hfound
    rw [hone]
    cases constructor <;> simp
  · intro base
    by_cases hnone : Abi.sharing contract.abi base = []
    · rw [hnone]
      exact ⟨by simp, by simp [Takes], .nil, by simp⟩
    · obtain ⟨f, hf⟩ := List.exists_mem_of_ne_nil _ hnone
      obtain ⟨plan, hplan, rfl⟩ := plan_of_mem_sharing hf
      obtain ⟨m, -, hm⟩ := SideBySide.exists_value hgroups hplan
      rw [← items_of_mem_memberNames hplan]
      exact combinable_of_combined_eq_ok hm

theorem refusal_of_ofContract_eq_error {fault : Fault}
    (h : (ofContract contract .combine).result = .error fault) : Refusal contract fault := by
  simp only [ofContract, Outcome.result_bind, Outcome.result_pure, bind_eq_error, reduceCtorEq,
    and_false, exists_false, or_false, methodGroups_eq_mapM] at h
  rcases h with hconstructor | ⟨constructor, -, hgroups⟩
  · obtain ⟨rfl, hmany⟩ := constructorOf_eq_error hconstructor
    exact ⟨rfl, by simpa using hmany⟩
  · obtain ⟨plan, hplan, hcombined⟩ := Outcome.exists_of_mapM_eq_error hgroups
    have hobjection := objection_of_combined_eq_error hcombined
    rw [items_of_mem_memberNames hplan] at hobjection
    cases fault with
    | duplicateConstructor name => exact hobjection.elim
    | _ => exact ⟨plan.2.name, hobjection⟩

/-- **What can be combined.**  A contract has an interface when its functions
are combined exactly when it has one constructor at most and the functions of
each base name have descriptors for all named inputs, tell the descriptors of
one parameter apart by their guards, differ from each other in their
conditions and declare the same outputs.  Where it has none, the fault tells
which of these fails. -/
theorem combine_succeeds_iff (contract : Contract) :
    ((∃ face, (ofContract contract .combine).result = .ok face) ↔ Acceptable contract) ∧
      ∀ fault, (ofContract contract .combine).result = .error fault →
        Refusal contract fault := by
  refine ⟨⟨?_, ?_⟩, fun fault => refusal_of_ofContract_eq_error⟩
  · intro hall
    obtain ⟨face, hface⟩ := hall
    exact acceptable_of_ofContract_eq_ok hface
  · intro hacceptable
    cases hresult : (ofContract contract .combine).result with
    | ok face => exact ⟨face, rfl⟩
    | error fault =>
        exact absurd hacceptable (refusal_of_ofContract_eq_error hresult).not_acceptable

/-- Two transfers of a value, a number in the first. -/
def transfers (kind : String) : Contract :=
  { name := "Transfers", bytecode := "",
    abi := [.function ⟨"transfer", [{ name := "value", kind := "uint256" }], [], .nonpayable⟩,
      .function ⟨"transfer", [{ name := "value", kind }], [], .nonpayable⟩] }

/-- A number is told from a string and from nothing that is a number as well,
and a tuple has no descriptor where its components are missing. -/
theorem combine_succeeds_iff_transfers :
    Acceptable (transfers "string") ∧
      Refusal (transfers "int8")
        (.ambiguousOverload "transfer" "transfer(uint256)" "transfer(int8)") ∧
      Refusal (transfers "tuple") (.emptyTuple "transfer.value") :=
  ⟨(combine_succeeds_iff _).1.mp ⟨_, rfl⟩, (combine_succeeds_iff _).2 _ rfl,
    (combine_succeeds_iff _).2 _ rfl⟩

end OfContract

end Interface

end AbiBindings
