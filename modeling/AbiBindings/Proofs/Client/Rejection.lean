import AbiBindings.Proofs.Client.Composition
import AbiBindings.Proofs.Client.Deployment
import AbiBindings.Proofs.Client.Dispatch
import AbiBindings.Proofs.Client.MemberCalls
import AbiBindings.Proofs.Client.ParameterNames
import AbiBindings.Proofs.Descriptor.EmptyTuples
import AbiBindings.Proofs.Interface.Mangling
import AbiBindings.Proofs.Interface.Reordering

/-!
# Which malformed tuples are rejected

A tuple without components is found where its parameter is mapped, and not
every parameter is: inputs are mapped where they have names, outputs once for
each method, and the inputs of events not at all (`Mapped`).  A contract alone
has a module exactly when it may have its name, has an interface, and no
mapped parameter lacks components; a fault tells which of these fails
(`explained_of_moduleOf_eq_error`).

The outputs of functions that are combined behind another one are not mapped,
but they have the canonical types of the ones that are.  So a plain tuple that
lacks components is found there too, as long as these types are well formed
(`Covered`).  It is not found among unnamed inputs and those of events, whose
types are written into the module as they stand (`unnamed_tuple_accepted`).
-/

namespace AbiBindings.Client

open Script Interface Descriptor

/-- The method of the function is declared with the outputs of this function:
always when functions are mangled, and for the first one of a base name when
they are combined. -/
def SpeaksFor (policy : Policy) (entries : List Abi.Entry) (f : Abi.Function) : Prop :=
  match policy with
  | .mangle => f ∈ Abi.namedFunctions entries
  | .combine => (Abi.sharing entries (baseName f.name)).head? = some f

/-- The parameters that are mapped for a module, each in the scope that it is
named in. -/
inductive Mapped (policy : Policy) (entries : List Abi.Entry) : String → Abi.Param → Prop
  | input {f : Abi.Function} {p : Abi.Param} (hf : f ∈ Abi.namedFunctions entries)
      (hp : p ∈ f.inputs) (hnamed : p.isNamed = true) : Mapped policy entries (baseName f.name) p
  | output {f : Abi.Function} {p : Abi.Param} (hf : SpeaksFor policy entries f)
      (hp : p ∈ f.outputs) : Mapped policy entries (baseName f.name) p
  | argument {c : Abi.Constructor} {p : Abi.Param} (hc : c ∈ Abi.constructors entries)
      (hp : p ∈ c.inputs) (hnamed : p.isNamed = true) : Mapped policy entries constructorScope p

/-- The parameters in which a plain tuple that lacks components is found: those
that are mapped, and the outputs of functions whose outputs, together with
those of the functions that share their base names, are well formed. -/
inductive Covered (policy : Policy) (entries : List Abi.Entry) : Abi.Param → Prop
  | mapped {scope : String} {p : Abi.Param} (hp : Mapped policy entries scope p) :
      Covered policy entries p
  | output {f : Abi.Function} {p : Abi.Param} (hf : f ∈ Abi.namedFunctions entries)
      (hp : p ∈ f.outputs)
      (hformed : ∀ h ∈ Abi.sharing entries (baseName f.name), ∀ q ∈ h.outputs,
        q.typeTree.WellFormed) : Covered policy entries p

/-- What a policy asks of a contract. -/
def Accepted : Policy → Contract → Prop
  | .combine => Acceptable
  | .mangle => Mangleable

/-- What a fault reports to be wrong with a contract under a policy. -/
def Refused : Policy → Contract → Fault → Prop
  | .combine => Refusal
  | .mangle => Unmangleable

/-- What a fault reports to be wrong with a contract that has no module: its
name, its interface, or a parameter in which a tuple lacks components. -/
inductive Explained (options : Options) (contract : Contract) : Fault → Prop
  | name (hname : isContractName contract.name = false) :
      Explained options contract (.invalidIdentifier contract.name)
  | refused {fault : Fault} (hrefused : Refused options.policy contract fault) :
      Explained options contract fault
  | lacking {scope path : String} {p : Abi.Param}
      (hp : Mapped options.policy contract.abi scope p)
      (hlacks : LacksComponents MapsToTuple p)
      (herror : (ofParam scope p).result = .error (.emptyTuple path)) :
      Explained options contract (.emptyTuple path)

section Interfaces

variable {policy : Policy} {contract : Contract} {face : Interface}

theorem exists_ofContract_iff :
    (∃ face, (ofContract contract policy).result = .ok face) ↔ Accepted policy contract := by
  cases policy with
  | combine =>
      refine ⟨?_, Acceptable.exists_ofContract⟩
      rintro ⟨face, hface⟩
      exact acceptable_of_ofContract_eq_ok hface
  | mangle =>
      refine ⟨?_, Mangleable.exists_ofContract⟩
      rintro ⟨face, hface⟩
      exact mangleable_of_ofContract_eq_ok hface

theorem refused_of_ofContract_eq_error {fault : Fault}
    (h : (ofContract contract policy).result = .error fault) : Refused policy contract fault := by
  cases policy with
  | combine => exact refusal_of_ofContract_eq_error h
  | mangle => exact unmangleable_of_ofContract_eq_error h

theorem Refused.not_accepted {fault : Fault} (h : Refused policy contract fault) :
    ¬ Accepted policy contract := by
  cases policy with
  | combine => exact Refusal.not_acceptable h
  | mangle => exact Unmangleable.not_mangleable h

/-- Under either policy a contract can be mangled. -/
theorem Accepted.mangleable (h : Accepted policy contract) : Mangleable contract := by
  cases policy with
  | combine => exact Acceptable.mangleable h
  | mangle => exact h

theorem SpeaksFor.mem {entries : List Abi.Entry} {f : Abi.Function}
    (h : SpeaksFor policy entries f) : f ∈ Abi.namedFunctions entries := by
  cases policy with
  | mangle => exact h
  | combine => exact (List.mem_filter.mp (List.mem_of_mem_head? h)).1

/-- A method is declared with the outputs of its first function. -/
theorem speaksFor_first (h : (ofContract contract policy).result = .ok face) {g : MethodGroup}
    (hg : g ∈ face.methods) :
    SpeaksFor policy contract.abi g.first ∧ baseName g.first.name = g.name := by
  obtain ⟨plan, hplan, hmember, hsingle⟩ := plan_of_mem_methods h hg
  have hgroup := (shapes_of_memberOf hsingle hmember).1
  have hfirst : g.first ∈ plan.2.items := hgroup ▸ List.mem_cons_self
  obtain ⟨hnamed, hbase⟩ := baseName_of_mem_plan hplan hfirst
  have hname : baseName g.first.name = g.name := by rw [hbase, ← hgroup]
  refine ⟨?_, hname⟩
  cases policy with
  | mangle => exact hnamed
  | combine =>
      have hall : Abi.sharing contract.abi g.name = g.overloads := (overloads_of_combine h hg).symm
      rw [SpeaksFor, hname, hall]
      rfl

/-- A function with whose outputs a method is declared is the first one of that
method. -/
theorem exists_method (h : (ofContract contract policy).result = .ok face) {f : Abi.Function}
    (hf : SpeaksFor policy contract.abi f) : ∃ g ∈ face.methods, g.first = f := by
  have hgrouped : f ∈ face.methods.flatMap MethodGroup.overloads := by
    rw [overloads_ofContract h]
    exact (groupedBy_perm _ _).mem_iff.mpr hf.mem
  obtain ⟨g, hg, hmem⟩ := List.mem_flatMap.mp hgrouped
  refine ⟨g, hg, ?_⟩
  cases policy with
  | mangle =>
      obtain ⟨plan, -, hmember, hsingle⟩ := plan_of_mem_methods h hg
      have hgroup := (shapes_of_memberOf hsingle hmember).1
      have hothers : g.others = [] := by rw [hgroup, hsingle rfl]
      have halone : g.overloads = [g.first] := by
        rw [MethodGroup.overloads, NameGroup.items, hothers]
      exact (List.mem_singleton.mp (halone ▸ hmem)).symm
  | combine =>
      have hall : Abi.sharing contract.abi g.name = g.overloads := (overloads_of_combine h hg).symm
      have hbase : baseName f.name = g.name := by
        rw [← hall] at hmem
        simpa using (List.mem_filter.mp hmem).2
      rw [SpeaksFor, hbase, hall] at hf
      exact Option.some.inj hf

end Interfaces

section Builders

variable {scope : String} {fault : Fault}

/-- Where a constructor has no arguments, a named input has no descriptor. -/
theorem ConstructorArgs.ofInputs_eq_error {inputs : List Abi.Param}
    (h : (ConstructorArgs.ofInputs inputs).result = .error fault) :
    ∃ p ∈ inputs, p.isNamed = true ∧ (ofParam constructorScope p).result = .error fault := by
  rw [result_ofInputs, map_eq_error] at h
  exact inputShape_eq_error h

/-- Where outputs have no type, one of them has no descriptor. -/
theorem outputType_eq_error {outputs : List Abi.Param}
    (h : (outputType scope outputs).result = .error fault) :
    ∃ p ∈ outputs, (ofParam scope p).result = .error fault := by
  unfold outputType at h
  split at h
  · cases h
  · simp only [ofParams_eq_mapM, Outcome.result_bind, Outcome.result_pure, bind_eq_error,
      reduceCtorEq, and_false, exists_false, or_false] at h
    exact Outcome.exists_of_mapM_eq_error h

/-- Outputs that have a type all have descriptors. -/
theorem exists_of_outputType_eq_ok {outputs : List Abi.Param} {ty : Ty}
    (h : (outputType scope outputs).result = .ok ty) :
    ∀ p ∈ outputs, ∃ d, (ofParam scope p).result = .ok d := by
  intro p hp
  unfold outputType at h
  split at h
  case isTrue hnone =>
    rw [List.isEmpty_iff.mp hnone] at hp
    cases hp
  case isFalse =>
    simp only [ofParams_eq_mapM, Outcome.result_bind, bind_eq_ok,
      Outcome.result_mapM_eq_ok] at h
    obtain ⟨ds, hds, -⟩ := h
    obtain ⟨d, -, hd⟩ := SideBySide.exists_value hds hp
    exact ⟨d, hd⟩

/-- A table has its entries where each group has one. -/
theorem exists_entries {f : MethodGroup → Outcome Expr} {groups : List MethodGroup}
    (h : ∀ g ∈ groups, ∃ e, (f g).result = .ok e) :
    ∃ entries : List (String × Expr),
      List.Forall₂ (fun g e => g.ident = e.1 ∧ (f g).result = .ok e.2) groups entries := by
  apply SideBySide.exists_values
  intro g hg
  obtain ⟨e, he⟩ := h g hg
  exact ⟨(g.ident, e), rfl, he⟩

/-- The methods of an interface all have encoders. -/
theorem exists_encoders {contract : Contract} {policy : Policy} {face : Interface}
    (h : (ofContract contract policy).result = .ok face) :
    ∃ entries, (encoders face.methods).result = .ok entries := by
  have hencoder : ∀ g ∈ face.methods, ∃ e, (encoder g).result = .ok e := by
    intro g hg
    obtain ⟨shapes, hshapes, -⟩ := shapes_of_mem_methods h hg
    unfold encoder
    split
    · simp [result_dispatchAll hshapes]
    · exact ⟨_, rfl⟩
  obtain ⟨entries, hentries⟩ := exists_entries hencoder
  exact ⟨entries, result_encoders_eq_ok.mpr hentries⟩

/-- Methods that can be declared have decoders. -/
theorem exists_decoders {groups : List MethodGroup} {methods : List Member}
    (h : (groups.mapM functionMethod).result = .ok methods) :
    ∃ entries, (decoders groups).result = .ok entries := by
  have hdecoder : ∀ g ∈ groups, ∃ e, (decoder g).result = .ok e := by
    intro g hg
    obtain ⟨m, -, hm⟩ := SideBySide.exists_value (Outcome.result_mapM_eq_ok.mp h) hg
    obtain ⟨ty, hty, -⟩ := functionMethod_eq_ok.mp hm
    exact ⟨_, decoder_eq_ok.mpr ⟨ty, hty, rfl⟩⟩
  obtain ⟨entries, hentries⟩ := exists_entries hdecoder
  exact ⟨entries, result_decoders_eq_ok.mpr hentries⟩

/-- **Faults of namespaces.**  A contract has no namespace because it has no
interface, or because its constructor or one of its methods cannot be
declared; the tables never fail where the methods can be declared. -/
theorem contractNamespace_eq_error {options : Options} {contract : Contract}
    (h : (contractNamespace options contract).result = .error fault) :
    (ofContract contract options.policy).result = .error fault ∨
      ∃ face, (ofContract contract options.policy).result = .ok face ∧
        ((ConstructorArgs.of face.constructor).result = .error fault ∨
          ∃ g ∈ face.methods, (outputType g.name g.outputs).result = .error fault) := by
  simp only [contractNamespace, contractClass, encodeTable, decodeTable, Outcome.result_bind,
    Outcome.result_pure, bind_eq_error, bind_eq_ok, functionMethods_eq_mapM, reduceCtorEq,
    and_false, exists_false, or_false] at h
  rcases h with hface | ⟨face, hface, hargs | ⟨args, -, hrest⟩⟩
  · exact .inl hface
  · exact .inr ⟨face, hface, .inl hargs⟩
  refine .inr ⟨face, hface, .inr ?_⟩
  rcases hrest with hmethods | ⟨_, ⟨methods, hmethods, -⟩, htables⟩
  · obtain ⟨g, hg, hmethod⟩ := Outcome.exists_of_mapM_eq_error hmethods
    refine ⟨g, hg, ?_⟩
    simpa [functionMethod, map_eq_error] using hmethod
  · -- methods that can be declared have entries in both tables
    obtain ⟨entries, hencoders⟩ := exists_encoders hface
    obtain ⟨_, hdecoders⟩ := exists_decoders hmethods
    simp [hencoders, hdecoders] at htables

end Builders

section Modules

variable {options : Options} {contract : Contract}

/-- What ends the making of a namespace is explained by the interface or by a
parameter that is mapped. -/
theorem explained_of_contractNamespace_eq_error {fault : Fault}
    (h : (contractNamespace options contract).result = .error fault) :
    Explained options contract fault := by
  have hlacking : ∀ {scope : String} {p : Abi.Param},
      Mapped options.policy contract.abi scope p → (ofParam scope p).result = .error fault →
        Explained options contract fault := by
    intro scope p hp herror
    obtain ⟨path, rfl⟩ := ofParam_eq_error p herror
    exact .lacking hp (lacks_of_ofParam_eq_error p herror) herror
  rcases contractNamespace_eq_error h with hrefused | ⟨face, hface, hargs | ⟨g, hg, houtputs⟩⟩
  · exact .refused (refused_of_ofContract_eq_error hrefused)
  · rw [ConstructorArgs.of_eq_ofInputs] at hargs
    obtain ⟨p, hp, hnamed, herror⟩ := ConstructorArgs.ofInputs_eq_error hargs
    have hconstructors := constructors_ofContract hface
    cases hconstructor : face.constructor with
    | none =>
        rw [hconstructor] at hp
        cases hp
    | some c =>
        rw [hconstructor] at hp hconstructors
        have hc : c ∈ Abi.constructors contract.abi := hconstructors ▸ List.mem_singleton_self c
        exact hlacking (.argument hc hp hnamed) herror
  · obtain ⟨p, hp, herror⟩ := outputType_eq_error houtputs
    obtain ⟨hspeaks, hbase⟩ := speaksFor_first hface hg
    exact hlacking (hbase ▸ .output hspeaks hp) herror

theorem explained_of_moduleOf_eq_error {fault : Fault}
    (h : (moduleOf options [contract]).result = .error fault) :
    Explained options contract fault := by
  cases moduleOf_singleton_eq_error.mp h with
  | name hname => exact .name hname
  | repeated _ hseen => cases hseen
  | inside _ _ hresult => exact explained_of_contractNamespace_eq_error hresult

/-- Every parameter that is mapped has a descriptor where there is a
namespace. -/
theorem exists_ofParam_of_mapped {d : Decl}
    (h : (contractNamespace options contract).result = .ok d) {scope : String} {p : Abi.Param}
    (hp : Mapped options.policy contract.abi scope p) : ∃ d, (ofParam scope p).result = .ok d := by
  obtain ⟨face, args, parts, hface, hargs, hparts, -⟩ := contractNamespace_eq_ok.mp h
  cases hp with
  | input hf hp hnamed =>
      exact (exists_ofContract_iff.mp ⟨face, hface⟩).mangleable.described _ hf p hp hnamed
  | output hf hp =>
      obtain ⟨g, hg, rfl⟩ := exists_method hface hf
      obtain ⟨m, -, hm⟩ := SideBySide.exists_value hparts.methods hg
      obtain ⟨ty, hty, -⟩ := functionMethod_eq_ok.mp hm
      rw [(speaksFor_first hface hg).2]
      exact exists_of_outputType_eq_ok hty p hp
  | argument hc hp hnamed =>
      rw [constructors_ofContract hface] at hc
      rw [Option.mem_toList.mp hc, ConstructorArgs.of_eq_ofInputs] at hargs
      have hparams := (ConstructorArgs.ofInputs_eq_ok.mp hargs).2.2
      obtain ⟨q, -, d, hd, -⟩ :=
        SideBySide.exists_value hparams (List.mem_filter.mpr ⟨hp, hnamed⟩)
      exact ⟨d, hd⟩

/-- **Modules of one contract.**  A contract has a module exactly when it may
have its name, satisfies its policy, and no parameter that is mapped lacks
components. -/
theorem exists_moduleOf_singleton_iff :
    (∃ m, (moduleOf options [contract]).result = .ok m) ↔
      isContractName contract.name = true ∧ Accepted options.policy contract ∧
        ∀ scope p, Mapped options.policy contract.abi scope p →
          ¬ LacksComponents MapsToTuple p := by
  constructor
  · rintro ⟨m, hm⟩
    obtain ⟨ds, hds, hnames, -, -⟩ := moduleOf_eq_ok.mp hm
    obtain ⟨d, -, hd⟩ := SideBySide.exists_value hds (List.mem_singleton_self contract)
    obtain ⟨face, _, _, hface, -⟩ := contractNamespace_eq_ok.mp hd
    refine ⟨hnames contract (List.mem_singleton_self contract),
      exists_ofContract_iff.mp ⟨face, hface⟩, ?_⟩
    intro scope p hp
    exact exists_ofParam_iff.mp (exists_ofParam_of_mapped hd hp)
  · rintro ⟨hname, haccepted, hcomplete⟩
    cases hresult : (moduleOf options [contract]).result with
    | ok m => exact ⟨m, rfl⟩
    | error fault =>
        exfalso
        cases explained_of_moduleOf_eq_error hresult with
        | name hinvalid => simp [hname] at hinvalid
        | refused hrefused => exact hrefused.not_accepted haccepted
        | lacking hp hlacks => exact hcomplete _ _ hp hlacks

/-- Where a plain tuple lacks components in a parameter that is covered, one
lacks them in a parameter that is mapped. -/
theorem exists_mapped_of_covered {policy : Policy} (haccepted : Accepted policy contract)
    {p : Abi.Param} (hp : Covered policy contract.abi p) (hlacks : LacksComponents IsTuple p) :
    ∃ scope q, Mapped policy contract.abi scope q ∧ LacksComponents IsTuple q := by
  cases hp with
  | mapped hp => exact ⟨_, p, hp, hlacks⟩
  | @output f _ hf hp hformed =>
      cases policy with
      | mangle => exact ⟨_, p, .output hf hp, hlacks⟩
      | combine =>
          have hmem : f ∈ Abi.sharing contract.abi (baseName f.name) :=
            List.mem_filter.mpr ⟨hf, by simp⟩
          obtain ⟨first, rest, hsharing⟩ := List.exists_cons_of_ne_nil (List.ne_nil_of_mem hmem)
          have hfirst : first ∈ Abi.sharing contract.abi (baseName f.name) :=
            hsharing ▸ List.mem_cons_self
          have hbase : baseName first.name = baseName f.name := by
            simpa using (List.mem_filter.mp hfirst).2
          have hspeaks : SpeaksFor .combine contract.abi first := by
            rw [SpeaksFor, hbase, hsharing]
            rfl
          -- the first function declares an output of the same canonical type
          have hsame := (Acceptable.combinable haccepted _).same_outputs f hmem first hfirst
          obtain ⟨q, hq, -, htype⟩ := SideBySide.exists_value hsame hp
          have htree := Abi.typeTree_eq_of_canonicalType (hformed first hfirst q hq)
            (hformed f hmem p hp) htype.symm
          exact ⟨_, q, .output hspeaks hq, hlacks.of_typeTree htree⟩

/-- **Malformed tuples.**  A contract has a module exactly when it may have its
name, satisfies its policy, and no parameter that is mapped lacks components;
else the fault tells which of these fails.  So a plain tuple without
components is rejected wherever it stands in a named input of a function or
constructor, and in an output of any function, as far as the outputs of
functions that are combined are well formed. -/
theorem empty_tuples_rejected (options : Options) (contract : Contract) :
    ((∃ m, (moduleOf options [contract]).result = .ok m) ↔
      isContractName contract.name = true ∧ Accepted options.policy contract ∧
        ∀ scope p, Mapped options.policy contract.abi scope p →
          ¬ LacksComponents MapsToTuple p) ∧
    (∀ fault, (moduleOf options [contract]).result = .error fault →
      Explained options contract fault) ∧
    ∀ p, Covered options.policy contract.abi p → LacksComponents IsTuple p →
      ∃ fault, (moduleOf options [contract]).result = .error fault ∧
        Explained options contract fault := by
  refine ⟨exists_moduleOf_singleton_iff, fun fault => explained_of_moduleOf_eq_error, ?_⟩
  intro p hp hlacks
  cases hresult : (moduleOf options [contract]).result with
  | error fault => exact ⟨fault, rfl, explained_of_moduleOf_eq_error hresult⟩
  | ok m =>
      obtain ⟨-, haccepted, hcomplete⟩ := exists_moduleOf_singleton_iff.mp ⟨m, hresult⟩
      obtain ⟨scope, q, hq, hlacking⟩ := exists_mapped_of_covered haccepted hp hlacks
      exact absurd hlacking.mapsToTuple (hcomplete scope q hq)

end Modules

/-- Pairs in a list, and in each of them a tuple without components. -/
def brokenPairs : Abi.Param :=
  { name := "", kind := "tuple[]",
    components := some [{ name := "key", kind := "string" },
      { name := "", kind := "tuple[2]", components := some [] }] }

/-- The entries behind a number. -/
def entriesBehind : Abi.Function :=
  ⟨"entries", [{ name := "start", kind := "uint256" }], [brokenPairs], .view⟩

/-- The entries of a name. -/
def entriesOf : Abi.Function :=
  ⟨"entries", [{ name := "start", kind := "string" }], [brokenPairs], .view⟩

/-- A contract with both. -/
def archive : Contract :=
  { name := "Archive", bytecode := "60",
    abi := [.function entriesBehind, .function entriesOf] }

/-- A contract whose one function takes an unnamed tuple without components. -/
def depot : Contract :=
  { name := "Depot", bytecode := "60",
    abi := [.function ⟨"store", [{ name := "", kind := "tuple" }], [], .nonpayable⟩] }

/-- A tuple without components is found in an output of the second function,
which is not mapped; a parameter without a name is never looked at. -/
theorem empty_tuples_rejected_archive :
    Covered .combine archive.abi brokenPairs ∧ LacksComponents IsTuple brokenPairs ∧
      (∃ fault, (moduleOf {} [archive]).result = .error fault ∧ Explained {} archive fault) ∧
      Explained {} archive (.emptyTuple "entries.<unnamed>.<unnamed>") ∧
      Accepted .combine depot ∧
      ∀ scope p, Mapped .combine depot.abi scope p → ¬ LacksComponents MapsToTuple p := by
  have hcovered : Covered .combine archive.abi brokenPairs := by
    have hsharing : Abi.sharing archive.abi (baseName entriesOf.name) =
        [entriesBehind, entriesOf] := rfl
    refine .output (f := entriesOf) (.tail _ (.head _)) (.head _) ?_
    simp only [hsharing, List.forall_mem_cons]
    decide
  have hlacks : LacksComponents IsTuple brokenPairs :=
    .inside ⟨[[]], by simp, rfl⟩ rfl (.tail _ (.head _)) (.here ⟨[['2']], by simp, rfl⟩ rfl)
  obtain ⟨-, hexplained, hrejected⟩ := empty_tuples_rejected {} archive
  obtain ⟨-, haccepted, hcomplete⟩ := (empty_tuples_rejected {} depot).1.mp ⟨_, rfl⟩
  exact ⟨hcovered, hlacks, hrejected brokenPairs hcovered hlacks, hexplained _ rfl, haccepted,
    hcomplete⟩

/-- Malformed tuples are not always rejected: an input without a name is not
mapped, and its type is `tuple` in the module. -/
theorem unnamed_tuple_accepted :
    ¬ ∀ (options : Options) (contract : Contract) (p : Abi.Param),
      ((∃ f ∈ Abi.namedFunctions contract.abi, p ∈ f.inputs ++ f.outputs) ∨
        (∃ c ∈ Abi.constructors contract.abi, p ∈ c.inputs) ∨
        ∃ e ∈ Abi.namedEvents contract.abi, p ∈ e.inputs) →
      LacksComponents IsTuple p →
        ∃ fault, (moduleOf options [contract]).result = .error fault := by
  intro hall
  have hinput : ∃ f ∈ Abi.namedFunctions depot.abi,
      ({ name := "", kind := "tuple" } : Abi.Param) ∈ f.inputs ++ f.outputs :=
    ⟨_, .head _, .head _⟩
  obtain ⟨fault, hfault⟩ := hall {} depot _ (.inl hinput) (.here ⟨[], by simp, rfl⟩ rfl)
  have hmodule : ∃ m, (moduleOf {} [depot]).result = .ok m := ⟨_, rfl⟩
  obtain ⟨m, hm⟩ := hmodule
  rw [hm] at hfault
  cases hfault

end AbiBindings.Client
