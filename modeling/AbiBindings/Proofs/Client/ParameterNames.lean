import AbiBindings.Proofs.Client.Dispatch
import AbiBindings.Proofs.Client.Forwarding
import AbiBindings.Proofs.Script.Identifiers
import AbiBindings.Proofs.Script.Scoping

/-!
# When parameters keep different names apart

Methods, decoders and deployments name what they bind after the inputs and
outputs of an interface description, each name for itself: a declared name is
kept or gets an underscore, and no one looks at the other names beside it.  So
declared names that are distinct words become distinct identifiers except in
one case, a protected name beside the same name with an underscore behind it
(`parameter_names_distinct_iff`).  That case does occur: two inputs `client`
and `client_` are both bound as `client_`
(`parameter_names_collide`).
-/

namespace AbiBindings.Client

open Script Interface

/-- The declared names, those that are missing left out. -/
def declaredNames (params : List Abi.Param) : List String :=
  (params.filter Abi.Param.isNamed).map Abi.Param.name

/-- Names that are words and differ from each other. -/
structure DistinctWords (names : List String) : Prop where
  nodup : names.Nodup
  words : ∀ name ∈ names, isWord name.toList = true

/-- Where every function behind a method has distinct names for its inputs,
the parameters of the method have distinct declared names. -/
theorem distinctWords_params {contract : Contract} {policy : Policy} {face : Interface}
    (h : (Interface.ofContract contract policy).result = .ok face) {g : MethodGroup}
    (hg : g ∈ face.methods)
    (hinputs : ∀ f ∈ g.overloads, DistinctWords (declaredNames f.inputs)) :
    DistinctWords (g.params.map GroupParam.name) := by
  constructor
  · obtain ⟨plan, -, hmember, hsingle⟩ := plan_of_mem_methods h hg
    have hfirst : g.first ∈ g.overloads := List.mem_cons_self
    cases policy with
    | combine =>
        obtain ⟨params, shapes, hmerge, -, -, rfl⟩ := combined_eq_ok.mp hmember
        have hempty : ([] : InputShape).map Prod.fst = ([] : List String).eraseDups := rfl
        rw [names_groupParams, (shapes_of_mergeAll hempty hmerge).2]
        exact nodup_eraseDups _
    | mangle =>
        simp only [memberOf, alone, Outcome.result_bind, Outcome.result_pure, bind_eq_ok]
          at hmember
        obtain ⟨shape, hshape, hmember⟩ := hmember
        cases hmember
        rw [names_groupParams, names_inputShape hshape]
        exact (hinputs _ hfirst).nodup
  · intro name hname
    obtain ⟨shapes, hshapes, hnames⟩ := shapes_of_mem_methods h hg
    obtain ⟨s, hs, hmem⟩ := (hnames name).mp hname
    obtain ⟨f, hf, hshape⟩ := SideBySide.exists_item hshapes hs
    rw [names_inputShape hshape] at hmem
    exact (hinputs f hf).words name hmem

/-- Whether all outputs have names is a matter of their names. -/
theorem allNamed_congr {ps qs : List Abi.Param}
    (h : ps.map Abi.Param.name = qs.map Abi.Param.name) : allNamed ps = allNamed qs := by
  have hnames : ∀ ps : List Abi.Param, allNamed ps =
      (!(ps.map Abi.Param.name).isEmpty &&
        (ps.map Abi.Param.name).all fun name => !name.isEmpty) := by
    intro ps
    rw [allNamed, List.isEmpty_map, List.all_map]
    rfl
  rw [hnames ps, hnames qs, h]

/-- The constants of a decoder are named after the outputs, where all of them
have names. -/
theorem blockBound_decodeBody {outputs : List Abi.Param} (h : allNamed outputs = true) :
    blockBound (decodeBody outputs) = (outputs.map Abi.Param.name).map fun name =>
      Scope.parameterIdent name Scope.memberLocals := by
  have hsome : outputs.isEmpty = false := by
    simp only [allNamed, Bool.and_eq_true] at h
    simpa using h.1
  simp [blockBound, decodeBody, hsome, h, Stmt.bound, Stmt.returns, outputLocal,
    Function.comp_def]

/-- A group has a decoder when its outputs have a type. -/
theorem decoder_eq_ok {g : MethodGroup} {e : Expr} :
    (decoder g).result = .ok e ↔
      ∃ ty, (outputType g.name g.outputs).result = .ok ty ∧
        e = .arrow [] [] (some ty) (decodeBody g.outputs) := by
  simp only [decoder, Outcome.result_bind, Outcome.result_pure, bind_eq_ok, Except.ok.injEq]
  exact exists_congr fun ty => and_congr_right fun _ => eq_comm

/-- **When parameters keep names apart.**  Of every contract that has an
interface under a policy: the parameters of a method have distinct identifiers,
as long as each function behind it names its inputs by distinct words, exactly
when no two of the names clash; and likewise the constants into which a decoder
takes outputs apart that are all named by distinct words, and the parameters
of a constructor whose inputs are. -/
theorem parameter_names_distinct_iff {contract : Contract} {policy : Policy}
    {face : Interface} (h : (Interface.ofContract contract policy).result = .ok face) :
    (∀ g ∈ face.methods, (∀ f ∈ g.overloads, DistinctWords (declaredNames f.inputs)) →
      ((g.parameters.map Param.name).Nodup ↔
        ¬ Scope.Clash Scope.memberLocals (g.params.map GroupParam.name))) ∧
    (∀ g ∈ face.methods, ∀ f ∈ g.overloads, allNamed f.outputs = true →
      DistinctWords (f.outputs.map Abi.Param.name) →
      ∀ e, (decoder g).result = .ok e → ∃ ty body, e = .arrow [] [] (some ty) body ∧
        ((blockBound body).Nodup ↔
          ¬ Scope.Clash Scope.memberLocals (f.outputs.map Abi.Param.name))) ∧
    (∀ args, (ConstructorArgs.of face.constructor).result = .ok args →
      DistinctWords (declaredNames (constructorInputs contract.abi)) →
      ((args.params.map Param.name).Nodup ↔
        ¬ Scope.Clash Scope.deployLocals (declaredNames (constructorInputs contract.abi)))) := by
  refine ⟨?_, ?_, ?_⟩
  · intro g hg hinputs
    have hdistinct := distinctWords_params h hg hinputs
    have hidents : g.parameters.map Param.name = (g.params.map GroupParam.name).map fun name =>
        Scope.parameterIdent name Scope.memberLocals := by
      rw [g.names_parameters, List.map_map]
      rfl
    rw [hidents]
    exact Scope.nodup_parameterIdents_iff Scope.separated_memberLocals hdistinct.nodup
      hdistinct.words
  · intro g hg f hf hnamed hdistinct e he
    have hkeys := outputs_of_mem_methods h hg hf
    have hnames : f.outputs.map Abi.Param.name = g.outputs.map Abi.Param.name := by
      simpa [outputKey, Function.comp_def] using congrArg (List.map Prod.fst) hkeys
    have hall : allNamed g.outputs = true := (allNamed_congr hnames).symm.trans hnamed
    obtain ⟨ty, -, rfl⟩ := decoder_eq_ok.mp he
    refine ⟨ty, _, rfl, ?_⟩
    rw [blockBound_decodeBody hall, ← hnames]
    exact Scope.nodup_parameterIdents_iff Scope.separated_memberLocals hdistinct.nodup
      hdistinct.words
  · intro args hargs hdistinct
    rw [ConstructorArgs.of_eq_ofInputs, inputsOf_constructor h] at hargs
    have hidents : args.params.map Param.name =
        (declaredNames (constructorInputs contract.abi)).map fun name =>
          Scope.parameterIdent name Scope.deployLocals := by
      rw [ConstructorArgs.names_of_ofInputs hargs, declaredNames, List.map_map]
      rfl
    rw [hidents]
    exact Scope.nodup_parameterIdents_iff Scope.separated_deployLocals hdistinct.nodup
      hdistinct.words

/-- A payment by a client. -/
def payClient : Abi.Function :=
  ⟨"pay", [{ name := "client", kind := "uint256" }],
    [{ name := "data", kind := "bytes" }, { name := "new", kind := "bool" }], .payable⟩

/-- A payment by a client with something written beside it. -/
def payNoted : Abi.Function :=
  ⟨"pay", [{ name := "client", kind := "uint256" }, { name := "data", kind := "string" }],
    [{ name := "data", kind := "bytes" }, { name := "new", kind := "bool" }], .payable⟩

/-- The inputs of a constructor, both of them named like locals of a
deployment. -/
def escrowInputs : List Abi.Param :=
  [{ name := "linker", kind := "address" }, { name := "data", kind := "bytes32" }]

/-- A contract most of whose names are protected. -/
def escrow : Contract :=
  { name := "Escrow", bytecode := "",
    abi := [.constructor ⟨escrowInputs, .nonpayable⟩, .function payClient, .function payNoted] }

/-- Its one method. -/
def escrowMethod : MethodGroup :=
  { name := "pay", first := payClient, others := [payNoted], ident := "pay",
    params := [⟨"client", .integer, false⟩, ⟨"data", .string, true⟩] }

/-- Its interface. -/
def escrowFace : Interface :=
  ⟨"Escrow", some ⟨escrowInputs, .nonpayable⟩, [escrowMethod], [],
    [payClient.signature, payNoted.signature]⟩

/-- All of its names are kept apart. -/
theorem parameter_names_distinct_iff_escrow :
    (Interface.ofContract escrow .combine).result = .ok escrowFace ∧
      escrowMethod ∈ escrowFace.methods ∧
      (∀ f ∈ escrowMethod.overloads, DistinctWords (declaredNames f.inputs)) ∧
      (escrowMethod.parameters.map Param.name).Nodup ∧
      payNoted ∈ escrowMethod.overloads ∧ allNamed payNoted.outputs = true ∧
      DistinctWords (payNoted.outputs.map Abi.Param.name) ∧
      (∃ ty body, (decoder escrowMethod).result = .ok (.arrow [] [] (some ty) body) ∧
        (blockBound body).Nodup) ∧
      DistinctWords (declaredNames (constructorInputs escrow.abi)) ∧
      ∃ args, (ConstructorArgs.of escrowFace.constructor).result = .ok args ∧
        (args.params.map Param.name).Nodup := by
  have hface : (Interface.ofContract escrow .combine).result = .ok escrowFace := rfl
  have hmethod : escrowMethod ∈ escrowFace.methods := List.mem_cons_self
  have hinputs : ∀ f ∈ escrowMethod.overloads, DistinctWords (declaredNames f.inputs) := by
    have hall : ∀ f ∈ [payClient, payNoted], (declaredNames f.inputs).Nodup ∧
        ∀ name ∈ declaredNames f.inputs, isWord name.toList = true := by
      simp only [List.forall_mem_cons]
      decide
    exact fun f hf => ⟨(hall f hf).1, (hall f hf).2⟩
  have hnoted : payNoted ∈ escrowMethod.overloads := by
    simp [escrowMethod, MethodGroup.overloads, NameGroup.items]
  have houtputs : DistinctWords (payNoted.outputs.map Abi.Param.name) :=
    ⟨by decide, by decide⟩
  have hconstructor : DistinctWords (declaredNames (constructorInputs escrow.abi)) :=
    ⟨by decide, by decide⟩
  obtain ⟨hmethods, hdecoders, hargs⟩ := parameter_names_distinct_iff hface
  obtain ⟨e, he⟩ : ∃ e, (decoder escrowMethod).result = .ok e := ⟨_, rfl⟩
  obtain ⟨ty, body, rfl, hbody⟩ :=
    hdecoders escrowMethod hmethod payNoted hnoted rfl houtputs e he
  obtain ⟨args, hof⟩ : ∃ args, (ConstructorArgs.of escrowFace.constructor).result = .ok args :=
    ⟨_, rfl⟩
  exact ⟨hface, hmethod, hinputs, (hmethods escrowMethod hmethod hinputs).mpr (by decide),
    hnoted, rfl, houtputs, ⟨ty, body, he, hbody.mpr (by decide)⟩, hconstructor, args, hof,
    (hargs args hof hconstructor).mpr (by decide)⟩

/-- A contract whose one function has two inputs with different names. -/
def twoClients : Contract :=
  { name := "Clients", bytecode := "",
    abi := [.function ⟨"send", [{ name := "client", kind := "uint256" },
      { name := "client_", kind := "uint256" }], [], .nonpayable⟩] }

/-- Distinct names are not always kept apart: two inputs that are named by
different identifiers become two parameters of one name. -/
theorem parameter_names_collide :
    ¬ ∀ (contract : Contract) (policy : Policy) (face : Interface),
      (Interface.ofContract contract policy).result = .ok face →
      ∀ g ∈ face.methods,
        (∀ f ∈ g.overloads, (declaredNames f.inputs).Nodup ∧
          ∀ name ∈ declaredNames f.inputs, isIdentifier name = true) →
        (g.parameters.map Param.name).Nodup := by
  intro hall
  have hface : ∃ face, (Interface.ofContract twoClients .combine).result = .ok face ∧
      ∃ g ∈ face.methods, g.overloads.map Abi.Function.inputs =
          [[{ name := "client", kind := "uint256" }, { name := "client_", kind := "uint256" }]] ∧
        g.parameters.map Param.name = ["client_", "client_"] :=
    ⟨_, rfl, _, List.mem_cons_self, rfl, rfl⟩
  obtain ⟨face, hok, g, hg, hinputs, hnames⟩ := hface
  have hnodup := hall twoClients .combine face hok g hg (by
    intro f hf
    have hmem := List.mem_map_of_mem (f := Abi.Function.inputs) hf
    rw [hinputs, List.mem_singleton] at hmem
    rw [hmem]
    decide)
  rw [hnames] at hnodup
  exact absurd hnodup (by decide)

end AbiBindings.Client
