import AbiBindings.Proofs.Client.Deployment
import AbiBindings.Proofs.Client.MemberCalls
import AbiBindings.Proofs.Client.Namespace

/-!
# Arguments stay in their places

A call that encodes inputs has one type and one argument for each input, in
declared order (`Encodes`).  The argument of an unnamed input is `undefined`;
that of a named one is the identifier that its name has among the parameters
around the call.  Encoders look it up in the merged parameters of their
group, where every named input has its name (`name_mem_params`); deployments
use the parameters of the constructor.  Both kinds of calls line up with the
inputs, and the parameters are handed on in order
(`arguments_keep_places`).
-/

namespace AbiBindings.Client

open Script Interface

/-- Parameters as their declared names with their identifiers. -/
abbrev Names := List (String × String)

/-- The argument stands for the input: it is `undefined` exactly for an
unnamed input, and for a named one the identifier of its name. -/
structure StandsFor (names : Names) (input : Abi.Param) (arg : Expr) : Prop where
  undefined_iff : arg = .undefined ↔ input.isNamed = false
  named : input.isNamed = true → ∃ ident, (input.name, ident) ∈ names ∧ arg = .ident ident

/-- The call encodes the inputs behind the selector: it has as many types and
as many arguments as there are inputs, each of them at the place of its
input. -/
def Encodes (selector : String) (names : Names) (inputs : List Abi.Param)
    (call : List Expr) : Prop :=
  ∃ types args, call = .str selector :: .strings types :: args ∧
    List.Forall₂ (fun input type => type = input.canonicalType) inputs types ∧
    List.Forall₂ (StandsFor names) inputs args

/-- Arguments that are read off the inputs one by one keep their places. -/
theorem encodes_of_standsFor {selector : String} {names : Names} {inputs : List Abi.Param}
    {argument : Abi.Param → Expr}
    (h : ∀ input ∈ inputs, StandsFor names input (argument input)) :
    Encodes selector names inputs
      (.str selector :: .strings (Abi.canonicalTypes inputs) :: inputs.map argument) := by
  refine ⟨_, _, rfl, ?_, ?_⟩
  · rw [Abi.canonicalTypes, List.forall₂_map_right_iff, List.forall₂_same]
    intro input _
    rfl
  · rw [List.forall₂_map_right_iff, List.forall₂_same]
    exact h

section Groups

variable {g : MethodGroup}

/-- The parameters of a group. -/
def groupNames (g : MethodGroup) : Names := g.params.map fun p => (p.name, p.ident)

/-- The parameter of the name of an input is found where there is one. -/
theorem standsFor_argument {input : Abi.Param}
    (h : input.isNamed = true → input.name ∈ g.params.map GroupParam.name) :
    StandsFor (groupNames g) input (argument g.params input) := by
  by_cases hnamed : input.isNamed = true
  · obtain ⟨q, hq, hname⟩ := List.mem_map.mp (h hnamed)
    have hsome : (g.params.find? fun p => input.isNamed && p.name == input.name).isSome := by
      rw [List.find?_isSome]
      exact ⟨q, hq, by simp [hnamed, hname]⟩
    obtain ⟨p, hp⟩ := Option.isSome_iff_exists.mp hsome
    have hmatch : p.name = input.name := by
      have hfound := List.find?_some hp
      simpa [hnamed] using hfound
    have hargument : argument g.params input = .ident p.ident := by
      rw [argument, hp]
    rw [hargument]
    refine ⟨by simp [hnamed], fun _ => ⟨p.ident, ?_, rfl⟩⟩
    exact List.mem_map.mpr ⟨p, List.mem_of_find?_eq_some hp, by rw [hmatch]⟩
  · have hunnamed : input.isNamed = false := by simpa using hnamed
    have hnone : g.params.find? (fun p => input.isNamed && p.name == input.name) = none := by
      simp [hunnamed]
    have hargument : argument g.params input = .undefined := by
      rw [argument, hnone]
    rw [hargument]
    exact ⟨by simp [hunnamed], fun h => absurd h hnamed⟩

/-- The expression has the transport encode the inputs of the function: behind
the selector of its canonical signature it passes the canonical type of each
input, and an argument that stands for each. -/
def EncodesFunction (g : MethodGroup) (f : Abi.Function) (e : Expr) : Prop :=
  ∃ args, e = .call (.prop (.ident "client") "encode") []
      (.str (selector (Abi.canonicalSignature f.name f.inputs)) ::
        .array (f.inputs.map fun input => .str input.canonicalType) :: args) ∧
    List.Forall₂ (StandsFor (groupNames g)) f.inputs args

/-- What an encoder returns for a function encodes the inputs of this
function. -/
theorem encodesFunction_encodeCall {f : Abi.Function}
    (hnames : ∀ input ∈ f.inputs, input.isNamed = true →
      input.name ∈ g.params.map GroupParam.name) :
    EncodesFunction g f (encodeCall g f) := by
  refine ⟨f.inputs.map (argument g.params), ?_, ?_⟩
  · rw [← encodeArgs_eq]
    rfl
  · rw [List.forall₂_map_right_iff, List.forall₂_same]
    intro input hinput
    exact standsFor_argument (hnames input hinput)

/-- The entry of a group takes the parameters of the group and has one call
for each function, which encodes the inputs of the function from them. -/
structure EncodesGroup (g : MethodGroup) (entry : String × Expr) : Prop where
  closure : ∃ body, entry = (g.ident, .arrow [] g.parameters none body)
  bound : g.parameters.map Param.name = (groupNames g).map Prod.snd
  calls : List.Forall₂
    (fun f call => Encodes f.signature.selector (groupNames g) f.inputs call)
    g.overloads (transportCalls "encode" entry.2.nodes)

/-- The method of a group takes the same parameters and passes all of them,
in order, to the entry of the group. -/
structure PassesAll (g : MethodGroup) (m : Member) : Prop where
  method : ∃ returns body, m = .method .open g.ident g.parameters returns body
  passes : tableCalls Scope.encode m.nodes =
    [(g.ident, g.parameters.map fun p => .ident p.name)]

theorem encodesGroup_of_encoder {entry : String × Expr}
    (hnames : ∀ f ∈ g.overloads, ∀ input ∈ f.inputs, input.isNamed = true →
      input.name ∈ g.params.map GroupParam.name)
    (h : g.ident = entry.1 ∧ (encoder g).result = .ok entry.2) : EncodesGroup g entry := by
  obtain ⟨key, e⟩ := entry
  obtain ⟨rfl, hencoder⟩ := h
  obtain ⟨body, rfl, hcalls⟩ := transportCalls_encoder hencoder
  have hbound : g.parameters.map Param.name = (groupNames g).map Prod.snd := by
    rw [g.names_parameters, groupNames, List.map_map]
    rfl
  refine ⟨⟨body, rfl⟩, hbound, ?_⟩
  rw [hcalls, List.forall₂_map_right_iff, List.forall₂_same]
  intro f hf
  apply encodes_of_standsFor
  intro input hinput
  exact standsFor_argument (hnames f hf input hinput)

theorem passesAll_of_functionMethod {m : Member} (h : (functionMethod g).result = .ok m) :
    PassesAll g m := by
  have hcalls := (tableCalls_functionMethod h).1
  obtain ⟨output, -, rfl⟩ := functionMethod_eq_ok.mp h
  refine ⟨⟨_, _, rfl⟩, ?_⟩
  rw [hcalls]
  simp [passed, MethodGroup.parameters, GroupParam.toParam]

end Groups

section Deployments

/-- The inputs of the constructor among the entries. -/
def constructorInputs (entries : List Abi.Entry) : List Abi.Param :=
  (Abi.constructors entries).flatMap Abi.Constructor.inputs

theorem inputsOf_constructor {contract : Contract} {policy : Policy} {face : Interface}
    (h : (Interface.ofContract contract policy).result = .ok face) :
    ConstructorArgs.inputsOf face.constructor = constructorInputs contract.abi := by
  obtain ⟨constructor, groups, hconstructor, -, rfl⟩ := ofContract_eq_ok.mp h
  have hall : Abi.constructors contract.abi = constructor.toList := by
    simpa using constructorOf_eq_ok.mp hconstructor
  rw [constructorInputs, hall]
  cases constructor with
  | none => rfl
  | some c => simp [ConstructorArgs.inputsOf]

/-- The parameters of the constructor. -/
def constructorNames (inputs : List Abi.Param) : Names :=
  (inputs.filter Abi.Param.isNamed).map fun p => (p.name, deployIdent p.name)

theorem standsFor_constructorArgument {inputs : List Abi.Param} {input : Abi.Param}
    (hinput : input ∈ inputs) :
    StandsFor (constructorNames inputs) input (constructorArgument input) := by
  by_cases hnamed : input.isNamed = true
  · rw [constructorArgument, if_pos hnamed]
    refine ⟨by simp [hnamed], fun _ => ⟨deployIdent input.name, ?_, rfl⟩⟩
    exact List.mem_map.mpr ⟨input, List.mem_filter.mpr ⟨hinput, hnamed⟩, rfl⟩
  · rw [constructorArgument, if_neg hnamed]
    exact ⟨by simpa using hnamed, fun h => absurd h hnamed⟩

/-- What a deployment sends: the bytecode, with the call that encodes the
inputs of the constructor behind it where there is one. -/
def sentData (client : Expr) : Option (List Expr) → Expr
  | none => .ident "bytecode"
  | some call => .binary (.ident "bytecode") .plus (.method client "encode" call)

/-- The statements send that data and encode nothing else. -/
structure Sends (client : Expr) (call : Option (List Expr)) (body : List Stmt) : Prop where
  data : Stmt.const "data" (sentData client call) ∈ body
  encodes : transportCalls "encode" (Stmt.nodesOfAll body) = call.toList

/-- The call that encodes the arguments of a constructor; none where it has
no inputs. -/
def deployCall (args : ConstructorArgs) : Option (List Expr) :=
  if args.isEmpty then none else some (.str "" :: .strings args.types :: args.args)

/-- Both ways to deploy send the encoded arguments. -/
theorem sends_deployBody {client : Expr} {args : ConstructorArgs}
    (hclient : client = .ident Scope.client ∨ client = .own Scope.client)
    (hargs : ∀ e ∈ args.args, e.isLeaf = true) (bytecode : String) (target : DeployTarget) :
    Sends client (deployCall args) (deployBody bytecode args client target) := by
  have hdata : deployData args client = sentData client (deployCall args) := by
    by_cases hempty : args.isEmpty
    · simp [deployData, deployCall, hempty, sentData]
    · simp [deployData, deployCall, hempty, sentData, Transport.encode]
  have hencodes := encodeCalls_deployBody hclient hargs bytecode target
  constructor
  · rw [deployBody, hdata]
    exact List.mem_cons_of_mem _ List.mem_cons_self
  · rw [hencodes, deployCall]
    by_cases hempty : args.isEmpty
    · simp [hempty]
    · simp [hempty]

/-- Both ways to deploy take the same parameters behind their own and send
the same call, one if and only if the constructor has inputs; the call
encodes these inputs from the parameters. -/
structure NamespaceParts.Deploys (parts : NamespaceParts) (inputs : List Abi.Param)
    (params : List Param) (call : Option (List Expr)) : Prop where
  bound : params.map Param.name = (constructorNames inputs).map Prod.snd
  given : call.isSome = true ↔ inputs ≠ []
  encodes : ∀ args, call = some args → Encodes "" (constructorNames inputs) inputs args
  functionParams : parts.deployParams =
    .typed Scope.client Transport.ty :: .typed Scope.linker linkerTy :: params
  functionSends : Sends (.ident Scope.client) call parts.deployBody
  method : ∃ returns body,
    Member.method .open Scope.deployMember (.typed Scope.linker linkerTy :: params) returns body
      ∈ parts.own ∧ Sends (.own Scope.client) call body

theorem NamespaceParts.StandFor.deploys {parts : NamespaceParts} {options : Options}
    {contract : Contract} {face : Interface} {args : ConstructorArgs} {inputs : List Abi.Param}
    (h : parts.StandFor options contract face args)
    (hargs : (ConstructorArgs.ofInputs inputs).result = .ok args) :
    parts.Deploys inputs args.params (deployCall args) := by
  have hleaf := ConstructorArgs.isLeaf_of_ofInputs hargs
  have hempty := ConstructorArgs.isEmpty_of_ofInputs hargs
  obtain ⟨htypes, hvalues, -⟩ := ConstructorArgs.ofInputs_eq_ok.mp hargs
  refine ⟨?_, ?_, ?_, h.deployParams, ?_, ?_⟩
  · rw [ConstructorArgs.names_of_ofInputs hargs, constructorNames, List.map_map]
    rfl
  · rw [deployCall, hempty]
    cases inputs <;> simp
  · intro call hcall
    have heq : .str "" :: .strings args.types :: args.args = call := by
      rw [deployCall, hempty] at hcall
      cases inputs with
      | nil => simp at hcall
      | cons p rest => simpa using hcall
    rw [← heq, htypes, hvalues]
    exact encodes_of_standsFor fun input hinput => standsFor_constructorArgument hinput
  · rw [h.deployBody]
    exact sends_deployBody (.inl rfl) hleaf _ _
  · refine ⟨some (.promise classTy), _, ?_, sends_deployBody (.inr rfl) hleaf
      contract.bytecode (.rebind Scope.withAddress)⟩
    rw [h.own]
    simp [ownMembers, deployMethod]

end Deployments

/-- **Arguments keep their places.**  In the namespace of a contract, under
either policy, the entry of every method group encodes the inputs of each of
its functions at their places, and the method of the group passes its own
parameters on to the entry in order; and both ways to deploy encode the
inputs of the constructor alike, whenever there are any. -/
theorem arguments_keep_places {options : Options} {contract : Contract} {d : Decl}
    (h : (contractNamespace options contract).result = .ok d) :
    ∃ face parts, (Interface.ofContract contract options.policy).result = .ok face ∧
      d = NamespaceParts.decl parts contract.name ∧
      List.Forall₂ EncodesGroup face.methods parts.encoders ∧
      List.Forall₂ PassesAll face.methods parts.methods ∧
      ∃ params call, parts.Deploys (constructorInputs contract.abi) params call := by
  obtain ⟨face, args, parts, hface, hargs, hparts, hd⟩ := contractNamespace_eq_ok.mp h
  rw [ConstructorArgs.of_eq_ofInputs, inputsOf_constructor hface] at hargs
  refine ⟨face, parts, hface, hd, ?_, ?_, args.params, deployCall args,
    hparts.deploys hargs⟩
  · refine List.forall₂_iff_zip.mpr ⟨hparts.encoders.length_eq, ?_⟩
    intro g entry hmem
    have hg : g ∈ face.methods := (List.of_mem_zip hmem).1
    apply encodesGroup_of_encoder
    · intro f hf input hinput hnamed
      exact name_mem_params hface hg hf hinput hnamed
    · exact List.forall₂_zip hparts.encoders hmem
  · exact hparts.methods.imp fun _ _ => passesAll_of_functionMethod

/-- The inputs of a constructor, the first of them without a name. -/
def vaultInputs : List Abi.Param :=
  [{ name := "", kind := "address" }, { name := "limit", kind := "uint32" }]

/-- A contract with two functions that share one of their inputs, where one
has an input without a name between two others. -/
def vault : Contract :=
  { name := "Vault", bytecode := "",
    abi := [.constructor ⟨vaultInputs, .nonpayable⟩,
      .function ⟨"move", [{ name := "to", kind := "address" }, { name := "", kind := "uint32" },
        { name := "by", kind := "string" }], [], .nonpayable⟩,
      .function ⟨"move", [{ name := "by", kind := "string" }], [], .nonpayable⟩] }

/-- Both deployments encode the two inputs of its constructor. -/
theorem arguments_keep_places_vault :
    ∃ d, (contractNamespace {} vault).result = .ok d ∧
      ∃ (face : Interface) (parts : NamespaceParts), d = parts.decl "Vault" ∧
        List.Forall₂ EncodesGroup face.methods parts.encoders ∧
        List.Forall₂ PassesAll face.methods parts.methods ∧
        ∃ params call, parts.Deploys vaultInputs params (some call) ∧
          Encodes "" (constructorNames vaultInputs) vaultInputs call := by
  have hresult : ∃ d, (contractNamespace {} vault).result = .ok d := ⟨_, rfl⟩
  obtain ⟨d, hd⟩ := hresult
  obtain ⟨face, parts, -, hdecl, hencoders, hmethods, params, call, hdeploys⟩ :=
    arguments_keep_places hd
  have hinputs : constructorInputs vault.abi = vaultInputs := rfl
  rw [hinputs] at hdeploys
  have hsome : call.isSome = true := hdeploys.given.mpr (by simp [vaultInputs])
  obtain ⟨encoded, rfl⟩ := Option.isSome_iff_exists.mp hsome
  exact ⟨d, hd, face, parts, hdecl, hencoders, hmethods, params, encoded, hdeploys,
    hdeploys.encodes encoded rfl⟩

end AbiBindings.Client
