import AbiBindings.Proofs.Client.Branches
import AbiBindings.Proofs.Client.Deployment
import AbiBindings.Proofs.Client.MemberCalls
import AbiBindings.Proofs.Client.ParameterNames
import AbiBindings.Proofs.Script.Scoping

/-!
# Parameters of contracts capture nothing

A generated function has parameters that are named after those of the
contract, and beside them names of its own: parameters that it adds, constants
of its body, and names that it uses and leaves to the scope around it.  It is
`Hygienic` when the first are none of the others, so every name that its body
uses stands for what it was meant to, and when the callbacks in its body do not
depend on the contract's parameters, so no callback can hide one of them where
it is used.  Both ways to deploy, the methods and the encoders are hygienic
(`hygienic_deployFunction`, `hygienic_deployMethod`, `hygienic_method`,
`hygienic_encoder`).
-/

namespace AbiBindings.Client

open Script Interface

/-- The parameters of a function that are `derived` from those of a contract
are none of the parameters that are `added` to them, of the constants of its
body and of its `own` names; the body uses no other names; and the callbacks
inside are those of the `bare` body, which is made without any parameter. -/
structure Hygienic (derived added own : List String) (body bare : List Stmt) : Prop where
  apart_added : derived.Disjoint added
  apart_constants : derived.Disjoint (blockBound body)
  apart_own : derived.Disjoint own
  used : ∀ x ∈ Stmt.freeOfAll body, x ∈ derived ∨ x ∈ added ∨ x ∈ blockBound body ∨ x ∈ own
  callbacks : arrows (Stmt.nodesOfAll body) = arrows (Stmt.nodesOfAll bare)

/-- Identifiers of parameters are none of the locals around them and no names
of the module scope. -/
theorem disjoint_of_parameterIdent {derived locals names : List String}
    (hderived : ∀ x ∈ derived, ∃ name, x = Scope.parameterIdent name locals)
    (hnames : ∀ x ∈ names, x ∈ locals ∨ x ∈ Scope.module) : derived.Disjoint names := by
  intro x hx hname
  obtain ⟨name, rfl⟩ := hderived x hx
  rcases hnames _ hname with hlocal | hmodule
  · exact Scope.parameterIdent_not_mem_locals name locals hlocal
  · exact Scope.parameterIdent_not_mem_module name locals hmodule

/-- String literals use no names. -/
theorem free_strings (values : List String) : Expr.freeOfAll (values.map .str) = [] := by
  simp [Expr.freeOfAll_eq, List.flatMap_map]

/-- A call of the transport that encodes plain arguments has no callbacks. -/
theorem arrows_encode {client : Expr} (hclient : arrows client.nodes = []) (selector : String)
    (types : List String) {args : List Expr} (hargs : ∀ e ∈ args, e.isLeaf = true) :
    arrows (Transport.encode client selector types args).nodes = [] := by
  have htypes : Expr.nodesOfAll (types.map .str) = types.map .str :=
    Expr.nodesOfAll_of_isLeaf (by simp [Expr.isLeaf])
  have hplain := arrows_eq_nil_iff.mp (arrows_of_isLeaf hargs)
  rw [arrows_eq_nil_iff] at hclient ⊢
  simpa [Transport.encode, Expr.method, Expr.apply, Expr.strings, Expr.nodes, Expr.nodesOfAll,
    htypes, Expr.nodesOfAll_of_isLeaf hargs, Expr.isArrow, or_imp, forall_and] using
    ⟨hclient, hplain⟩

section Deployments

variable {inputs : List Abi.Param} {args : ConstructorArgs}
  (h : (ConstructorArgs.ofInputs inputs).result = .ok args)
include h

theorem mem_constructorParams {x : String} (hx : x ∈ args.params.map Param.name) :
    ∃ name, x = Scope.parameterIdent name Scope.deployLocals := by
  rw [ConstructorArgs.names_of_ofInputs h] at hx
  obtain ⟨p, -, rfl⟩ := List.mem_map.mp hx
  exact ⟨p.name, rfl⟩

/-- Constructor arguments use the parameters of the constructor. -/
theorem free_constructorArgs {x : String} (hx : x ∈ Expr.freeOfAll args.args) :
    x ∈ args.params.map Param.name := by
  rw [ConstructorArgs.names_of_ofInputs h]
  rw [(ConstructorArgs.ofInputs_eq_ok.mp h).2.1, Expr.freeOfAll_eq, List.flatMap_map,
    List.mem_flatMap] at hx
  obtain ⟨p, hp, hmem⟩ := hx
  unfold constructorArgument at hmem
  split at hmem
  case isFalse => simp at hmem
  case isTrue hnamed =>
    rw [Expr.free, List.mem_singleton] at hmem
    exact List.mem_map.mpr ⟨p, List.mem_filter.mpr ⟨hp, hnamed⟩, hmem.symm⟩

omit h in
/-- A deployment uses what it uses without arguments, and what its transport
and its arguments use. -/
theorem free_deployBody {bytecode : String} {client : Expr} {target : DeployTarget} {x : String}
    (hx : x ∈ Stmt.freeOfAll (deployBody bytecode args client target)) :
    x ∈ Stmt.freeOfAll (deployBody "" {} client target) ∨ x ∈ client.free ∨
      x ∈ Expr.freeOfAll args.args := by
  have hdata : ∀ x ∈ (deployData args client).free,
      x = "bytecode" ∨ x ∈ client.free ∨ x ∈ Expr.freeOfAll args.args := by
    intro x hx
    unfold deployData at hx
    split at hx
    · exact .inl (by simpa using hx)
    · simpa [Transport.encode, Expr.method, Expr.apply, Expr.strings, free_strings] using hx
  have hbare : (deployData {} client).free = ["bytecode"] := rfl
  simp only [deployBody, Stmt.freeOfAll, Stmt.free, hbare, List.mem_append] at hx ⊢
  rcases hx with hx | hx | hx
  · exact .inl (.inl hx)
  · rcases hdata x hx with rfl | hx
    · exact .inl (.inr (.inl (by simp)))
    · exact .inr hx
  · exact .inl (.inr (.inr hx))

/-- The callbacks of a deployment do not depend on its arguments. -/
theorem arrows_deployBody (bytecode : String) {client : Expr} (target : DeployTarget)
    (hclient : arrows client.nodes = []) :
    arrows (Stmt.nodesOfAll (deployBody bytecode args client target)) =
      arrows (Stmt.nodesOfAll (deployBody "" {} client target)) := by
  have hdata : arrows (deployData args client).nodes = [] := by
    unfold deployData
    split
    · rfl
    · have hencode := arrows_encode hclient "" args.types (ConstructorArgs.isLeaf_of_ofInputs h)
      rw [arrows_eq_nil_iff] at hencode ⊢
      simpa [Expr.nodes, Expr.isArrow] using hencode
  have hlink : ∀ code, arrows
      (Stmt.const "bytecode" (.apply (.ident Scope.linker) [.str code])).nodes = [] := fun _ => rfl
  have hbare : arrows (deployData {} client).nodes = [] := rfl
  simp only [deployBody, Stmt.nodesOfAll, arrows_append, hlink]
  simp only [Stmt.nodes, hdata, hbare]

/-- A deployment is hygienic as far as its transport and what it resolves to
are. -/
theorem hygienic_deployBody (bytecode : String) {client : Expr} {target : DeployTarget}
    {added own : List String} (hadded : ∀ x ∈ added, x ∈ Scope.deployLocals ∨ x ∈ Scope.module)
    (hown : ∀ x ∈ own, x ∈ Scope.deployLocals ∨ x ∈ Scope.module)
    (hclient : ∀ x ∈ client.free, x ∈ added) (harrows : arrows client.nodes = [])
    (hbare : ∀ x ∈ Stmt.freeOfAll (deployBody "" {} client target),
      x ∈ added ∨ x ∈ ["bytecode", "data", "payload"] ∨ x ∈ own) :
    Hygienic (args.params.map Param.name) added own (deployBody bytecode args client target)
      (deployBody "" {} client target) := by
  have hderived := fun x => mem_constructorParams h (x := x)
  refine ⟨?_, ?_, ?_, ?_, arrows_deployBody h bytecode target harrows⟩
  · exact disjoint_of_parameterIdent hderived hadded
  · exact disjoint_of_parameterIdent hderived
      (by decide : ∀ x ∈ ["bytecode", "data", "payload"], _)
  · exact disjoint_of_parameterIdent hderived hown
  · intro x hx
    rcases free_deployBody hx with hx | hx | hx
    · exact .inr (hbare x hx)
    · exact .inr (.inl (hclient x hx))
    · exact .inl (free_constructorArgs h hx)

/-- **Deploying.**  The function that deploys a contract is hygienic. -/
theorem hygienic_deployFunction (bytecode : String) :
    Hygienic (args.params.map Param.name) [Scope.client, Scope.linker]
      ["Promise", "Buffer", Scope.contract]
      (deployBody bytecode args (.ident Scope.client) (.instance Scope.contract))
      (deployBody "" {} (.ident Scope.client) (.instance Scope.contract)) :=
  hygienic_deployBody h bytecode (by decide) (by decide) (by decide) rfl (by decide)

/-- **Deploying.**  The method that deploys a contract is hygienic. -/
theorem hygienic_deployMethod (bytecode : String) :
    Hygienic (args.params.map Param.name) [Scope.linker] ["Promise", "Buffer"]
      (deployBody bytecode args (.own Scope.client) (.rebind Scope.withAddress))
      (deployBody "" {} (.own Scope.client) (.rebind Scope.withAddress)) :=
  hygienic_deployBody h bytecode (by decide) (by decide) (by decide) rfl (by decide)

end Deployments

section Groups

variable {g : MethodGroup}

theorem mem_parameters {x : String} (hx : x ∈ g.parameters.map Param.name) :
    ∃ name, x = Scope.parameterIdent name Scope.memberLocals := by
  rw [g.names_parameters] at hx
  obtain ⟨p, -, rfl⟩ := List.mem_map.mp hx
  exact ⟨p.name, rfl⟩

theorem ident_mem_parameters {p : GroupParam} (hp : p ∈ g.params) :
    p.ident ∈ g.parameters.map Param.name := by
  rw [g.names_parameters]
  exact List.mem_map_of_mem hp

/-- The body of the method of a group whose outputs have that type. -/
def methodBody (g : MethodGroup) (output : Ty) : List Stmt :=
  [.const "data" (encoded g), .returns (answer g output)]

/-- What is passed for parameters uses the parameters. -/
theorem free_passed {x : String} (hx : x ∈ Expr.freeOfAll (passed g)) :
    x ∈ g.parameters.map Param.name := by
  rw [passed, Expr.freeOfAll_eq, List.flatMap_map, List.mem_flatMap] at hx
  obtain ⟨p, hp, hx⟩ := hx
  rw [Expr.free, List.mem_singleton] at hx
  exact hx ▸ ident_mem_parameters hp

theorem arrows_encoded (g : MethodGroup) : arrows (encoded g).nodes = [] := by
  have hpassed := arrows_eq_nil_iff.mp (arrows_of_isLeaf (isLeaf_passed (g := g)))
  have hnodes : Expr.nodesOfAll (g.params.map fun p => .ident p.ident) = passed g :=
    Expr.nodesOfAll_of_isLeaf isLeaf_passed
  rw [arrows_eq_nil_iff]
  simpa [encoded, Expr.method, Expr.apply, Expr.own, Expr.nodes, Expr.nodesOfAll, hnodes,
    Expr.isArrow] using hpassed

/-- **Methods.**  The methods of a class are hygienic; their one callback only
takes the raw result. -/
theorem hygienic_method (g : MethodGroup) (output : Ty) :
    Hygienic (g.parameters.map Param.name) [] [Scope.encode, Scope.decode, Scope.call]
      (methodBody g output) (methodBody { g with params := [] } output) := by
  have hderived := fun x => mem_parameters (g := g) (x := x)
  refine ⟨List.disjoint_nil_right _, ?_, ?_, ?_, ?_⟩
  · exact disjoint_of_parameterIdent hderived (by decide : ∀ x ∈ ["data"], _)
  · exact disjoint_of_parameterIdent hderived (by decide)
  · intro x hx
    have hencoded : (encoded g).free = Scope.encode :: Expr.freeOfAll (passed g) := rfl
    have hanswer : ∀ x ∈ (answer g output).free,
        x ∈ ["data"] ∨ x ∈ [Scope.encode, Scope.decode, Scope.call] := by
      have hfree : (answer g output).free = [Scope.call, "data", Scope.decode] := by
        rfl
      rw [hfree]
      decide
    simp only [methodBody, Stmt.returns, Stmt.freeOfAll, Stmt.free, Expr.freeOfOption, hencoded,
      List.mem_append, List.mem_cons, List.not_mem_nil, or_false] at hx
    rcases hx with (rfl | hx) | hx
    · exact .inr (.inr (.inr (by simp)))
    · exact .inl (free_passed hx)
    · exact .inr (.inr (hanswer x hx))
  · have hsame : answer { g with params := [] } output = answer g output := rfl
    simp only [methodBody, Stmt.nodesOfAll, Stmt.nodes, arrows_append, arrows_encoded, hsame]

section Encoders

theorem free_check {e : Expr} (h : IsCheck g e) {x : String} (hx : x ∈ e.free) :
    x ∈ g.parameters.map Param.name ∨ x ∈ ["Buffer", "Array"] := by
  obtain ⟨p, hp, rfl | ⟨guard, rfl⟩⟩ := h
  · have hident : x = p.ident := by simpa [Expr.equals] using hx
    exact .inl (hident ▸ ident_mem_parameters hp)
  · have hident : x = p.ident ∨ x ∈ ["Buffer", "Array"] := by
      cases guard <;> simp_all [Guard.check, Expr.equals, Expr.method, Expr.apply]
      all_goals tauto
    rcases hident with rfl | hx
    · exact .inl (ident_mem_parameters hp)
    · exact .inr hx

theorem arrows_check {e : Expr} (h : IsCheck g e) : arrows e.nodes = [] := by
  obtain ⟨p, -, rfl | ⟨guard, rfl⟩⟩ := h
  · rfl
  · cases guard <;> rfl

theorem free_encodeCall {f : Abi.Function} {x : String} (hx : x ∈ (encodeCall g f).free) :
    x ∈ g.parameters.map Param.name ∨ x = Scope.client := by
  have hcases : x = Scope.client ∨ x ∈ Expr.freeOfAll (f.inputs.map (argument g.params)) := by
    simpa [encodeCall, Transport.encode, Expr.method, Expr.apply, Expr.strings,
      free_strings] using hx
  refine hcases.symm.imp_left fun hx => ?_
  rw [Expr.freeOfAll_eq, List.flatMap_map, List.mem_flatMap] at hx
  obtain ⟨input, -, hx⟩ := hx
  unfold argument at hx
  split at hx
  case h_1 p hfind =>
    rw [Expr.free, List.mem_singleton] at hx
    exact hx ▸ ident_mem_parameters (List.mem_of_find?_eq_some hfind)
  case h_2 => simp at hx

theorem arrows_encodeCall (g : MethodGroup) (f : Abi.Function) :
    arrows (encodeCall g f).nodes = [] := by
  apply arrows_encode rfl
  intro e he
  obtain ⟨input, -, rfl⟩ := List.mem_map.mp he
  exact isLeaf_argument g.params input

theorem free_branch {s : Stmt} (h : IsBranch g s) {x : String} (hx : x ∈ s.free) :
    x ∈ g.parameters.map Param.name ∨ x ∈ [Scope.client, "Buffer", "Array"] := by
  obtain ⟨f, -, checks, hchecks, rfl⟩ := h
  have hcall : ∀ x ∈ (encodeCall g f).free,
      x ∈ g.parameters.map Param.name ∨ x ∈ [Scope.client, "Buffer", "Array"] := fun x hx =>
    (free_encodeCall hx).imp_right fun heq => by simp [heq]
  cases htest : Expr.allOf? checks with
  | none =>
      rw [htest] at hx
      exact hcall x hx
  | some test =>
      rw [htest] at hx
      have hcases : x ∈ test.free ∨ x ∈ (encodeCall g f).free := by
        simpa [dispatch, Stmt.returns] using hx
      rcases hcases with hx | hx
      · rw [Expr.free_joined htest, List.mem_flatMap] at hx
        obtain ⟨c, hc, hx⟩ := hx
        exact (free_check (hchecks c hc) hx).imp_right (List.mem_cons_of_mem _)
      · exact hcall x hx

theorem arrows_branch {s : Stmt} (h : IsBranch g s) : arrows s.nodes = [] := by
  obtain ⟨f, -, checks, hchecks, rfl⟩ := h
  cases htest : Expr.allOf? checks with
  | none => exact arrows_encodeCall g f
  | some test =>
      have hnone := arrows_joined htest fun c hc => arrows_check (hchecks c hc)
      simp [dispatch, Stmt.returns, Stmt.nodes, Stmt.nodesOfAll, Expr.nodesOfOption,
        arrows_append, hnone, arrows_encodeCall]

/-- **Encoders.**  The entries of the table of encoders are hygienic and have
no callbacks at all. -/
theorem hygienic_encoder {e : Expr} (h : (encoder g).result = .ok e) :
    ∃ body, e = .arrow [] g.parameters none body ∧ blockBound body = [] ∧
      Hygienic (g.parameters.map Param.name) [] [Scope.client, "Buffer", "Array", "Error"]
        body [] := by
  have hderived := fun x => mem_parameters (g := g) (x := x)
  obtain ⟨body, rfl, hbody⟩ := branches_of_encoder h
  have hbound : blockBound body = [] := by
    rw [blockBound, List.flatMap_eq_nil_iff]
    intro s hs
    rcases hbody s hs with ⟨f, -, checks, -, rfl⟩ | rfl
    · cases Expr.allOf? checks <;> rfl
    · rfl
  refine ⟨body, rfl, hbound, List.disjoint_nil_right _, ?_, ?_, ?_, ?_⟩
  · exact hbound ▸ List.disjoint_nil_right _
  · exact disjoint_of_parameterIdent hderived (by decide)
  · intro x hx
    rw [Stmt.freeOfAll_eq, List.mem_flatMap] at hx
    obtain ⟨s, hs, hx⟩ := hx
    rcases hbody s hs with hbranch | rfl
    · rcases free_branch hbranch hx with hx | hx
      · exact .inl hx
      · exact .inr (.inr (.inr (List.mem_append_left ["Error"] hx)))
    · have herror : x = "Error" := by simpa [noOverload] using hx
      exact .inr (.inr (.inr (by simp [herror])))
  · change arrows (Stmt.nodesOfAll body) = []
    rw [Stmt.nodesOfAll_eq, arrows_eq_nil_iff]
    intro e he
    obtain ⟨s, hs, he⟩ := List.mem_flatMap.mp he
    rcases hbody s hs with hbranch | rfl
    · exact arrows_eq_nil_iff.mp (arrows_branch hbranch) e he
    · exact arrows_eq_nil_iff.mp (rfl : arrows (noOverload g).nodes = []) e he

end Encoders

/-- The local of an output is none of the names around it. -/
theorem outputLocal_not_mem (p : Abi.Param) :
    outputLocal p ∉ Scope.client :: "data" :: Scope.module := by
  have hlocal := Scope.parameterIdent_not_mem_locals p.name Scope.memberLocals
  have hmodule := Scope.parameterIdent_not_mem_module p.name Scope.memberLocals
  intro hmem
  rcases List.mem_append.mp (show outputLocal p ∈ Scope.memberLocals ++ Scope.module from hmem)
    with hmem | hmem
  · exact hlocal hmem
  · exact hmodule hmem

/-- The call that decodes a raw result uses the transport and the result. -/
theorem free_decode (types : List String) :
    (Transport.decode (.ident Scope.client) (.ident "data") types).free =
      [Scope.client, "data"] := by
  simp [Transport.decode, Expr.method, Expr.apply, Expr.strings, free_strings]

theorem arrows_decode (types : List String) :
    arrows (Transport.decode (.ident Scope.client) (.ident "data") types).nodes = [] := by
  have htypes : Expr.nodesOfAll (types.map .str) = types.map .str :=
    Expr.nodesOfAll_of_isLeaf (by simp [Expr.isLeaf])
  rw [arrows_eq_nil_iff]
  simp [Transport.decode, Expr.method, Expr.apply, Expr.strings, Expr.nodes, Expr.nodesOfAll,
    htypes, Expr.isArrow]

/-- The object of the outputs uses their locals. -/
theorem free_outputEntries (outputs : List Abi.Param) :
    Expr.freeOfEntries (outputs.map fun p => (p.name, .ident (outputLocal p))) =
      outputs.map outputLocal := by
  rw [Expr.freeOfEntries_eq, List.flatMap_map, List.map_eq_flatMap]
  rfl

theorem arrows_outputEntries (outputs : List Abi.Param) :
    arrows (Expr.nodesOfEntries (outputs.map fun p => (p.name, .ident (outputLocal p)))) = [] := by
  rw [Expr.nodesOfEntries_eq, List.flatMap_map, arrows_eq_nil_iff]
  intro e he
  obtain ⟨p, -, he⟩ := List.mem_flatMap.mp he
  rw [List.mem_singleton.mp he]
  rfl

/-- **Decoders.**  The constants of a decoder are none of the names around
them, it uses nothing but them, the transport and the raw result, and it has
no callbacks. -/
theorem bound_decodeBody (outputs : List Abi.Param) :
    (blockBound (decodeBody outputs)).Disjoint (Scope.client :: "data" :: Scope.module) ∧
      (∀ x ∈ Stmt.freeOfAll (decodeBody outputs),
        x ∈ blockBound (decodeBody outputs) ∨ x ∈ [Scope.client, "data"]) ∧
      arrows (Stmt.nodesOfAll (decodeBody outputs)) = [] := by
  unfold decodeBody
  split
  · simp [blockBound, Stmt.nodesOfAll, Stmt.nodes, Expr.nodesOfOption, arrows]
  split
  · refine ⟨?_, ?_, ?_⟩
    · intro x hx
      have hx' : x ∈ outputs.map outputLocal := by simpa [blockBound, Stmt.returns] using hx
      obtain ⟨p, -, rfl⟩ := List.mem_map.mp hx'
      exact outputLocal_not_mem p
    · intro x hx
      simp only [Stmt.returns, Stmt.freeOfAll, Stmt.free, Expr.freeOfOption, Expr.free,
        free_decode, free_outputEntries, List.append_nil, List.mem_append] at hx
      rcases hx with hx | hx
      · exact .inr hx
      · exact .inl (by simpa [blockBound, Stmt.returns] using hx)
    · simp only [Stmt.returns, Stmt.nodesOfAll, Stmt.nodes, Expr.nodesOfOption, Expr.nodes,
        arrows_append, arrows_decode]
      simpa [arrows, Expr.isArrow] using arrows_outputEntries outputs
  · simp [blockBound, Stmt.returns, Stmt.nodesOfAll, Stmt.nodes, Expr.nodesOfOption, free_decode,
      arrows_decode]

end Groups

end AbiBindings.Client
