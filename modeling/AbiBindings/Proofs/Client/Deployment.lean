import AbiBindings.Client.Class
import AbiBindings.Proofs.Client.Calls
import AbiBindings.Proofs.Interface.Merging

/-!
# The two ways to deploy a contract

The arguments of a constructor are read off its inputs one by one
(`ConstructorArgs.ofInputs_eq_ok`): a type and an argument for each input, and
a parameter for each named one.  Both ways to deploy run the same statements
on another transport and with another end, so both encode the same arguments,
behind an empty selector, and only where there are inputs
(`encodeCalls_deployBody`).
-/

namespace AbiBindings.Client

open Script

/-- The identifier of a constructor parameter of that declared name. -/
def deployIdent (name : String) : String := Scope.parameterIdent name Scope.deployLocals

/-- What is passed for an input of a constructor. -/
def constructorArgument (p : Abi.Param) : Expr :=
  if p.isNamed then .ident (deployIdent p.name) else .undefined

theorem isLeaf_constructorArgument (p : Abi.Param) :
    (constructorArgument p).isLeaf = true := by
  unfold constructorArgument
  split <;> rfl

namespace ConstructorArgs

/-- A constructor takes the shape of its inputs: a parameter is made of each
named input and its descriptor. -/
theorem result_ofInputs (inputs : List Abi.Param) :
    (ofInputs inputs).result =
      (fun shape : Interface.InputShape =>
        ⟨shape.map fun e => Param.typed (deployIdent e.1) e.2.ty,
          inputs.map constructorArgument, Abi.canonicalTypes inputs⟩) <$>
        (Interface.inputShape constructorScope inputs).result := by
  induction inputs with
  | nil => rfl
  | cons p rest ih =>
      by_cases hnamed : p.isNamed
      · simp only [ofInputs, Interface.inputShape, hnamed, if_true, Outcome.result_bind,
          Outcome.result_pure, ih]
        cases (Descriptor.ofParam constructorScope p).result with
        | error fault => rfl
        | ok d =>
            cases (Interface.inputShape constructorScope rest).result with
            | error fault => rfl
            | ok shape => simp [bind, Except.bind, constructorArgument, hnamed, deployIdent,
                Abi.canonicalTypes]
      · simp only [ofInputs, Interface.inputShape, hnamed, Bool.false_eq_true, if_false,
          Outcome.result_bind, Outcome.result_pure, ih]
        cases (Interface.inputShape constructorScope rest).result with
        | error fault => rfl
        | ok shape => simp [bind, Except.bind, constructorArgument, hnamed, Abi.canonicalTypes]

/-- **Constructor arguments.**  Each input has a type and an argument, each
named input a parameter whose type is its descriptor's. -/
theorem ofInputs_eq_ok {inputs : List Abi.Param} {a : ConstructorArgs} :
    (ofInputs inputs).result = .ok a ↔
      a.types = Abi.canonicalTypes inputs ∧ a.args = inputs.map constructorArgument ∧
      List.Forall₂ (fun p q => ∃ d, (Descriptor.ofParam constructorScope p).result = .ok d ∧
        q = Param.typed (deployIdent p.name) d.ty) (inputs.filter Abi.Param.isNamed) a.params := by
  rw [result_ofInputs, map_eq_ok]
  constructor
  · intro hall
    obtain ⟨shape, hshape, rfl⟩ := hall
    refine ⟨rfl, rfl, List.forall₂_map_right_iff.mpr ?_⟩
    refine (Interface.inputShape_eq_ok.mp hshape).imp fun p e he => ⟨e.2, he.2, ?_⟩
    rw [he.1]
  · intro hall
    obtain ⟨params, args, types⟩ := a
    obtain ⟨rfl, rfl, hparams⟩ := hall
    have hshape : ∃ shape : Interface.InputShape,
        List.Forall₂ (fun p e => e.1 = p.name ∧
          (Descriptor.ofParam constructorScope p).result = .ok e.2)
            (inputs.filter Abi.Param.isNamed) shape ∧
          (shape.map fun e => Param.typed (deployIdent e.1) e.2.ty) = params := by
      simp only at hparams
      generalize inputs.filter Abi.Param.isNamed = named at hparams
      induction hparams with
      | nil => exact ⟨[], .nil, rfl⟩
      | @cons p q named params hp _ ih =>
          obtain ⟨d, hd, rfl⟩ := hp
          obtain ⟨shape, hshape, rfl⟩ := ih
          exact ⟨(p.name, d) :: shape, .cons ⟨rfl, hd⟩ hshape, rfl⟩
    obtain ⟨shape, hshape, rfl⟩ := hshape
    exact ⟨shape, Interface.inputShape_eq_ok.mpr hshape, rfl⟩

/-- The inputs of a constructor; none where there is no constructor. -/
def inputsOf (constructor : Option Abi.Constructor) : List Abi.Param :=
  (constructor.map Abi.Constructor.inputs).getD []

theorem of_eq_ofInputs (constructor : Option Abi.Constructor) :
    of constructor = ofInputs (inputsOf constructor) := by
  cases constructor <;> rfl

section Of

variable {inputs : List Abi.Param} {a : ConstructorArgs}

theorem isLeaf_of_ofInputs (h : (ofInputs inputs).result = .ok a) :
    ∀ e ∈ a.args, e.isLeaf = true := by
  intro e he
  rw [(ofInputs_eq_ok.mp h).2.1] at he
  obtain ⟨p, -, rfl⟩ := List.mem_map.mp he
  exact isLeaf_constructorArgument p

/-- The parameters have the identifiers of the named inputs, in declared
order. -/
theorem names_of_ofInputs (h : (ofInputs inputs).result = .ok a) :
    a.params.map Param.name =
      (inputs.filter Abi.Param.isNamed).map fun p => deployIdent p.name := by
  apply SideBySide.map_eq_map (ofInputs_eq_ok.mp h).2.2
  intro p q hq
  obtain ⟨d, -, rfl⟩ := hq
  rfl

/-- No parameter of a constructor has a default value. -/
theorem default_of_ofInputs (h : (ofInputs inputs).result = .ok a) :
    ∀ p ∈ a.params, p.default = none := by
  intro q hq
  obtain ⟨p, -, d, -, rfl⟩ := SideBySide.exists_item (ofInputs_eq_ok.mp h).2.2 hq
  rfl

theorem isEmpty_of_ofInputs (h : (ofInputs inputs).result = .ok a) :
    a.isEmpty = inputs.isEmpty := by
  rw [isEmpty, (ofInputs_eq_ok.mp h).1]
  cases inputs <;> rfl

end Of

end ConstructorArgs

section Bodies

variable {client : Expr} (hclient : client = .ident Scope.client ∨ client = .own Scope.client)
  {args : ConstructorArgs} (hargs : ∀ e ∈ args.args, e.isLeaf = true)

include hclient

/-- Behind the data a deployment encodes nothing and does not listen. -/
private theorem calls_of_deployment {method : String}
    (hmethod : method = "encode" ∨ method = "listen") (bytecode : String)
    (target : DeployTarget) :
    transportCalls method (Stmt.nodesOfAll (deployBody bytecode args client target)) =
      transportCalls method (deployData args client).nodes := by
  have hlink : transportCalls method
      (Stmt.const "bytecode" (.apply (.ident Scope.linker) [.str bytecode])).nodes = [] := rfl
  have hcreation : transportCalls method
      (Stmt.const "payload" (Transport.creation client (.ident "data"))).nodes = [] := by
    rcases hclient with rfl | rfl <;> rcases hmethod with rfl | rfl <;> rfl
  have hsettle : transportCalls method (Stmt.returns (.newPromise
      [.expr (Transport.deploy client (.ident "payload")
        (.callback "err" "addr" [target.settle client]))])).nodes = [] := by
    rcases hclient with rfl | rfl <;> rcases hmethod with rfl | rfl <;> cases target <;> rfl
  simp only [deployBody, Stmt.nodesOfAll, transportCalls_append, hlink, hcreation, hsettle,
    List.nil_append, List.append_nil]
  rfl

include hargs

/-- The data encodes the arguments of a constructor that has inputs. -/
private theorem calls_of_data (method : String) :
    transportCalls method (deployData args client).nodes =
      if args.isEmpty then []
      else if "encode" == method then [.str "" :: .strings args.types :: args.args] else [] := by
  by_cases hempty : args.isEmpty
  · rw [deployData, if_pos hempty, if_pos hempty]
    rfl
  · rw [deployData, if_neg hempty, if_neg hempty, transportCalls_binary,
      transportCalls_encode hclient _ _ _ hargs]
    rfl

/-- **Deployments.**  A deployment encodes the arguments of the constructor
behind an empty selector where it has inputs, and nothing else. -/
theorem encodeCalls_deployBody (bytecode : String) (target : DeployTarget) :
    transportCalls "encode" (Stmt.nodesOfAll (deployBody bytecode args client target)) =
      if args.isEmpty then [] else [.str "" :: .strings args.types :: args.args] := by
  rw [calls_of_deployment hclient (.inl rfl), calls_of_data hclient hargs]
  rfl

/-- A deployment does not listen. -/
theorem listenCalls_deployBody (bytecode : String) (target : DeployTarget) :
    transportCalls "listen" (Stmt.nodesOfAll (deployBody bytecode args client target)) = [] := by
  rw [calls_of_deployment hclient (.inr rfl), calls_of_data hclient hargs]
  exact ite_self []

end Bodies

end AbiBindings.Client
