import AbiBindings.Client.Transport
import AbiBindings.Abi.Canonical
import AbiBindings.Descriptor.Code
import AbiBindings.Descriptor.OfParam

/-!
# Deployment

A contract is deployed in two places of the generated code, by a function that
makes a new instance and by a method that binds the instance it is called on.
Both link the bytecode, append the encoded constructor arguments if there are
inputs, and differ only in what they resolve to.
-/

namespace AbiBindings.Client

open Script

/-- The scope that faults of constructor inputs are named in. -/
def constructorScope : String := "constructor"

/-- The inputs of a constructor in the generated code: a parameter for each
named input, and a type and an argument for each input. -/
structure ConstructorArgs where
  params : List Param := []
  args : List Expr := []
  types : List String := []

namespace ConstructorArgs

/-- Whether the constructor has no inputs. -/
def isEmpty (a : ConstructorArgs) : Bool := a.types.isEmpty

/-- The arguments for inputs. -/
def ofInputs : List Abi.Param → Outcome ConstructorArgs
  | [] => pure {}
  | p :: rest =>
      if p.isNamed then do
        let ident := Scope.parameterIdent p.name Scope.deployLocals
        let d ← Descriptor.ofParam constructorScope p
        let more ← ofInputs rest
        pure ⟨.typed ident d.ty :: more.params, .ident ident :: more.args,
          p.canonicalType :: more.types⟩
      else do
        let more ← ofInputs rest
        pure ⟨more.params, .undefined :: more.args, p.canonicalType :: more.types⟩

/-- The arguments of a constructor; none where there is no constructor. -/
def of (constructor : Option Abi.Constructor) : Outcome ConstructorArgs :=
  match constructor with
  | some c => ofInputs c.inputs
  | none => pure {}

end ConstructorArgs

/-- The address that bytes stand for. -/
def addressOf (bytes : Expr) : Expr :=
  .method (.method (.bufferFrom bytes) "toString" [.str "hex"]) "toUpperCase" []

/-- The type of a linker of bytecode. -/
def linkerTy : Ty := .fn [.typed "bytecode" .string] .string

/-- What a deployment resolves to. -/
inductive DeployTarget where
  /-- a new instance of the class -/
  | instance (className : String)
  /-- the instance itself, bound by the method -/
  | rebind (method : String)

/-- The statement that settles a deployment. -/
def DeployTarget.settle (client : Expr) : DeployTarget → Stmt
  | .instance className =>
      .settle "err" [.const "address" (addressOf (.ident "addr"))]
        (.new (.ident className) [Transport.transaction] [client, .ident "address"])
  | .rebind method => .settle "err" [] (.method .this method [.ident "addr"])

/-- The linked bytecode with the encoded constructor arguments behind it. -/
def deployData (args : ConstructorArgs) (client : Expr) : Expr :=
  if args.isEmpty then .ident "bytecode"
  else .binary (.ident "bytecode") .plus (Transport.encode client "" args.types args.args)

/-- The statements that link, encode and deploy the bytecode. -/
def deployBody (bytecode : String) (args : ConstructorArgs) (client : Expr)
    (target : DeployTarget) : List Stmt :=
  [.const "bytecode" (.apply (.ident Scope.linker) [.str bytecode]),
    .const "data" (deployData args client),
    .const "payload" (Transport.creation client (.ident "data")),
    .returns (.newPromise
      [.expr (Transport.deploy client (.ident "payload")
        (.callback "err" "addr" [target.settle client]))])]

/-- The function that deploys the bytecode and makes an instance of the
class. -/
def deployFunction (bytecode : String) (args : ConstructorArgs) (className : String) : Decl :=
  .function true Scope.deploy [Scope.transaction]
    (.typed Scope.client Transport.ty :: .typed Scope.linker linkerTy :: args.params)
    (some (.promise (.ref className [Transport.transaction])))
    (deployBody bytecode args (.ident Scope.client) (.instance className))

end AbiBindings.Client
