import AbiBindings.Client.Decode
import AbiBindings.Client.Deploy

/-!
# The class of a contract

The members that every class has come first, then a method per method group and
a subscription per event.  A method passes its parameters to the encoder of its
own identifier and the raw result to the decoder of the same identifier.
-/

namespace AbiBindings.Client

open Script Interface

/-- The type of an instance. -/
def classTy : Ty := .ref Scope.contract [Transport.transaction]

/-- The method that deploys the contract and binds the instance to it. -/
def deployMethod (bytecode : String) (args : ConstructorArgs) : Member :=
  .method .open Scope.deployMember (.typed Scope.linker linkerTy :: args.params)
    (some (.promise classTy))
    (deployBody bytecode args (.own Scope.client) (.rebind Scope.withAddress))

/-- The members that every class has. -/
def ownMembers (bytecode : String) (args : ConstructorArgs) : List Member :=
  [.property .closed Scope.client Transport.ty,
    .property .closed Scope.address .string,
    .constructor
      [.typed Scope.client Transport.ty,
        { Param.typed Scope.address .string with default := some (.str "") }]
      [.assign (.own Scope.client) (.ident Scope.client),
        .assign (.own Scope.address) (.ident Scope.address)],
    .method .closed Scope.withAddress [.typed "addr" Transport.bytes] (some classTy)
      [.assign (.own Scope.address) (addressOf (.ident "addr")), .returns .this],
    .method .open Scope.getAddress [] (some .string) [.returns (.own Scope.address)],
    deployMethod bytecode args]

/-- The call of the encoder of a group on its own parameters. -/
def encoded (g : MethodGroup) : Expr :=
  .method (.apply (.ident Scope.encode) [.own Scope.client]) g.ident
    (g.params.map fun p => .ident p.ident)

/-- The function that maps a raw result by the decoder of a group. -/
def decoded (g : MethodGroup) : Expr :=
  .arrow [] [.typed "exec" Transport.bytes] none
    [.returns
      (.method (.apply (.ident Scope.decode) [.own Scope.client, .ident "exec"]) g.ident [])]

/-- The method of a group. -/
def functionMethod (g : MethodGroup) : Outcome Member := do
  let output ← outputType g.name g.outputs
  pure (.method .open g.ident g.parameters (some (.promise output))
    [.const "data" (encoded g),
      .returns (.call (.ident Scope.call) [Transport.transaction, output]
        [.own Scope.client, .own Scope.address, .ident "data", decoded g])])

/-- The method of each group. -/
def functionMethods : List MethodGroup → Outcome (List Member)
  | [] => pure []
  | g :: rest => do
      let m ← functionMethod g
      let others ← functionMethods rest
      pure (m :: others)

/-- The subscription of an event. -/
def eventMethod (e : EventBinding) : Member :=
  .method .open e.ident [.typed "callback" (Transport.callbackTy "event" .any)]
    (some (.named Scope.readable))
    [.returns (Transport.listen (.own Scope.client) e.event.signature.selector
      (.own Scope.address) (.ident "callback"))]

/-- The class of a contract of that bytecode and interface. -/
def contractClass (bytecode : String) (face : Interface) (args : ConstructorArgs) :
    Outcome Decl := do
  let methods ← functionMethods face.methods
  pure (.class true Scope.contract [Scope.transaction]
    (ownMembers bytecode args ++ methods ++ face.events.map eventMethod))

end AbiBindings.Client
