import AbiBindings.Scope
import AbiBindings.Script.Build

/-!
# The transport

The generated code reaches a chain through one interface, which every module
declares: it encodes calls, decodes results, builds transactions, performs them
and listens for events.  The transaction type is left to the one who implements
it.
-/

namespace AbiBindings.Client.Transport

open Script

/-- The transaction type. -/
def transaction : Ty := .named Scope.transaction

/-- The type of a transport. -/
def ty : Ty := .ref Scope.provider [transaction]

/-- The type of raw results. -/
def bytes : Ty := .named "Uint8Array"

/-- The type of a function that is told of an error or of a value of that name
and type. -/
def callbackTy (name : String) (value : Ty) : Ty :=
  .fn [.typed "err" (.named "Error"), .typed name value] .void

/-- The declaration of the interface. -/
def interface : Decl :=
  .interface true Scope.provider [Scope.transaction]
    [⟨"deploy", [.typed "msg" transaction, .typed "callback" (callbackTy "addr" bytes)], .void⟩,
      ⟨"call", [.typed "msg" transaction, .typed "callback" (callbackTy "exec" bytes)], .void⟩,
      ⟨"listen", [.typed "signature" .string, .typed "address" .string,
        .typed "callback" (callbackTy "event" .any)], .named Scope.readable⟩,
      ⟨"payload", [.typed "data" .string,
        { Param.typed "address" .string with optional := true }], transaction⟩,
      ⟨"encode", [.typed "name" .string, .typed "inputs" (.array .string),
        { Param.typed "args" (.array .any) with rest := true }], .string⟩,
      ⟨"decode", [.typed "data" bytes, .typed "outputs" (.array .string)], .any⟩]

/-- Encodes arguments of the given types behind a selector. -/
def encode (client : Expr) (selector : String) (types : List String) (args : List Expr) : Expr :=
  .method client "encode" (.str selector :: .strings types :: args)

/-- Decodes a result of the given types. -/
def decode (client data : Expr) (types : List String) : Expr :=
  .method client "decode" [data, .strings types]

/-- Builds the transaction that creates a contract. -/
def creation (client data : Expr) : Expr := .method client "payload" [data]

/-- Builds the transaction that calls a contract. -/
def payload (client data address : Expr) : Expr := .method client "payload" [data, address]

/-- Performs the transaction that creates a contract. -/
def deploy (client payload callback : Expr) : Expr := .method client "deploy" [payload, callback]

/-- Performs the transaction that calls a contract. -/
def call (client payload callback : Expr) : Expr := .method client "call" [payload, callback]

/-- Listens for the events of a selector at an address. -/
def listen (client : Expr) (selector : String) (address callback : Expr) : Expr :=
  .method client "listen" [.str selector, address, callback]

end AbiBindings.Client.Transport
