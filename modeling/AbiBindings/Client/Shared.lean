import AbiBindings.Client.Transport

/-!
# Shared helpers

The two functions that every module declares once for all of its contracts: one
performs a call and maps its raw result, the other puts the address of a library
in place of its placeholder.
-/

namespace AbiBindings.Client

open Script

/-- The function that performs a call of `data` at `addr` and resolves to what
`callback` makes of the result. -/
def callHelper : Decl :=
  let output := Ty.named "Output"
  let perform := Transport.call (.ident "client") (.ident "payload")
    (.callback "err" "exec" [.settle "err" [] (.apply (.ident "callback") [.ident "exec"])])
  .function true Scope.call [Scope.transaction, "Output"]
    [.typed "client" Transport.ty, .typed "addr" .string, .typed "data" .string,
      .typed "callback" (.fn [.typed "exec" Transport.bytes] output)]
    (some (.promise output))
    [.const "payload" (Transport.payload (.ident "client") (.ident "data") (.ident "addr")),
      .returns (.newPromise [.expr perform])]

/-- The number of hexadecimal digits of an address in bytecode. -/
def addressDigits : Nat := 40

/-- The function that puts an address, padded with zeros on the right, in place
of every occurrence of a placeholder. -/
def replaceHelper : Decl :=
  let padded := Expr.method (.ident "address") "padEnd" [.num addressDigits, .str "0"]
  .function true Scope.replace []
    [.typed "bytecode" .string, .typed "placeholder" .string, .typed "address" .string]
    (some .string)
    [.returns
      (.method (.method (.ident "bytecode") "split" [.ident "placeholder"]) "join" [padded])]

end AbiBindings.Client
