import AbiBindings.Client.Transport
import AbiBindings.Interface.Basic

/-!
# The table of decoders

One function per method group turns a raw result into a value.  No outputs make
no value, outputs that all have names an object with these names as its keys,
and any others a tuple.
-/

namespace AbiBindings.Client

open Script Interface

/-- Whether there are outputs and all of them have names. -/
def allNamed (outputs : List Abi.Param) : Bool :=
  !outputs.isEmpty && outputs.all Abi.Param.isNamed

/-- The type of the value that outputs decode to. -/
def outputType (scope : String) (outputs : List Abi.Param) : Outcome Ty :=
  if outputs.isEmpty then pure .void
  else do
    let ds ← Descriptor.ofParams scope outputs
    let tys := Descriptor.tys ds
    pure (if allNamed outputs then .object ((outputs.map (·.name)).zip tys) else .tuple tys)

/-- The local that holds the output of that name. -/
def outputLocal (p : Abi.Param) : String :=
  Scope.parameterIdent p.name Scope.memberLocals

/-- The body of a decoder of the outputs. -/
def decodeBody (outputs : List Abi.Param) : List Stmt :=
  let decoded :=
    Transport.decode (.ident Scope.client) (.ident "data") (Abi.canonicalTypes outputs)
  if outputs.isEmpty then [.ret none]
  else if allNamed outputs then
    [.constArray (outputs.map outputLocal) decoded,
      .returns (.object (outputs.map fun p => (p.name, .ident (outputLocal p))))]
  else [.returns decoded]

/-- The decoder of a group. -/
def decoder (g : MethodGroup) : Outcome Expr := do
  let ty ← outputType g.name g.outputs
  pure (.arrow [] [] (some ty) (decodeBody g.outputs))

/-- The decoder of each group under its identifier. -/
def decoders : List MethodGroup → Outcome (List (String × Expr))
  | [] => pure []
  | g :: rest => do
      let e ← decoder g
      let others ← decoders rest
      pure ((g.ident, e) :: others)

/-- The table of decoders over a transport and a raw result. -/
def decodeTable (methods : List MethodGroup) : Outcome Decl := do
  let entries ← decoders methods
  pure (.const true Scope.decode
    (.arrow [Scope.transaction] [.typed Scope.client Transport.ty, .typed "data" Transport.bytes]
      none [.returns (.object entries)]))

end AbiBindings.Client
