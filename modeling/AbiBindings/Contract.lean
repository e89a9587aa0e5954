import AbiBindings.Abi.Basic

/-!
# Compiled contracts

What the generator takes in: a name, an interface description, the bytecode and
the places in the bytecode where the addresses of libraries belong.
-/

namespace AbiBindings

/-- A range of bytes of the bytecode. -/
structure LinkOffset where
  start : Nat
  length : Nat
deriving DecidableEq, Repr, Inhabited

/-- A library and the places where its address belongs. -/
structure LinkReference where
  file : String
  library : String
  offsets : List LinkOffset
deriving DecidableEq, Repr, Inhabited

/-- The qualified name of the library. -/
def LinkReference.token (link : LinkReference) : String :=
  link.file ++ ":" ++ link.library

/-- A compiled contract. -/
structure Contract where
  name : String
  abi : List Abi.Entry
  bytecode : String
  links : List LinkReference := []
deriving Inhabited

end AbiBindings
