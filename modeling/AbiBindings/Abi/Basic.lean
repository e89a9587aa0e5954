/-!
# Contract interface descriptions

An interface description (ABI) lists the functions, the events and the
constructor of a contract, each with its parameters in declared order.  The type
of a parameter is kept as it was written; a tuple type carries its components as
parameters of their own.
-/

namespace AbiBindings.Abi

/-- What a function may do to the state of the chain. -/
inductive Mutability where
  | pure | view | nonpayable | payable
deriving DecidableEq, Repr, Inhabited

/-- A parameter: an input, an output or a component of a tuple.  `indexed` is
given for inputs of events only, and `components` for tuples only. -/
structure Param where
  name : String
  kind : String
  internalType : Option String := none
  components : Option (List Param) := none
  indexed : Option Bool := none
deriving Inhabited

/-- Whether the parameter has a name. -/
def Param.isNamed (p : Param) : Bool :=
  !p.name.isEmpty

/-- A function; the fallback functions of a contract have the empty name. -/
structure Function where
  name : String
  inputs : List Param
  outputs : List Param
  mutability : Mutability
deriving Inhabited

/-- An event. -/
structure Event where
  name : String
  inputs : List Param
  anonymous : Bool
deriving Inhabited

/-- The constructor. -/
structure Constructor where
  inputs : List Param
  mutability : Mutability
deriving Inhabited

/-- One item of an interface description. -/
inductive Entry where
  | function (f : Function)
  | event (e : Event)
  | constructor (c : Constructor)
deriving Inhabited

/-- The declared name; a constructor has none. -/
def Entry.name : Entry → String
  | .function f => f.name
  | .event e => e.name
  | .constructor _ => ""

/-- The inputs, in declared order. -/
def Entry.inputs : Entry → List Param
  | .function f => f.inputs
  | .event e => e.inputs
  | .constructor c => c.inputs

end AbiBindings.Abi
