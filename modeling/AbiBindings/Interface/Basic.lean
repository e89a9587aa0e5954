import AbiBindings.Abi.Canonical
import AbiBindings.Descriptor.Code
import AbiBindings.Descriptor.OfParam
import AbiBindings.Interface.Grouping

/-!
# The interface of a contract class

The members of one generated class, each bound to what it stands for in the
interface description.  A method group is a member with the functions behind it:
their parameters are merged into one list, keyed by the declared names, and the
outputs are the same for all of them.
-/

namespace AbiBindings.Interface

open Script

/-- A parameter of a method group; it is optional when some of the functions do
not take it. -/
structure GroupParam where
  name : String
  descriptor : Descriptor
  optional : Bool := false
deriving DecidableEq, Repr, Inhabited

namespace GroupParam

/-- The identifier of the parameter. -/
def ident (p : GroupParam) : String :=
  Scope.parameterIdent p.name Scope.memberLocals

/-- The parameter as it is declared. -/
def toParam (p : GroupParam) : Script.Param :=
  { name := p.ident, ty := some p.descriptor.ty, optional := p.optional }

end GroupParam

/-- The functions behind one member. -/
structure MethodGroup extends NameGroup Abi.Function where
  ident : String
  params : List GroupParam
deriving Inhabited

namespace MethodGroup

/-- The functions in declared order. -/
def overloads (g : MethodGroup) : List Abi.Function := g.items

/-- Whether the member stands for several functions. -/
def isOverloaded (g : MethodGroup) : Bool := g.isShared

/-- The outputs, the same for every function. -/
def outputs (g : MethodGroup) : List Abi.Param := g.first.outputs

/-- The parameters as they are declared. -/
def parameters (g : MethodGroup) : List Script.Param := g.params.map GroupParam.toParam

end MethodGroup

/-- The first named input of that name. -/
def input? (inputs : List Abi.Param) (name : String) : Option Abi.Param :=
  inputs.find? fun p => p.isNamed && p.name == name

/-- The descriptor that a function gives to a parameter of its group, if it
takes it. -/
def MethodGroup.overloadType (g : MethodGroup) (f : Abi.Function) (p : GroupParam) :
    Outcome (Option Descriptor) :=
  match input? f.inputs p.name with
  | some input => some <$> Descriptor.ofParam g.name input
  | none => pure none

/-- An event and the member that subscribes to it. -/
structure EventBinding where
  ident : String
  event : Abi.Event
deriving Inhabited

end AbiBindings.Interface

namespace AbiBindings

/-- The members of one contract class. -/
structure Interface where
  contract : String
  constructor : Option Abi.Constructor
  methods : List Interface.MethodGroup
  events : List Interface.EventBinding
  /-- the signatures of all entries that have a selector, in declared order -/
  signatures : List Signature
deriving Inhabited

end AbiBindings
