import AbiBindings.Abi.Basic
import AbiBindings.Selector

/-!
# Canonical signatures

The canonical form of a type is the type as written, except that a tuple is
spelled by the canonical forms of its components.  A canonical signature is the
declared name with the canonical types of the inputs in parentheses; a name that
already holds a parenthesis is taken to be one.
-/

namespace AbiBindings

/-- The parts with a comma between them, in parentheses. -/
def parameterList (parts : List (List Char)) : List Char :=
  '(' :: (List.intercalate [','] parts ++ [')'])

namespace Abi

/-- What follows the word `tuple` at the start of a type. -/
def tupleSuffix? (kind : String) : Option (List Char) :=
  "tuple".toList.isPrefixOf? kind.toList

mutual

/-- The characters of the canonical type of a parameter. -/
def Param.canonicalChars : Param → List Char
  | { kind, components := none, .. } => kind.toList
  | { kind, components := some components, .. } =>
      match tupleSuffix? kind with
      | some suffix => parameterList (canonicalParts components) ++ suffix
      | none => kind.toList

/-- The characters of the canonical type of each parameter. -/
def canonicalParts : List Param → List (List Char)
  | [] => []
  | p :: rest => p.canonicalChars :: canonicalParts rest

end

/-- The canonical type of a parameter. -/
def Param.canonicalType (p : Param) : String :=
  String.ofList p.canonicalChars

/-- The canonical types of parameters. -/
def canonicalTypes (params : List Param) : List String :=
  params.map Param.canonicalType

/-- The canonical signature of a function or event. -/
def canonicalSignature (name : String) (inputs : List Param) : String :=
  if name.toList.contains '(' then name
  else String.ofList (name.toList ++ parameterList (canonicalParts inputs))

end Abi

/-- The canonical form of a function or event, with its selector. -/
structure Signature where
  canonical : String
  selector : String
deriving DecidableEq, Repr

/-- The signature of a function or event of that name and those inputs. -/
def Signature.of (name : String) (inputs : List Abi.Param) : Signature :=
  let canonical := Abi.canonicalSignature name inputs
  ⟨canonical, AbiBindings.selector canonical⟩

/-- The signature of a function. -/
def Abi.Function.signature (f : Abi.Function) : Signature :=
  .of f.name f.inputs

/-- The signature of an event. -/
def Abi.Event.signature (e : Abi.Event) : Signature :=
  .of e.name e.inputs

end AbiBindings
