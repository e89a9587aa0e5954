import AbiBindings.Abi.Basic
import AbiBindings.Outcome
import AbiBindings.Text.Lowercase
import AbiBindings.Text.Search

/-!
# Descriptors of ABI types

The array suffixes of a type are taken off first, the last one first, and each
becomes an array layer.  The word that is left decides the rest by what it
holds, in any case of its ASCII letters: `int`, `bool`, `tuple` or `bytes`,
looked for in this order.  Any other word stands for an opaque string, with a
warning unless it is one of the types that are meant to.  The only fault is a
tuple without components, named by the path from the entry to it.
-/

namespace AbiBindings

/-- What the word of a type stands for.  `text` is told whether the word is
meant to be opaque. -/
inductive Shape where
  | integer | boolean | tuple | bytes
  | text (known : Bool)
deriving DecidableEq, Repr

namespace Shape

/-- Whether the word, in lower case, is an opaque type by intention. -/
def isKnownOpaque (word : List Char) : Bool :=
  ["address".toList, "string".toList, "function".toList].contains word
    || "fixed".toList.isPrefixOf word || "ufixed".toList.isPrefixOf word

/-- The shape of a type without array suffixes. -/
def ofWord (word : List Char) : Shape :=
  let lower := Text.lowercaseAscii word
  if Text.holds "int".toList lower then .integer
  else if Text.holds "bool".toList lower then .boolean
  else if Text.holds "tuple".toList lower then .tuple
  else if Text.holds "bytes".toList lower then .bytes
  else .text (isKnownOpaque lower)

end Shape

namespace Descriptor

/-- A reversed type without its array suffix: a closing bracket, any digits and
an opening bracket. -/
def stripArray? : List Char → Option (List Char)
  | ']' :: rest =>
      match rest.dropWhile Char.isDigit with
      | '[' :: word => some word
      | _ => none
  | _ => none

/-- A reversed type without its array suffixes, at most `fuel` of them, and
their number. -/
def peelWithin : Nat → List Char → List Char × Nat
  | 0, kind => (kind, 0)
  | fuel + 1, kind =>
      match stripArray? kind with
      | some word =>
          let (base, layers) := peelWithin fuel word
          (base, layers + 1)
      | none => (kind, 0)

/-- A type without its array suffixes, and their number. -/
def peel (kind : String) : List Char × Nat :=
  let (base, layers) := peelWithin kind.length kind.toList.reverse
  (base.reverse, layers)

/-- The descriptor under `layers` array layers. -/
def layered : Nat → Descriptor → Descriptor
  | 0, d => d
  | layers + 1, d => .array (layered layers d)

/-- The path of a parameter inside of `scope`. -/
def pathOf (scope name : String) : String :=
  scope ++ "." ++ (if name.isEmpty then "<unnamed>" else name)

mutual

/-- The descriptor of a parameter that stands inside of `scope`. -/
def ofParam (scope : String) : Abi.Param → Outcome Descriptor
  | { name, kind, components, .. } =>
      let path := pathOf scope name
      let (word, layers) := peel kind
      layered layers <$>
        match Shape.ofWord word with
        | .integer => pure .integer
        | .boolean => pure .boolean
        | .bytes => pure .bytes
        | .text true => pure .string
        | .text false => do
            Outcome.warn (.unknownType path (String.ofList word))
            pure .string
        | .tuple => ofComponents path components

/-- The tuple of the components of the parameter at `path`. -/
def ofComponents (path : String) : Option (List Abi.Param) → Outcome Descriptor
  | some (c :: rest) => do
      let first ← ofParam path c
      let others ← ofParams path rest
      pure (.tuple (first :: others))
  | _ => Outcome.fail (.emptyTuple path)

/-- The descriptors of parameters that stand inside of `scope`. -/
def ofParams (scope : String) : List Abi.Param → Outcome (List Descriptor)
  | [] => pure []
  | p :: rest => do
      let d ← ofParam scope p
      let ds ← ofParams scope rest
      pure (d :: ds)

end

end Descriptor

end AbiBindings
