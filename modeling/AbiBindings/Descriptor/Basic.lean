/-!
# Type descriptors and run-time guards

A descriptor says how values of an ABI type look in the generated code, and a
guard is the check that tells such values apart while the code runs.  Every
descriptor that is not a union has one guard; a union has those of its members.
-/

namespace AbiBindings

/-- How values of an ABI type look in the generated code.  A `union` is the type
of a parameter that several overloads share, and `generic` a type parameter of
the generated code. -/
inductive Descriptor where
  | integer | boolean | bytes | string
  | array (element : Descriptor)
  | tuple (items : List Descriptor)
  | union (members : List Descriptor)
  | generic (name : String)
deriving Inhabited, Repr

/-- A run-time check of the shape of a value. -/
inductive Guard where
  | number | boolean | string | buffer | array | any
deriving DecidableEq, Repr, Inhabited

/-- Whether some value passes both checks. -/
def Guard.overlaps (g h : Guard) : Bool :=
  g == h || g == .any || h == .any

namespace Descriptor

mutual

/-- Equality of descriptors. -/
def beq : Descriptor → Descriptor → Bool
  | .integer, .integer | .boolean, .boolean | .bytes, .bytes | .string, .string => true
  | .array a, .array b => beq a b
  | .tuple as, .tuple bs => beqAll as bs
  | .union as, .union bs => beqAll as bs
  | .generic a, .generic b => a == b
  | _, _ => false

/-- Equality of lists of descriptors. -/
def beqAll : List Descriptor → List Descriptor → Bool
  | [], [] => true
  | a :: as, b :: bs => beq a b && beqAll as bs
  | _, _ => false

end

mutual

theorem beq_iff : (a b : Descriptor) → (beq a b = true ↔ a = b)
  | .integer, b | .boolean, b | .bytes, b | .string, b => by cases b <;> simp [beq]
  | .array a, b => by cases b <;> simp [beq, beq_iff a]
  | .tuple as, b => by cases b <;> simp [beq, beqAll_iff as]
  | .union as, b => by cases b <;> simp [beq, beqAll_iff as]
  | .generic a, b => by cases b <;> simp [beq]

theorem beqAll_iff : (as bs : List Descriptor) → (beqAll as bs = true ↔ as = bs)
  | [], bs => by cases bs <;> simp [beqAll]
  | a :: as, bs => by cases bs <;> simp [beqAll, beq_iff a, beqAll_iff as]

end

instance : DecidableEq Descriptor := fun a b =>
  decidable_of_iff (beq a b = true) (beq_iff a b)

/-- The guard of a descriptor; that of a union says nothing. -/
def guard : Descriptor → Guard
  | .integer => .number
  | .boolean => .boolean
  | .bytes => .buffer
  | .string => .string
  | .array _ | .tuple _ => .array
  | .union _ | .generic _ => .any

mutual

/-- The guards of a descriptor, those of all members for a union. -/
def guards : Descriptor → List Guard
  | .union members => guardsOfAll members
  | d => [d.guard]

/-- The guards of each descriptor, one after the other. -/
def guardsOfAll : List Descriptor → List Guard
  | [] => []
  | d :: rest => guards d ++ guardsOfAll rest

end

/-- The members of a union, or the descriptor alone. -/
def members : Descriptor → List Descriptor
  | .union ms => ms
  | d => [d]

mutual

/-- The name of a descriptor in messages. -/
def text : Descriptor → String
  | .integer => "integer"
  | .boolean => "boolean"
  | .bytes => "bytes"
  | .string => "string"
  | .array element => "array<" ++ element.text ++ ">"
  | .tuple items => "tuple<" ++ ", ".intercalate (texts items) ++ ">"
  | .union members => " | ".intercalate (texts members)
  | .generic name => name

/-- The name of each descriptor. -/
def texts : List Descriptor → List String
  | [] => []
  | d :: rest => d.text :: texts rest

end

end Descriptor

end AbiBindings
