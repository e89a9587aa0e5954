import AbiBindings.Descriptor.Basic
import AbiBindings.Script.Build

/-!
# Descriptors in the generated code

The type annotation of a descriptor, and the expression that checks at run time
whether a value has it.
-/

namespace AbiBindings

open Script

/-- The expression that checks the guard on `subject`. -/
def Guard.check (subject : Expr) : Guard → Expr
  | .number => .equals (.typeOf subject) (.str "number")
  | .boolean => .equals (.typeOf subject) (.str "boolean")
  | .string => .equals (.typeOf subject) (.str "string")
  | .buffer => .method (.ident "Buffer") "isBuffer" [subject]
  | .array => .method (.ident "Array") "isArray" [subject]
  | .any => .binary subject .strictNe .undefined

namespace Descriptor

mutual

/-- The expression that checks whether `subject` has the descriptor: one of the
checks of the members for a union, the check of the guard for any other. -/
def check (subject : Expr) : Descriptor → Expr
  | .union members => (Expr.anyOf? (checks subject members)).getD (Guard.any.check subject)
  | d => d.guard.check subject

/-- The check of each descriptor. -/
def checks (subject : Expr) : List Descriptor → List Expr
  | [] => []
  | d :: rest => d.check subject :: checks subject rest

end

mutual

/-- The type annotation of a descriptor. -/
def ty : Descriptor → Ty
  | .integer => .number
  | .boolean => .boolean
  | .bytes => .named "Buffer"
  | .string => .string
  | .array element => .array element.ty
  | .tuple items => .tuple (tys items)
  | .union members => .union (tys members)
  | .generic name => .named name

/-- The type annotation of each descriptor. -/
def tys : List Descriptor → List Ty
  | [] => []
  | d :: rest => d.ty :: tys rest

end

end Descriptor

end AbiBindings
