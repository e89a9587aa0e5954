import AbiBindings.Fault
import AbiBindings.Text.Lowercase

/-!
# Overload policies

How the functions that share a declared name become members of one class: each
under a mangled name of its own, or all of them combined into one member that
dispatches on its arguments.
-/

namespace AbiBindings

/-- How functions of one name are exposed. -/
inductive Policy where
  | mangle | combine
deriving DecidableEq, Repr, Inhabited

namespace Policy

/-- The name of a policy. -/
def text : Policy → String
  | .mangle => "mangle"
  | .combine => "combine"

/-- The policy of exactly that name. -/
def ofName? (name : String) : Option Policy :=
  [mangle, combine].find? fun p => p.text == name

/-- The policy of that name in any case of its letters. -/
def parse (s : String) : Except Fault Policy :=
  let name := Text.lowercase s
  match ofName? name with
  | some p => .ok p
  | none => .error (.unknownPolicy name)

end Policy

/-- What is asked of the generated code. -/
structure Options where
  policy : Policy := .combine
  emitLinks : Bool := true
deriving DecidableEq, Repr, Inhabited

end AbiBindings
