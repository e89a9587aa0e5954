import AbiBindings.Contract
import AbiBindings.Scope
import AbiBindings.Script.Build
import AbiBindings.Selector
import AbiBindings.Text.Search

/-!
# The table of link placeholders

A library is known by its qualified name, and its placeholder is what the
bytecode holds at the first place where its address belongs.  Two hexadecimal
digits make a byte, so offsets count twice.  Where the bytecode has no such
place, the placeholder is computed from the qualified name.
-/

namespace AbiBindings.Client

open Script

/-- What the bytecode holds at the first place of a link. -/
def placeholderAt? (bytecode : String) (link : LinkReference) : Option String := do
  let offset ← link.offsets.head?
  Text.sliceBytes? bytecode (offset.start * 2) (offset.length * 2)

/-- The placeholder of a link. -/
def placeholder (bytecode : String) (link : LinkReference) : String :=
  (placeholderAt? bytecode link).getD (linkPlaceholder link.token)

/-- The qualified name and the placeholder of each link. -/
def linkTable (bytecode : String) (links : List LinkReference) : List (String × String) :=
  links.map fun link => (link.token, placeholder bytecode link)

/-- The declaration of the table, unless there is nothing to link. -/
def linksConst? (bytecode : String) (links : List LinkReference) : Option Decl :=
  if links.isEmpty then none
  else some (.const true Scope.links
    (.object ((linkTable bytecode links).map fun (token, text) => (token, .str text))))

end AbiBindings.Client
