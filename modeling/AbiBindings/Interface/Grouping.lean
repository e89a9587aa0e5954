import AbiBindings.Abi.Basic
import AbiBindings.Interface.Registry
import AbiBindings.Policy

/-!
# Declared names and what shares them

The base name of a function or event is its declared name without any parameter
list.  Items of one base name form a group; groups stand in the order in which
their names first appear, and the items of a group in declared order.
-/

namespace AbiBindings.Interface

open Script

/-- A declared name without any parameter list. -/
def baseName (name : String) : String :=
  String.ofList (name.toList.takeWhile (· != '('))

/-- The member name for a base name.  A reserved word may name a member and
stays as it is. -/
def memberName (base : String) : String :=
  if isReserved base then base else safeIdentifier base

/-- The characters of the input names that may stand in an identifier. -/
def inputLetters (inputs : List Abi.Param) : String :=
  String.ofList ((inputs.flatMap fun p => p.name.toList).filter isWordChar)

/-- The member name for a base name, told from others by the names of the
inputs. -/
def mangledName (base : String) (inputs : List Abi.Param) : String :=
  memberName base ++ inputLetters inputs

/-- Items of one base name, at least one. -/
structure NameGroup (α : Type) where
  name : String
  first : α
  others : List α
deriving Inhabited

namespace NameGroup

variable {α : Type}

/-- The items in declared order. -/
def items (g : NameGroup α) : List α := g.first :: g.others

/-- Whether several items share the name. -/
def isShared (g : NameGroup α) : Bool := !g.others.isEmpty

/-- The groups with one more item of that name. -/
def add : List (NameGroup α) → String → α → List (NameGroup α)
  | [], name, a => [⟨name, a, []⟩]
  | g :: rest, name, a =>
      if g.name = name then { g with others := g.others ++ [a] } :: rest else g :: add rest name a

/-- The items grouped by their base names. -/
def group (name : α → String) (items : List α) : List (NameGroup α) :=
  items.foldl (fun gs a => add gs (baseName (name a)) a) []

end NameGroup

/-- Functions that are to become one member, with the request for its name. -/
abbrev MethodPlan := NameRequest × NameGroup Abi.Function

/-- The members that the functions of one name become.  Combined, they are one
member under their own name; mangled, each is a member, under its own name only
when it shares it with no other. -/
def methodPlans (policy : Policy) (g : NameGroup Abi.Function) : List MethodPlan :=
  let own := (.own (memberName g.name) (mangledName g.name g.first.inputs), g)
  match policy with
  | .combine => [own]
  | .mangle =>
      if g.isShared then
        g.items.map fun f => (.mangled (mangledName g.name f.inputs), ⟨g.name, f, []⟩)
      else [own]

/-- The members that the events of one name become.  An event keeps its own name
unless it shares it with another event, with a function or with a member that
every class has. -/
def eventPlans (functionNames : List String) (g : NameGroup Abi.Event) :
    List (NameRequest × Abi.Event) :=
  let clash := g.isShared || functionNames.contains g.name || Scope.ownMembers.contains g.name
  g.items.map fun e =>
    let mangled := mangledName g.name e.inputs
    (if clash then .mangled mangled else .own (memberName g.name) mangled, e)

end AbiBindings.Interface
