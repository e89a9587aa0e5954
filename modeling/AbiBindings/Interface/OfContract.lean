import AbiBindings.Contract
import AbiBindings.Interface.Methods

/-!
# From a contract to its interface

Named functions and events become members; a function or event without a name
has none and is only warned about.  The names of the members are settled first,
from the declared names alone, and the parameters of the methods after that, so
a fault never depends on what a member is called.
-/

namespace AbiBindings

namespace Abi

/-- The functions that have a name. -/
def namedFunctions (entries : List Entry) : List Function :=
  entries.filterMap fun
    | .function f => if f.name.isEmpty then none else some f
    | _ => none

/-- The events that have a name. -/
def namedEvents (entries : List Entry) : List Event :=
  entries.filterMap fun
    | .event e => if e.name.isEmpty then none else some e
    | _ => none

/-- The signature of an entry that has a selector: a function or event with a
name or with inputs. -/
def Entry.signature? : Entry → Option Signature
  | .function f => if f.name.isEmpty && f.inputs.isEmpty then none else some f.signature
  | .event e => if e.name.isEmpty && e.inputs.isEmpty then none else some e.signature
  | .constructor _ => none

/-- The warnings for an entry that gets no member. -/
def Entry.warnings (contract : String) : Entry → List Warning
  | .function f =>
      if f.name.isEmpty && !f.inputs.isEmpty then [.unnamedFunction contract] else []
  | .event e => if e.name.isEmpty then [.unnamedEvent contract] else []
  | .constructor _ => []

end Abi

namespace Interface

/-- The only constructor among the entries after one that may have been seen
before. -/
def constructorOf (contract : String) (seen : Option Abi.Constructor) :
    List Abi.Entry → Outcome (Option Abi.Constructor)
  | [] => pure seen
  | entry :: rest =>
      match entry with
      | .constructor c =>
          match seen with
          | some _ => Outcome.fail (.duplicateConstructor contract)
          | none => constructorOf contract (some c) rest
      | _ => do
          Outcome.note (entry.warnings contract)
          constructorOf contract seen rest

/-- The members of a list of entries: the functions with the identifiers of
their methods, and the events with those of their subscriptions. -/
def memberNames (policy : Policy) (entries : List Abi.Entry) :
    List (String × NameGroup Abi.Function) × List (String × Abi.Event) :=
  let functions := NameGroup.group Abi.Function.name (Abi.namedFunctions entries)
  let events := NameGroup.group Abi.Event.name (Abi.namedEvents entries)
  let methods := functions.flatMap (methodPlans policy)
  let bindings := events.flatMap (eventPlans (functions.map (·.name)))
  let registry := Registry.new.holdAll (methods.map (·.1) ++ bindings.map (·.1))
  let (namedMethods, next) := registry.serveAll methods
  (namedMethods, (next.serveAll bindings).1)

/-- The interface of a contract under a policy. -/
def ofContract (contract : Contract) (policy : Policy) : Outcome Interface := do
  let constructor ← constructorOf contract.name none contract.abi
  let (methods, events) := memberNames policy contract.abi
  let groups ← methodGroups policy methods
  pure {
    contract := contract.name
    constructor
    methods := groups
    events := events.map fun (ident, e) => ⟨ident, e⟩
    signatures := contract.abi.filterMap Abi.Entry.signature? }

end Interface

end AbiBindings
