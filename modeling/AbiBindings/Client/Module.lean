import AbiBindings.Client.Class
import AbiBindings.Client.Encode
import AbiBindings.Client.Links
import AbiBindings.Client.Shared
import AbiBindings.Interface.OfContract
import AbiBindings.Script.Printer

/-!
# Client modules

A module holds the transport interface and the shared helpers, and then one
namespace per contract, in the order of the contracts.  The namespace of a
contract depends on that contract alone (`contractNamespace`); what the
contracts of one module owe each other is only that their names be identifiers,
distinct from each other and from the names that the module declares itself.
-/

namespace AbiBindings.Client

open Script

/-- The namespace of a contract. -/
def contractNamespace (options : Options) (contract : Contract) : Outcome Decl := do
  let face ← Interface.ofContract contract options.policy
  let args ← ConstructorArgs.of face.constructor
  let links :=
    if options.emitLinks then (linksConst? contract.bytecode contract.links).toList else []
  let contractDecl ← contractClass contract.bytecode face args
  let encode ← encodeTable face.methods
  let decode ← decodeTable face.methods
  pure (.namespace true contract.name
    (links ++ [deployFunction contract.bytecode args Scope.contract, contractDecl, encode, decode]))

/-- The declarations that every module starts with. -/
def sharedDecls : List Decl :=
  [.imports [Scope.readable] "stream", Transport.interface, callHelper, replaceHelper]

/-- The names that a contract may not have. -/
def moduleNames : List String :=
  [Scope.provider, Scope.readable, Scope.call, Scope.replace]

/-- Whether a contract may have the name. -/
def isContractName (name : String) : Bool :=
  isIdentifier name && !moduleNames.contains name

/-- The namespaces of contracts beside contracts of the given names. -/
def namespaces (options : Options) (seen : List String) : List Contract → Outcome (List Decl)
  | [] => pure []
  | c :: rest =>
      if !isContractName c.name then Outcome.fail (.invalidIdentifier c.name)
      else if seen.contains c.name then Outcome.fail (.duplicateContract c.name)
      else do
        let d ← contractNamespace options c
        let others ← namespaces options (c.name :: seen) rest
        pure (d :: others)

/-- The module of the contracts. -/
def moduleOf (options : Options) (contracts : List Contract) : Outcome Module := do
  let ds ← namespaces options [] contracts
  pure ⟨sharedDecls ++ ds⟩

/-- The text of the module of the contracts. -/
def generate (options : Options) (contracts : List Contract) : Outcome String :=
  (·.print defaultIndent) <$> moduleOf options contracts

end AbiBindings.Client
