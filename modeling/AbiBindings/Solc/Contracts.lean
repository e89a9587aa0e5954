import AbiBindings.Abi.OfJson
import AbiBindings.Solc.Response
import AbiBindings.Text.Blank

/-!
# Contracts from an answer

The contracts of one file, in the order of their names.  A single error among
the diagnostics ends the conversion with the texts of all errors; the other
diagnostics become warnings.
-/

namespace AbiBindings

/-- The fault of diagnostics with these texts; blanks at their ends do not
count. -/
def Fault.ofDiagnostics (texts : List String) : Fault :=
  .compilation (texts.map Text.trimRight)

namespace Solc

/-- The answer in a text that has to be one. -/
def Response.ofText (text : String) : Except Fault Response :=
  match Response.parse? text with
  | some response => .ok response
  | none => .error .unreadableDocument

/-- The links of a table, by file and then by library. -/
def linkReferences (links : LinkTable) : List LinkReference :=
  links.entries.flatMap fun (file, libraries) =>
    libraries.entries.map fun (library, offsets) => ⟨file, library, offsets⟩

/-- The qualified names of the links of a table. -/
def linkTokens (links : LinkTable) : List String :=
  (linkReferences links).map LinkReference.token

/-- The contract of a name and its artifact. -/
def contractOf (name : String) (artifact : Artifact) : Outcome Contract := do
  let abi ← Abi.ofJson artifact.abi
  pure ⟨name, abi, artifact.bytecode, linkReferences artifact.links⟩

/-- The contracts of the artifacts. -/
def contractsOf : List (String × Artifact) → Outcome (List Contract)
  | [] => pure []
  | (name, artifact) :: rest => do
      let c ← contractOf name artifact
      let cs ← contractsOf rest
      pure (c :: cs)

/-- The warnings for the diagnostics that are no errors. -/
def Response.warnings (r : Response) : List Warning :=
  (r.diagnostics.filter fun d => !d.isError).map fun d =>
    .diagnostic d.severity (Text.trimRight d.text)

/-- The texts of the diagnostics that are errors. -/
def Response.errors (r : Response) : List String :=
  (r.diagnostics.filter Diagnostic.isError).map Diagnostic.text

/-- The contracts that an answer has for a file. -/
def Response.contractsOfFile (r : Response) (file : String) : Outcome (List Contract) := do
  Outcome.note r.warnings
  if r.errors.isEmpty then
    match r.contracts.lookup? file with
    | some artifacts => contractsOf artifacts.entries
    | none => do
        Outcome.warn (.noContracts file)
        pure []
  else Outcome.fail (.ofDiagnostics r.errors)

end Solc

end AbiBindings
