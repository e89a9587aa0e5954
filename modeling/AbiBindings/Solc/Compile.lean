import AbiBindings.Settings
import AbiBindings.Solc.Contracts
import AbiBindings.Solc.Request

/-!
# Running the compiler

The compiler gets a request on its standard input and writes its answer to its
standard output.  How it exits counts only when it has written nothing.
-/

namespace AbiBindings.Solc

/-- What the compiler was given: its arguments and the request. -/
structure Invocation where
  args : List String
  request : Request
deriving Inhabited

/-- The arguments of the compiler. -/
def arguments (basePath : Option String) : List String :=
  "--standard-json" :: match basePath with
    | some path => ["--base-path", path]
    | none => []

/-- The answer in the reply of the compiler. -/
def answer (binary : String) (reply : Reply) : Except Fault Response :=
  if reply.status != 0 && reply.stdout.isEmpty then
    .error (.compiler (.exited binary reply.status (Text.trim reply.stderr)))
  else
    match Response.parse? reply.stdout with
    | some response => .ok response
    | none => .error (.compiler .unreadableOutput)

/-- The contracts of one source file, and what the compiler was given if it
ran. -/
def compile (folder : Folder) (settings : Settings) (file source : String) :
    Option Invocation × Outcome (List Contract) :=
  let args := arguments settings.basePath
  match folder.run settings.solc args with
  | .error cause => (none, Outcome.fail (.compiler (.notStarted settings.solc cause)))
  | .ok reply =>
      (some ⟨args, .ofSource file source⟩, do
        let response ← Outcome.ofExcept (answer settings.solc reply)
        response.contractsOfFile file)

end AbiBindings.Solc
