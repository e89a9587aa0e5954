import AbiBindings.Client.Module
import AbiBindings.CommandLine.Arguments
import AbiBindings.LogFilter
import AbiBindings.Solc.Compile
import AbiBindings.Text.Lines

/-!
# Runs of the program

A run reads its arguments and its settings, sets up its log, reads a source
file, has the source compiled, and writes the module of its contracts to a file
or to standard output.  Each of these steps may end it; only the first fault
counts.
-/

namespace AbiBindings.CommandLine

/-- Why a run that was asked for properly ended without a module. -/
inductive RunFault where
  | settings (cause : SettingsFault)
  | source (path : String)
  | compile (path : String)
  | generate (path : String)
  | write (path : String)
deriving DecidableEq, Repr

/-- The wording of a fault of a run. -/
def RunFault.message : RunFault → String
  | .settings cause => cause.message
  | .source path => "Failed to read source file: " ++ path
  | .compile path => "Failed to compile " ++ path
  | .generate path => "Failed to generate client for " ++ path
  | .write path => "Failed to write " ++ path

/-- How a run ended: the folder it left, what it wrote, what it said of its log
filter, the compiler's invocation and the fault, if any. -/
structure Report where
  folder : Folder
  status : UInt8 := 0
  stdout : String := ""
  complaints : List String := []
  fault : Option RunFault := none
  invocation : Option Solc.Invocation := none

/-- The status of a run that failed. -/
def failedStatus : UInt8 := 1

/-- The status of a run that was not asked for properly. -/
def usageStatus : UInt8 := 2

/-- The status of a run that broke off while it set up its log. -/
def brokenStatus : UInt8 := 101

/-- The variable of the environment that holds the log filter to use. -/
def logFilterName : String := "RUST_LOG"

/-- What the program is called, and its version. -/
def versionLine : String := "solts 0.1.0\n"

/-- The settings of a request: those of the file and the environment with what
the arguments override. -/
def settingsOf (folder : Folder) (env : String → Option String) (r : Request) :
    Except SettingsFault Settings := do
  let s ← Settings.load folder r.config env
  .ok { s with
    solc := r.solc.getD s.solc
    options := { s.options with policy := r.policy.getD s.options.policy } }

/-- Writes the module to the destination, or else to standard output. -/
def deliver (report : Report) (text : String) : Option String → Except RunFault Report
  | none => .ok { report with stdout := text }
  | some path =>
      match report.folder.write path text with
      | .ok folder => .ok { report with folder }
      | .error _ => .error (.write path)

/-- What a run says of its log filter; nothing when it cannot be read. -/
def setUpLog? (env : String → Option String) (r : Request) (settings : Settings) :
    Option (List String) :=
  if r.verbose then some [] else LogFilter.setUp? (env logFilterName) settings.logLevel

/-- The run of a request with its settings, once the log is set up. -/
def generateWith (folder : Folder) (settings : Settings) (complaints : List String) (r : Request) :
    Report :=
  let failed := fun invocation fault =>
    ({ folder, status := failedStatus, complaints, fault := some fault, invocation } : Report)
  match folder.read r.source with
  | .error _ => failed none (.source r.source)
  | .ok content =>
      let (invocation, contracts) := Solc.compile folder settings r.source content
      match contracts.result with
      | .error _ => failed invocation (.compile r.source)
      | .ok contracts =>
          match (Client.generate settings.options contracts).result with
          | .error _ => failed invocation (.generate r.source)
          | .ok text =>
              match deliver { folder, complaints, invocation } text r.destination with
              | .error fault => failed invocation fault
              | .ok report => report

/-- The run of a request. -/
def generate (folder : Folder) (env : String → Option String) (r : Request) : Report :=
  match settingsOf folder env r with
  | .error cause => { folder, status := failedStatus, fault := some (.settings cause) }
  | .ok settings =>
      match setUpLog? env r settings with
      | none => { folder, status := brokenStatus }
      | some complaints => generateWith folder settings complaints r

/-- The run of the program on its arguments. -/
def run (folder : Folder) (env : String → Option String) (args : List String) : Report :=
  match parse args with
  | .ok request => generate folder env request
  | .error .usage => { folder, status := usageStatus }
  | .error .help => { folder }
  | .error .version => { folder, stdout := versionLine }

/-- What the line that tells of a fault starts with. -/
def faultMark : String := "Error: "

/-- What a run writes to standard error, as far as the fault itself. -/
def Report.stderr (r : Report) : String :=
  let faults := r.fault.toList.map fun fault => faultMark ++ fault.message
  String.join ((r.complaints ++ faults).map (· ++ "\n"))

/-- The first line on standard error that looks like that of a fault, if the run
failed. -/
def Report.errorLine? (r : Report) : Option String :=
  if r.status = failedStatus then
    (Text.lines r.stderr).find? fun line => faultMark.toList.isPrefixOf line.toList
  else none

end AbiBindings.CommandLine
