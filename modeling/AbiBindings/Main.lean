import AbiBindings.CommandLine.Run

/-!
# The program

Gathers what a run needs to know of the file system and the environment, and
then carries out what the run reports.  The compiler is not started from here:
its answer to the request of the run (`Solc.Request.json`) is read from standard
input.
-/

namespace AbiBindings.Program

/-- The folder with what there is under a path. -/
def loaded (folder : Folder) (path : String) : IO Folder := do
  if ← ((← IO.currentDir) / path).isDir then return folder.placeDirectory path
  try return folder.place path (.text (← IO.FS.readFile path))
  catch _ => return folder

/-- The folder with what the paths of a request lead to, and the directory of
its destination. -/
def folderFor (request : CommandLine.Request) : IO Folder := do
  let mut folder : Folder := { here := ((← IO.currentDir).toString.splitOn "/").filter (· != "") }
  for path in request.config.toList ++ [request.source] ++ request.destination.toList do
    folder ← loaded folder path
  for path in request.destination.toList do
    folder ← loaded folder ("/".intercalate ((path.splitOn "/").dropLast ++ ["."]))
  return folder

/-- The environment variables that a run looks at: those that override settings,
and the log filter. -/
def variableNames : List String :=
  ["SOLTS_SOLC", "SOLTS_BASE_PATH", "SOLTS_LOG_LEVEL", "SOLTS_OVERLOAD_POLICY",
    CommandLine.logFilterName]

/-- The folder with the compiler of a request, which gives the reply. -/
def withCompiler (folder : Folder) (env : String → Option String) (request : CommandLine.Request)
    (reply : Reply) : Folder :=
  match CommandLine.settingsOf folder env request with
  | .error _ => folder
  | .ok settings =>
      if settings.solc.toList.contains '/' then folder.place settings.solc (.program reply)
      else { folder with installed := [(settings.solc, reply)] }

/-- Writes what a run left under its destination. -/
def deliver (folder : Folder) (request : CommandLine.Request) : IO Unit := do
  for path in request.destination.toList do
    if let .ok text := folder.read path then IO.FS.writeFile path text

/-- Carries out a request. -/
def perform (args : List String) (request : CommandLine.Request) : IO UInt32 := do
  let values ← variableNames.mapM fun name => do return (name, ← IO.getEnv name)
  let env := fun name => (values.lookup name).join
  let reply : Reply := { stdout := ← (← IO.getStdin).readToEnd }
  let folder := withCompiler (← folderFor request) env request reply
  let report := CommandLine.run folder env args
  if report.status == 0 then deliver report.folder request
  IO.print report.stdout
  IO.eprint report.stderr
  return report.status.toUInt32

end AbiBindings.Program

open AbiBindings

/-- Runs the program on its arguments. -/
def main (args : List String) : IO UInt32 := do
  match CommandLine.parse args with
  | .ok request => Program.perform args request
  | .error _ =>
      let report := CommandLine.run { here := [] } (fun _ => none) args
      IO.print report.stdout
      return report.status.toUInt32
