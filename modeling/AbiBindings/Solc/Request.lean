import AbiBindings.Folder
import AbiBindings.Json.Basic
import AbiBindings.Table

/-!
# Requests to the compiler

A request names the language, the source files and the outputs that are wanted:
all outputs of all contracts of every file.  It is written as one JSON object
(`Request.json`).
-/

namespace AbiBindings.Solc

/-- A request: the content of each source file, and for each file and contract
the outputs wanted. -/
structure Request where
  language : String
  sources : Table String
  selection : Table (Table (List String))
deriving Inhabited

namespace Request

/-- The request without sources. -/
def empty : Request := ⟨"Solidity", .empty, .empty⟩

/-- Every output of every contract. -/
def everything : Table (List String) := Table.empty.insert "*" ["*"]

/-- The request with one more source file, all of whose outputs are wanted. -/
def addSource (r : Request) (name content : String) : Request :=
  { r with
    sources := r.sources.insert name content
    selection := r.selection.insert name everything }

/-- The request for one source file. -/
def ofSource (name content : String) : Request := empty.addSource name content

/-- The request with the files of a folder, each under its path. -/
def addFiles (folder : Folder) (r : Request) : List String → Except Fault Request
  | [] => .ok r
  | path :: rest => do
      let content ← (folder.read path).mapError .file
      addFiles folder (r.addSource path content) rest

/-- The document of a table. -/
def tableJson {α : Type} (value : α → Json) (t : Table α) : Json :=
  .object (t.entries.map fun (key, a) => (key, value a))

/-- The document of a request. -/
def json (r : Request) : Json :=
  .object
    [("language", .string r.language),
      ("sources", tableJson (fun content => .object [("content", .string content)]) r.sources),
      ("settings", .object
        [("outputSelection",
          tableJson (tableJson fun outputs => .array (outputs.map .string)) r.selection)])]

end Request

end AbiBindings.Solc
