import AbiBindings.Contract
import AbiBindings.Json.Record

/-!
# Answers of the compiler

An answer holds diagnostics, and for each file and contract the interface
description, the bytecode and the places where library addresses belong.  Nearly
everything may be missing; only a diagnostic needs its severity and message, and
an offset its two numbers.
-/

namespace AbiBindings.Solc

/-- Something that the compiler has to say. -/
structure Diagnostic where
  severity : String
  message : String
  formatted : Option String := none
  kind : Option String := none
deriving DecidableEq, Repr, Inhabited

namespace Diagnostic

/-- Whether the diagnostic is an error, in any case of its letters. -/
def isError (d : Diagnostic) : Bool :=
  d.severity.toList.map Char.toLower == "error".toList

/-- The formatted message if there is one, else the bare one. -/
def text (d : Diagnostic) : String := d.formatted.getD d.message

end Diagnostic

/-- The places where the address of each library of each file belongs. -/
abbrev LinkTable := Table (Table (List LinkOffset))

/-- What became of a contract. -/
structure Artifact where
  abi : Json := .array []
  bytecode : String := ""
  links : LinkTable := .empty
deriving Inhabited

/-- An answer: the diagnostics, and for each file and contract the artifact. -/
structure Response where
  diagnostics : List Diagnostic := []
  contracts : Table (Table Artifact) := .empty
deriving Inhabited

open Json (Raw)

/-- The diagnostic that a document describes. -/
def Diagnostic.ofRaw? (raw : Raw) : Option Diagnostic := do
  let fields ← raw.record? ["severity", "message", "formattedMessage", "type"]
  some {
    severity := ← Raw.field? Raw.text? fields "severity"
    message := ← Raw.field? Raw.text? fields "message"
    formatted := ← Raw.fieldOr? (Raw.nullable? Raw.text?) none fields "formattedMessage"
    kind := ← Raw.fieldOr? (Raw.nullable? Raw.text?) none fields "type" }

/-- The offset that a document describes. -/
def offsetOfRaw? (raw : Raw) : Option LinkOffset := do
  let fields ← raw.record? ["start", "length"]
  some ⟨← Raw.field? Raw.natural? fields "start", ← Raw.field? Raw.natural? fields "length"⟩

/-- The bytecode that a document describes, with its links. -/
def bytecodeOfRaw? (raw : Raw) : Option (String × LinkTable) := do
  let fields ← raw.record? ["object", "linkReferences"]
  some (← Raw.fieldOr? Raw.text? "" fields "object",
    ← Raw.fieldOr? (Raw.table? (Raw.table? (Raw.list? offsetOfRaw?))) .empty fields
      "linkReferences")

/-- The bytecode in the part of a document that describes code. -/
def evmOfRaw? (raw : Raw) : Option (String × LinkTable) := do
  let fields ← raw.record? ["bytecode"]
  Raw.fieldOr? bytecodeOfRaw? ("", .empty) fields "bytecode"

/-- How deep an interface description may nest: four levels of the document are
around it. -/
def abiDepth : Nat := Json.maxDepth - 4

/-- The artifact that a document describes. -/
def Artifact.ofRaw? (raw : Raw) : Option Artifact := do
  let fields ← raw.record? ["abi", "evm"]
  let abi ← Raw.fieldOr? (Json.ofRaw? abiDepth) (.array []) fields "abi"
  let (bytecode, links) ← Raw.fieldOr? evmOfRaw? ("", .empty) fields "evm"
  some { abi, bytecode, links }

/-- The answer that a document describes. -/
def Response.ofRaw? (raw : Raw) : Option Response := do
  let fields ← raw.record? ["errors", "contracts"]
  some {
    diagnostics := ← Raw.fieldOr? (Raw.list? Diagnostic.ofRaw?) [] fields "errors"
    contracts :=
      ← Raw.fieldOr? (Raw.table? (Raw.table? Artifact.ofRaw?)) .empty fields "contracts" }

/-- The answer that a text holds. -/
def Response.parse? (text : String) : Option Response := do
  Response.ofRaw? (← Raw.read? text)

end AbiBindings.Solc
