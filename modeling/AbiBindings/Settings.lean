import AbiBindings.Folder
import AbiBindings.Json.Record
import AbiBindings.Policy
import AbiBindings.Toml.Reader

/-!
# Settings

Settings come from a file in TOML or JSON, and the environment overrides them.
A file need not name every setting; what it does not name keeps its default, and
what it names besides is left aside.
-/

namespace AbiBindings

/-- The settings of a run. -/
structure Settings where
  /-- the compiler -/
  solc : String := "solc"
  /-- where imports are resolved from -/
  basePath : Option String := none
  logLevel : String := "info"
  options : Options := {}
deriving DecidableEq, Repr, Inhabited

/-- Why there are no settings. -/
inductive SettingsFault where
  | unreadable (path : String)
  | unknownFormat
  | badToml (path : String)
  | badJson (path : String)
  | badPolicy (cause : Fault)
deriving DecidableEq, Repr

/-- The wording of a fault of the settings. -/
def SettingsFault.message : SettingsFault → String
  | .unreadable path => "Failed to read configuration file: " ++ path
  | .unknownFormat => "Unsupported configuration file format. Supported formats: .toml, .json"
  | .badToml path => "Failed to parse TOML configuration file: " ++ path
  | .badJson path => "Failed to parse JSON configuration file: " ++ path
  | .badPolicy _ => "Invalid SOLTS_OVERLOAD_POLICY value"

/-- What caused a fault of the settings. -/
def SettingsFault.cause? : SettingsFault → Option Fault
  | .badPolicy cause => some cause
  | _ => none

namespace Toml.Node

/-- The text of a string. -/
def text? : Node → Option String
  | .string s => some s
  | _ => none

/-- The truth value. -/
def flag? : Node → Option Bool
  | .boolean b => some b
  | _ => none

/-- The fields of a record whose field names, in order, are given.  A record is
a table or lists its values in order, and a moment stands for a record that
names no field. -/
def record? (names : List String) : Node → Option Entries
  | .table _ entries => some entries
  | .array items => some (names.zip items)
  | .tables items => some (names.zip (items.map (.table .header)))
  | .moment _ => some []
  | _ => none

/-- Whether the value is a table or an array that holds nothing. -/
def isHollow : Node → Bool
  | .table _ entries => entries.isEmpty
  | .array items => items.isEmpty
  | .tables items => items.isEmpty
  | _ => false

/-- The name of a case without contents: a string, or a table whose only key it
is, with nothing behind it. -/
def caseName? : Node → Option String
  | .table _ [(key, inner)] => if inner.isHollow then some key else none
  | node => node.text?

/-- What `read` makes of a field of a record, or the default when it is
missing. -/
def fieldOr? {α : Type} (read : Node → Option α) (default : α) (fields : Entries) (name : String) :
    Option α :=
  match fields.lookup name with
  | some node => read node
  | none => some default

end Toml.Node

namespace Settings

/-- The names of the settings, in the order in which they may be listed. -/
def fieldNames : List String := ["solc", "base_path", "log_level", "codegen"]

/-- The names of what is asked of the generated code, in the order in which it
may be listed. -/
def optionNames : List String := ["overload_policy", "emit_links"]

/-- What a part of a JSON document asks of the generated code. -/
def optionsOfRaw? (raw : Json.Raw) : Option Options := do
  let fields ← raw.record? optionNames
  let policy := fun r => (Json.Raw.caseName? r).bind Policy.ofName?
  some {
    policy := ← Json.Raw.fieldOr? policy .combine fields "overload_policy"
    emitLinks := ← Json.Raw.fieldOr? Json.Raw.flag? true fields "emit_links" }

/-- The settings in a JSON document. -/
def ofRaw? (raw : Json.Raw) : Option Settings := do
  let fields ← raw.record? fieldNames
  some {
    solc := ← Json.Raw.fieldOr? Json.Raw.text? "solc" fields "solc"
    basePath := ← Json.Raw.fieldOr? (Json.Raw.nullable? Json.Raw.text?) none fields "base_path"
    logLevel := ← Json.Raw.fieldOr? Json.Raw.text? "info" fields "log_level"
    options := ← Json.Raw.fieldOr? optionsOfRaw? {} fields "codegen" }

/-- What a part of a TOML document asks of the generated code. -/
def optionsOfNode? (node : Toml.Node) : Option Options := do
  let fields ← node.record? optionNames
  let policy := fun n => (Toml.Node.caseName? n).bind Policy.ofName?
  some {
    policy := ← Toml.Node.fieldOr? policy .combine fields "overload_policy"
    emitLinks := ← Toml.Node.fieldOr? Toml.Node.flag? true fields "emit_links" }

/-- The settings in a TOML document. -/
def ofEntries? (fields : Toml.Entries) : Option Settings := do
  some {
    solc := ← Toml.Node.fieldOr? Toml.Node.text? "solc" fields "solc"
    basePath := ← Toml.Node.fieldOr? (fun n => some <$> n.text?) none fields "base_path"
    logLevel := ← Toml.Node.fieldOr? Toml.Node.text? "info" fields "log_level"
    options := ← Toml.Node.fieldOr? optionsOfNode? {} fields "codegen" }

/-- The last name of a path. -/
def lastName? (path : String) : Option String :=
  ((path.splitOn "/").filter fun part => part != "" && part != ".").getLast?

/-- What follows the last point of a name, unless the only one starts it. -/
def extension? (name : String) : Option String :=
  let behind := name.toList.reverse.takeWhile (· != '.')
  let before := name.toList.length - behind.length
  if name = ".." || before ≤ 1 then none else some (String.ofList behind.reverse)

/-- The settings in the text of a file of that path. -/
def parse (path text : String) : Except SettingsFault Settings :=
  match (lastName? path).bind extension? with
  | some "toml" =>
      match (Toml.read? text).bind ofEntries? with
      | some s => .ok s
      | none => .error (.badToml path)
  | some "json" =>
      match (Json.Raw.read? text).bind ofRaw? with
      | some s => .ok s
      | none => .error (.badJson path)
  | _ => .error .unknownFormat

/-- The settings in a file. -/
def ofFile (folder : Folder) (path : String) : Except SettingsFault Settings :=
  match folder.read path with
  | .ok text => parse path text
  | .error _ => .error (.unreadable path)

/-- The settings with what the environment overrides. -/
def override (s : Settings) (env : String → Option String) : Except SettingsFault Settings := do
  let policy ← match env "SOLTS_OVERLOAD_POLICY" with
    | some text => (Policy.parse text).mapError .badPolicy
    | none => .ok s.options.policy
  .ok {
    solc := (env "SOLTS_SOLC").getD s.solc
    basePath := env "SOLTS_BASE_PATH" <|> s.basePath
    logLevel := (env "SOLTS_LOG_LEVEL").getD s.logLevel
    options := { s.options with policy } }

/-- The settings from a file, if one is given, and the environment. -/
def load (folder : Folder) (path : Option String) (env : String → Option String) :
    Except SettingsFault Settings := do
  let s ← match path with
    | some path => ofFile folder path
    | none => .ok {}
  s.override env

end Settings

end AbiBindings
