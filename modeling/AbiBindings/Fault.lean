import AbiBindings.Descriptor.Basic

/-!
# Faults

Every reason for which an operation ends without a result, as data.
`Fault.message` is the only place that knows their wording.
-/

namespace AbiBindings

/-- Why a document is no interface description. -/
inductive AbiFault where
  | notJson
  | notAnArray
  | unnamedEvent
  | parametersNotAnArray
  | untypedParameter (name : String)
deriving DecidableEq, Repr

/-- Why a file could not be used. -/
inductive FileFault where
  | notFound
  | permissionDenied
  | notADirectory
  | isADirectory
  | nameTooLong
  | nulInName
  | nulInCommand
deriving DecidableEq, Repr

/-- Why the compiler gave no answer. -/
inductive CompilerFault where
  | notStarted (binary : String) (cause : FileFault)
  | exited (binary : String) (status : UInt8) (stderr : String)
  | unreadableOutput
deriving DecidableEq, Repr

/-- Why an operation ended without a result. -/
inductive Fault where
  | duplicateContract (name : String)
  | abi (cause : AbiFault)
  | emptyTuple (parameter : String)
  | duplicateConstructor (contract : String)
  | invalidIdentifier (name : String)
  | typeConflict (function parameter : String) (left right : Descriptor)
  | ambiguousOverload (function first second : String)
  | outputConflict (function first second : String)
  | compilation (diagnostics : List String)
  | compiler (cause : CompilerFault)
  | unknownPolicy (text : String)
  | file (cause : FileFault)
  | unreadableDocument
deriving DecidableEq, Repr

/-- The wording of a fault of an interface description. -/
def AbiFault.message : AbiFault → String
  | .notJson => "invalid ABI JSON"
  | .notAnArray => "ABI must be an array"
  | .unnamedEvent => "event must have a name"
  | .parametersNotAnArray => "parameter list must be an array"
  | .untypedParameter name => "parameter '" ++ name ++ "' must have a type"

/-- The wording of a fault of a file. -/
def FileFault.message : FileFault → String
  | .notFound => "No such file or directory (os error 2)"
  | .permissionDenied => "Permission denied (os error 13)"
  | .notADirectory => "Not a directory (os error 20)"
  | .isADirectory => "Is a directory (os error 21)"
  | .nameTooLong => "File name too long (os error 36)"
  | .nulInName => "file name contained an unexpected NUL byte"
  | .nulInCommand => "nul byte found in provided data"

/-- The wording of a fault of the compiler. -/
def CompilerFault.message : CompilerFault → String
  | .notStarted binary cause => "failed to start '" ++ binary ++ "': " ++ cause.message
  | .exited binary status stderr =>
      "'" ++ binary ++ "' exited with exit status: " ++ toString status.toNat ++ ": " ++ stderr
  | .unreadableOutput => "unreadable compiler output"

/-- The wording of a fault. -/
def Fault.message : Fault → String
  | .duplicateContract name => "duplicate contract name '" ++ name ++ "'"
  | .abi cause => "Failed to parse ABI: " ++ cause.message
  | .emptyTuple parameter =>
      "Malformed interface: tuple parameter '" ++ parameter ++ "' has no components"
  | .duplicateConstructor contract =>
      "Malformed interface: contract '" ++ contract ++ "' declares more than one constructor"
  | .invalidIdentifier name => "Invalid identifier: '" ++ name ++ "'"
  | .typeConflict function parameter left right =>
      "Overload conflict in '" ++ function ++ "': parameter '" ++ parameter ++ "' is both "
        ++ left.text ++ " and " ++ right.text
  | .ambiguousOverload function first second =>
      "Ambiguous overload in '" ++ function ++ "': " ++ first ++ " and " ++ second
        ++ " accept the same arguments"
  | .outputConflict function first second =>
      "Overload conflict in '" ++ function ++ "': " ++ first ++ " and " ++ second
        ++ " declare different outputs"
  | .compilation diagnostics => "Compilation failed:\n" ++ "\n".intercalate diagnostics
  | .compiler cause => "Compiler error: " ++ cause.message
  | .unknownPolicy text =>
      "Configuration error: unknown overload policy '" ++ text
        ++ "', expected 'mangle' or 'combine'"
  | .file cause => "IO error: " ++ cause.message
  | .unreadableDocument => "Serialization error: JSON serialization error"

end AbiBindings
