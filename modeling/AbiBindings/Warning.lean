/-!
# Warnings

What an operation noticed on its way without ending for it.
-/

namespace AbiBindings

/-- Something worth telling that does not end an operation. -/
inductive Warning where
  | skippedEntry (kind name : String)
  | unnamedFunction (contract : String)
  | unnamedEvent (contract : String)
  | unknownType (path kind : String)
  | diagnostic (severity text : String)
  | noContracts (file : String)
deriving DecidableEq, Repr

/-- The wording of a warning: its message and then its particulars in the order
of their names. -/
def Warning.text : Warning → String
  | .skippedEntry kind name => "skipping unsupported ABI entry; kind=" ++ kind ++ "; name=" ++ name
  | .unnamedFunction contract =>
      "unnamed function with inputs has no generated member; contract=" ++ contract
  | .unnamedEvent contract => "unnamed event has no generated member; contract=" ++ contract
  | .unknownType path kind =>
      "unrecognized ABI type, falling back to string; parameter=" ++ path ++ "; raw=" ++ kind
  | .diagnostic severity text => text ++ "; severity=" ++ severity
  | .noContracts file => "compiler produced no contracts; file=" ++ file

/-- The wordings of warnings, each once, in the order of their characters. -/
def Warning.report (warnings : List Warning) : List String :=
  (warnings.map Warning.text).eraseDups.mergeSort fun a b => a ≤ b

end AbiBindings
