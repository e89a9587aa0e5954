import AbiBindings.Script.Identifier

/-!
# Names that the generated code binds

Every name here is bound or used by the generated code itself.  A parameter that
takes its name from an interface description must stay clear of them:
`parameterIdent` lengthens its identifier until it is neither a local of the
body nor a name of the module scope, so it can neither capture one of them nor
be captured.
-/

namespace AbiBindings.Scope

open Script

/-- The transport interface. -/
def provider : String := "Provider"

/-- The type parameter that stands for a transaction of the transport. -/
def transaction : String := "Tx"

/-- The type of an event stream, which every module imports. -/
def readable : String := "Readable"

/-- The helper that performs a call. -/
def call : String := "Call"

/-- The helper that puts a library address in place of its placeholder. -/
def replace : String := "Replace"

/-- The table of link placeholders. -/
def links : String := "Links"

/-- The function that deploys a contract. -/
def deploy : String := "Deploy"

/-- The class of a contract. -/
def contract : String := "Contract"

/-- The table of argument encoders. -/
def encode : String := "Encode"

/-- The table of result decoders. -/
def decode : String := "Decode"

/-- What generated bodies refer to beyond their own bindings. -/
def module : List String :=
  [encode, decode, call, replace, deploy, links, contract, readable, provider, "Buffer", "Array",
    "Error", "Promise", "Uint8Array", "undefined"]

/-- The field that holds the transport, and the parameters that hand it on. -/
def client : String := "client"

/-- The field that holds the address of a contract. -/
def address : String := "address"

/-- The method that binds an instance to a deployed contract. -/
def withAddress : String := "withAddress"

/-- The method that gives the address. -/
def getAddress : String := "getAddress"

/-- The method that deploys a contract and binds the instance to it. -/
def deployMember : String := "deploy"

/-- The members that every contract class has of its own. -/
def ownMembers : List String :=
  ["constructor", client, address, withAddress, getAddress, deployMember]

/-- The names that surround the parameters of a class member or of a table
entry. -/
def memberLocals : List String := [client, "data"]

/-- The parameter that links bytecode. -/
def linker : String := "linker"

/-- The names that surround the parameters of a deployment. -/
def deployLocals : List String :=
  [client, linker, "bytecode", "data", "payload", "err", "addr", address, "resolve", "reject"]

/-- The identifier of a parameter of that declared name between the given
locals. -/
def parameterIdent (name : String) (locals : List String) : String :=
  avoid (safeIdentifier name) (locals ++ module)

end AbiBindings.Scope
