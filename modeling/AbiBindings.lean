import AbiBindings.Abi.Basic
import AbiBindings.Abi.Canonical
import AbiBindings.Abi.OfJson
import AbiBindings.Client.Class
import AbiBindings.Client.Decode
import AbiBindings.Client.Deploy
import AbiBindings.Client.Encode
import AbiBindings.Client.Links
import AbiBindings.Client.Module
import AbiBindings.Client.Shared
import AbiBindings.Client.Transport
import AbiBindings.CommandLine.Arguments
import AbiBindings.CommandLine.Run
import AbiBindings.Contract
import AbiBindings.Descriptor.Basic
import AbiBindings.Descriptor.Code
import AbiBindings.Descriptor.Combine
import AbiBindings.Descriptor.OfParam
import AbiBindings.Fault
import AbiBindings.Folder
import AbiBindings.Interface.Basic
import AbiBindings.Interface.Grouping
import AbiBindings.Interface.Methods
import AbiBindings.Interface.OfContract
import AbiBindings.Interface.Registry
import AbiBindings.Json.Basic
import AbiBindings.Json.Numeral
import AbiBindings.Json.Raw
import AbiBindings.Json.Record
import AbiBindings.Keccak
import AbiBindings.LogFilter
import AbiBindings.Main
import AbiBindings.Outcome
import AbiBindings.Pattern.Nesting
import AbiBindings.Pattern.Token
import AbiBindings.Pattern.Validity
import AbiBindings.Policy
import AbiBindings.Proofs.Freshness
import AbiBindings.Proofs.Script.Evaluation
import AbiBindings.Proofs.Sequencing
import AbiBindings.Scope
import AbiBindings.Script.Build
import AbiBindings.Script.Identifier
import AbiBindings.Script.Printer
import AbiBindings.Script.Token
import AbiBindings.Script.Tree
import AbiBindings.Selector
import AbiBindings.Settings
import AbiBindings.Solc.Compile
import AbiBindings.Solc.Contracts
import AbiBindings.Solc.Request
import AbiBindings.Solc.Response
import AbiBindings.Table
import AbiBindings.Text.Alphanumeric
import AbiBindings.Text.Blank
import AbiBindings.Text.Digits
import AbiBindings.Text.Lines
import AbiBindings.Text.Lowercase
import AbiBindings.Text.Lowercase.Table
import AbiBindings.Text.Quoted
import AbiBindings.Text.Ranges
import AbiBindings.Text.Search
import AbiBindings.Toml.Basic
import AbiBindings.Toml.Reader
import AbiBindings.Toml.Scalar
import AbiBindings.Toml.Text
import AbiBindings.Warning
import AbiBindings.Proofs.Descriptor.Checks
import AbiBindings.Proofs.FirstAppearance
import AbiBindings.Proofs.Interface.Merging
import AbiBindings.Proofs.Interface.Groups
import AbiBindings.Proofs.Interface.Naming
import AbiBindings.Proofs.Interface.Members
import AbiBindings.Proofs.Client.Dispatch
import AbiBindings.Proofs.Script.Nodes
import AbiBindings.Proofs.Client.Calls
import AbiBindings.Proofs.Client.Namespace
import AbiBindings.Proofs.Client.MemberCalls
import AbiBindings.Proofs.Client.Deployment
import AbiBindings.Proofs.Client.MemberNames
import AbiBindings.Proofs.Client.Coverage
import AbiBindings.Proofs.Client.Forwarding
import AbiBindings.Proofs.Descriptor.Combining
import AbiBindings.Proofs.Script.Identifiers
import AbiBindings.Proofs.Script.Scoping
import AbiBindings.Proofs.Client.ParameterNames
import AbiBindings.Proofs.Interface.MergedTypes
import AbiBindings.Proofs.Descriptor.Mapping
import AbiBindings.Proofs.Interface.Acceptance
import AbiBindings.Proofs.Script.Texts
import AbiBindings.Proofs.Script.Printing
import AbiBindings.Proofs.Text.Quoting
import AbiBindings.Proofs.Interface.MemberWords
import AbiBindings.Proofs.Interface.ParameterTypes
import AbiBindings.Proofs.Client.Assembly
import AbiBindings.Proofs.Client.Texts
import AbiBindings.Proofs.Client.Branches
import AbiBindings.Proofs.Client.Hygiene
import AbiBindings.Proofs.Client.Closing
import AbiBindings.Proofs.Abi.TypeTree
import AbiBindings.Proofs.Interface.PlainNames
import AbiBindings.Proofs.Interface.Mangling
import AbiBindings.Proofs.Interface.Reordering
import AbiBindings.Proofs.Client.Reordering
import AbiBindings.Proofs.Client.Composition
import AbiBindings.Proofs.Client.OptionalParameters
import AbiBindings.Proofs.Client.Shadowing
import AbiBindings.Proofs.Descriptor.EmptyTuples
import AbiBindings.Proofs.Client.Rejection
import AbiBindings.Proofs.Client.Results
import AbiBindings.Proofs.Descriptor.Spelling
import AbiBindings.Proofs.Client.SharedDecoders
import AbiBindings.Proofs.Script.Lexing
import AbiBindings.Proofs.Splitting
import AbiBindings.Proofs.Script.Bracketing
import AbiBindings.Proofs.Script.Levels
import AbiBindings.Proofs.Script.Operators
import AbiBindings.Proofs.Script.TypeGrammar
import AbiBindings.Proofs.Script.TypePrinting
import AbiBindings.Proofs.Descriptor.Joining
import AbiBindings.Proofs.Text.Replacing
import AbiBindings.Proofs.Script.TextMethods
import AbiBindings.Proofs.Client.Linking
import AbiBindings.Proofs.Script.Chains
import AbiBindings.Proofs.Script.Types
import AbiBindings.Proofs.Script.Cursor
import AbiBindings.Proofs.Script.Layout
import AbiBindings.Proofs.Script.Lines
import AbiBindings.Proofs.Client.Layout
import AbiBindings.Proofs.Client.CombinedParameters
import AbiBindings.Proofs.Descriptor.ArraySuffixes
import AbiBindings.Proofs.Descriptor.Walk
import AbiBindings.Proofs.Abi.Rendering
import AbiBindings.Proofs.Solc.Conversion
import AbiBindings.Proofs.Text.ByteOrder
import AbiBindings.Proofs.Solc.LinkTokens
import AbiBindings.Proofs.Descriptor.UnionChecks
import AbiBindings.Proofs.Script.Renaming
import AbiBindings.Proofs.Interface.RegistryRuns
