import AbiBindings.Toml.Basic
import AbiBindings.Toml.Scalar
import AbiBindings.Toml.Text

/-!
# Reading TOML

A document is read line by line into headers and values of dotted keys, which
are then put together as the rules of `Toml.Basic` allow.  Values nest to a
limited depth, and a dotted key has a limited number of parts.
-/

namespace AbiBindings.Toml

/-- The limit of the parts of a dotted key and of the nesting of values; neither
reaches it. -/
def nestingLimit : Nat := 80

/-- The parts of a dotted key at the start of a text, and what follows it. -/
def scanParts : Nat → List Char → Option (List String × List Char)
  | 0, _ => none
  | fuel + 1, cs => do
      let (part, rest) ← scanKey? (skipBlanks cs)
      match skipBlanks rest with
      | '.' :: rest => do
          let (parts, rest) ← scanParts fuel rest
          some (part :: parts, rest)
      | rest => some ([part], rest)

/-- The dotted key at the start of a text, and what follows it. -/
def scanPath? (cs : List Char) : Option (Path × List Char) := do
  let (parts, rest) ← scanParts (cs.length + 1) cs
  if nestingLimit ≤ parts.length then none
  some (⟨parts.dropLast, ← parts.getLast?⟩, rest)

mutual

/-- The value at the start of a text, with at most `depth` levels of nesting,
and what follows it. -/
def scanValue : Nat → Nat → List Char → Option (Node × List Char)
  | 0, _, _ => none
  | fuel + 1, depth, cs =>
      match cs with
      | '"' :: _ | '\'' :: _ => do
          let (s, rest) ← scanString? cs
          some (.string s, rest)
      | '[' :: rest =>
          match depth with
          | 0 => none
          | depth + 1 => do
              let (items, rest) ← scanItems fuel depth rest
              some (.array items, rest)
      | '\x7b' :: rest =>
          match depth with
          | 0 => none
          | depth + 1 => do
              let (values, rest) ← match skipBlanks rest with
                | '\x7d' :: rest => some ([], rest)
                | rest => scanPairs fuel depth rest
              some (.table .braces (← addValues [] values), rest)
      | _ => scanScalar? cs

/-- The items of an array up to its closing bracket, and what follows it. -/
def scanItems : Nat → Nat → List Char → Option (List Node × List Char)
  | 0, _, _ => none
  | fuel + 1, depth, cs => do
      match ← skipLines false cs with
      | ']' :: rest => some ([], rest)
      | rest => do
          let (item, rest) ← scanValue fuel depth rest
          match ← skipLines false rest with
          | ',' :: rest => do
              let (items, rest) ← scanItems fuel depth rest
              some (item :: items, rest)
          | ']' :: rest => some ([item], rest)
          | _ => none

/-- The pairs of an inline table up to its closing brace, and what follows
it. -/
def scanPairs : Nat → Nat → List Char → Option (List (Path × Node) × List Char)
  | 0, _, _ => none
  | fuel + 1, depth, cs => do
      let (path, rest) ← scanPath? cs
      match rest with
      | '=' :: rest => do
          let (value, rest) ← scanValue fuel depth (skipBlanks rest)
          match skipBlanks rest with
          | ',' :: rest => do
              let (pairs, rest) ← scanPairs fuel depth rest
              some ((path, value) :: pairs, rest)
          | '\x7d' :: rest => some ([(path, value)], rest)
          | _ => none
      | _ => none

end

/-- A line that says something. -/
inductive Line where
  | header (repeated : Bool) (path : Path)
  | value (path : Path) (node : Node)

/-- The header behind its opening brackets, and what follows its line. -/
def scanHeader? (repeated : Bool) (cs : List Char) : Option (Line × List Char) := do
  let (path, rest) ← scanPath? cs
  let rest ← (if repeated then "]]" else "]").toList.isPrefixOf? rest
  some (.header repeated path, ← endLine? rest)

/-- The key and value at the start of a text, and what follows their line. -/
def scanPair? (cs : List Char) : Option (Line × List Char) := do
  let (path, rest) ← scanPath? cs
  match rest with
  | '=' :: rest => do
      let (node, rest) ← scanValue (2 * rest.length + 2) (nestingLimit - 1) (skipBlanks rest)
      some (.value path node, ← endLine? rest)
  | _ => none

/-- The lines of a text that say something. -/
def scanLines : Nat → List Char → Option (List Line)
  | 0, _ => none
  | fuel + 1, cs =>
      match skipBlanks cs with
      | [] => some []
      | '#' :: rest => do scanLines fuel (← endLine? ('#' :: rest))
      | '\n' :: rest => scanLines fuel rest
      | '\r' :: rest => do scanLines fuel (← lineBreak? ('\r' :: rest))
      | '[' :: '[' :: rest => do
          let (line, rest) ← scanHeader? true rest
          (line :: ·) <$> scanLines fuel rest
      | '[' :: rest => do
          let (line, rest) ← scanHeader? false rest
          (line :: ·) <$> scanLines fuel rest
      | rest => do
          let (line, rest) ← scanPair? rest
          (line :: ·) <$> scanLines fuel rest

/-- The values before the first header, and the sections. -/
def sections : List Line → List (Path × Node) × List Section
  | [] => ([], [])
  | .value path node :: rest =>
      let (values, others) := sections rest
      ((path, node) :: values, others)
  | .header repeated path :: rest =>
      let (values, others) := sections rest
      ([], ⟨repeated, path, values⟩ :: others)

/-- The document with several more sections. -/
def addSections (entries : Entries) : List Section → Option Entries
  | [] => some entries
  | s :: rest => do addSections (← addSection entries s) rest

/-- The document that a text holds; a byte order mark before it does not
count. -/
def read? (text : String) : Option Entries := do
  let cs := match text.toList with
    | '\ufeff' :: rest => rest
    | cs => cs
  let (values, others) := sections (← scanLines (cs.length + 1) cs)
  addSections (← addValues [] values) others

end AbiBindings.Toml
