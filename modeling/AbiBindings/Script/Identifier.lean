/-!
# Identifiers of the generated code

An identifier is a non-empty ASCII word that does not start with a digit and is
not reserved.  `safeIdentifier` turns any declared name into one, and `avoid`
lengthens a name by underscores until it is none of a list of names.  `avoid`
picks the *least* number of underscores that does, and a list of `n` names can
forbid at most `n` of the candidates, so the search below always ends with an
answer.
-/

namespace AbiBindings.Script

/-- Words that the language keeps for itself, with the three names no binding
may take. -/
def reservedWords : List String :=
  ["arguments", "await", "break", "case", "catch", "class", "const", "continue", "debugger",
    "default", "delete", "do", "else", "enum", "eval", "export", "extends", "false", "finally",
    "for", "function", "if", "implements", "import", "in", "instanceof", "interface", "let",
    "new", "null", "package", "private", "protected", "public", "return", "static", "super",
    "switch", "this", "throw", "true", "try", "typeof", "undefined", "var", "void", "while",
    "with", "yield"]

/-- Whether `name` is a reserved word. -/
def isReserved (name : String) : Bool :=
  reservedWords.contains name

/-- Whether `c` may stand in an identifier: an ASCII letter or digit, `_` or
`$`. -/
def isWordChar (c : Char) : Bool :=
  c.isAlphanum || c == '_' || c == '$'

/-- Whether the characters have the shape of an identifier, reserved or not. -/
def isWord : List Char → Bool
  | [] => false
  | c :: cs => !c.isDigit && (c :: cs).all isWordChar

/-- Whether `name` is an identifier: a word that is not reserved. -/
def isIdentifier (name : String) : Bool :=
  isWord name.toList && !isReserved name

/-- The word nearest to `cs`: any other character becomes `_`, and a `_` goes in
front of a leading digit or an empty name. -/
def nearestWord (cs : List Char) : List Char :=
  let word := cs.map fun c => if isWordChar c then c else '_'
  match word with
  | [] => ['_']
  | c :: _ => if c.isDigit then '_' :: word else word

/-- An identifier for a declared name: its nearest word, with a `_` behind a
reserved one. -/
def safeIdentifier (name : String) : String :=
  let word := String.ofList (nearestWord name.toList)
  if isReserved word then word ++ "_" else word

/-- `name` followed by `k` underscores. -/
def underscored (name : String) (k : Nat) : String :=
  name ++ String.ofList (List.replicate k '_')

/-- `name` with the fewest underscores behind it that make it none of
`taken`. -/
def avoid (name : String) (taken : List String) : String :=
  let free := fun k => !taken.contains (underscored name k)
  underscored name (((List.range (taken.length + 1)).find? free).getD 0)

end AbiBindings.Script
