import AbiBindings.Json.Numeral

/-!
# JSON documents as written

A document is read in two steps.  The first one, here, only follows the grammar:
it keeps numerals as they are, nests without limit, and accepts a string literal
that spells no text because one half of a surrogate pair stands alone in it.
What a document is used for decides later which of this is refused, so a part
that nobody asks for may hold any of it.
-/

namespace AbiBindings.Json

/-- A document as written.  A string that spells no text has no value, and the
fields of an object stand in written order with repeated keys. -/
inductive Raw where
  | null
  | bool (b : Bool)
  | number (n : Numeral)
  | string (s : Option String)
  | array (items : List Raw)
  | object (fields : List (Option String × Raw))
deriving Inhabited

/-- A piece of a string literal: a character that stands for itself or has a
name, or the number of a code unit. -/
inductive Piece where
  | char (c : Char)
  | unit (n : Nat)
deriving DecidableEq, Repr

/-- The character that a backslash and a letter stand for. -/
def namedEscape? (c : Char) : Option Char :=
  match c with
  | '"' | '\\' | '/' => some c
  | 'b' => some (Char.ofNat 8)
  | 'f' => some (Char.ofNat 12)
  | 'n' => some '\n'
  | 'r' => some '\r'
  | 't' => some '\t'
  | _ => none

/-- The pieces of a string literal up to its closing quote, behind those already
read, and what follows it. -/
def scanPieces (read : List Piece) : List Char → Option (List Piece × List Char)
  | [] => none
  | '"' :: rest => some (read.reverse, rest)
  | '\\' :: 'u' :: a :: b :: c :: d :: rest =>
      match Text.hexValue? [a, b, c, d] with
      | some n => scanPieces (.unit n :: read) rest
      | none => none
  | '\\' :: c :: rest =>
      match namedEscape? c with
      | some c => scanPieces (.char c :: read) rest
      | none => none
  | c :: rest => if c.toNat < 32 || c == '\\' then none else scanPieces (.char c :: read) rest

/-- Whether the code unit is the first half of a surrogate pair. -/
def isHighHalf (n : Nat) : Bool := 0xd800 ≤ n && n < 0xdc00

/-- Whether the code unit is the second half of a surrogate pair. -/
def isLowHalf (n : Nat) : Bool := 0xdc00 ≤ n && n < 0xe000

/-- The text that pieces spell behind the text already read, given in
reverse. -/
def spell (read : List Char) : List Piece → Option String
  | [] => some (String.ofList read.reverse)
  | .char c :: rest => spell (c :: read) rest
  | .unit high :: .unit low :: rest =>
      if isHighHalf high then
        if isLowHalf low then
          spell (Char.ofNat (0x10000 + (high - 0xd800) * 0x400 + (low - 0xdc00)) :: read) rest
        else none
      else if isLowHalf high then none
      else spell (Char.ofNat high :: read) (.unit low :: rest)
  | .unit n :: rest =>
      if isHighHalf n || isLowHalf n then none else spell (Char.ofNat n :: read) rest

/-- The string literal behind its opening quote, and what follows it. -/
def scanString (cs : List Char) : Option (Option String × List Char) := do
  let (pieces, rest) ← scanPieces [] cs
  some (spell [] pieces, rest)

/-- The text without the blanks of JSON at its start. -/
def skipBlanks (cs : List Char) : List Char :=
  cs.dropWhile fun c => c == ' ' || c == '\t' || c == '\n' || c == '\r'

/-- What follows a keyword. -/
def keyword? (word : String) (cs : List Char) : Option (List Char) :=
  word.toList.isPrefixOf? cs

namespace Raw

mutual

/-- The document at the start of a text, blanks left aside, and what follows
it. -/
def scan : Nat → List Char → Option (Raw × List Char)
  | 0, _ => none
  | fuel + 1, cs =>
      match skipBlanks cs with
      | '"' :: rest => do
          let (s, rest) ← scanString rest
          some (.string s, rest)
      | '[' :: rest =>
          match skipBlanks rest with
          | ']' :: rest => some (.array [], rest)
          | rest => do
              let (items, rest) ← scanItems fuel rest
              some (.array items, rest)
      | '\x7b' :: rest =>
          match skipBlanks rest with
          | '\x7d' :: rest => some (.object [], rest)
          | rest => do
              let (fields, rest) ← scanFields fuel rest
              some (.object fields, rest)
      | 'n' :: rest => (fun rest => (.null, rest)) <$> keyword? "ull" rest
      | 't' :: rest => (fun rest => (.bool true, rest)) <$> keyword? "rue" rest
      | 'f' :: rest => (fun rest => (.bool false, rest)) <$> keyword? "alse" rest
      | rest => do
          let (n, rest) ← Numeral.scan rest
          some (.number n, rest)

/-- The items of an array up to its closing bracket, and what follows it. -/
def scanItems : Nat → List Char → Option (List Raw × List Char)
  | 0, _ => none
  | fuel + 1, cs => do
      let (item, rest) ← scan fuel cs
      match skipBlanks rest with
      | ',' :: rest => do
          let (items, rest) ← scanItems fuel rest
          some (item :: items, rest)
      | ']' :: rest => some ([item], rest)
      | _ => none

/-- The fields of an object up to its closing brace, and what follows it. -/
def scanFields : Nat → List Char → Option (List (Option String × Raw) × List Char)
  | 0, _ => none
  | fuel + 1, cs =>
      match skipBlanks cs with
      | '"' :: rest => do
          let (key, rest) ← scanString rest
          match skipBlanks rest with
          | ':' :: rest => do
              let (value, rest) ← scan fuel rest
              match skipBlanks rest with
              | ',' :: rest => do
                  let (fields, rest) ← scanFields fuel rest
                  some ((key, value) :: fields, rest)
              | '\x7d' :: rest => some ([(key, value)], rest)
              | _ => none
          | _ => none
      | _ => none

end

/-- The document that a whole text holds.  Every level of nesting takes a
character and two steps. -/
def read? (text : String) : Option Raw := do
  let cs := text.toList
  let (raw, rest) ← scan (2 * cs.length + 1) cs
  if (skipBlanks rest).isEmpty then some raw else none

end Raw

end AbiBindings.Json
