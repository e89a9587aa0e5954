import AbiBindings.Text.Digits

/-!
# Strings, keys and blanks of TOML

A string is written between one or three quotes, double quotes for strings with
escapes and single quotes for strings as they stand.  Between three quotes a
string may hold line breaks and, where that is clear, one or two quotes; a line
break behind the opening quotes does not count.
-/

namespace AbiBindings.Toml

/-- Whether the character may stand in a line: a tab or no control character. -/
def isLineChar (c : Char) : Bool := c == '\t' || (32 ≤ c.toNat && c.toNat != 127)

/-- The text without the blanks at its start. -/
def skipBlanks (cs : List Char) : List Char := cs.dropWhile fun c => c == ' ' || c == '\t'

/-- What follows a line break. -/
def lineBreak? : List Char → Option (List Char)
  | '\n' :: rest => some rest
  | '\r' :: '\n' :: rest => some rest
  | _ => none

/-- What follows the end of a line, with the blanks and the comment before
it. -/
def endLine? (cs : List Char) : Option (List Char) :=
  let rest := match skipBlanks cs with
    | '#' :: rest => rest.dropWhile isLineChar
    | rest => rest
  if rest.isEmpty then some [] else lineBreak? rest

/-- The text without the blanks, line breaks and comments at its start.  A
comment has to end with its line. -/
def skipLines (inComment : Bool) : List Char → Option (List Char)
  | [] => if inComment then none else some []
  | '\n' :: rest => skipLines false rest
  | '\r' :: '\n' :: rest => skipLines false rest
  | c :: rest =>
      if inComment then if isLineChar c then skipLines true rest else none
      else if c == ' ' || c == '\t' then skipLines false rest
      else if c == '#' then skipLines true rest
      else some (c :: rest)

/-- The character that a backslash and a letter stand for. -/
def namedEscape? (c : Char) : Option Char :=
  match c with
  | '"' | '\\' => some c
  | 'b' => some (Char.ofNat 8)
  | 'f' => some (Char.ofNat 12)
  | 'n' => some '\n'
  | 'r' => some '\r'
  | 't' => some '\t'
  | _ => none

/-- The character of a number, unless it is half of a surrogate pair or too
great. -/
def charOfNumber? (n : Nat) : Option Char :=
  if n < 0xd800 || (0xe000 ≤ n && n < 0x110000) then some (Char.ofNat n) else none

/-- The character that `count` hexadecimal digits give the number of, and what
follows them. -/
def numberedEscape? (count : Nat) (cs : List Char) : Option (Char × List Char) := do
  let digits := cs.take count
  if digits.length < count then none
  let c ← charOfNumber? (← Text.hexValue? digits)
  some (c, cs.drop count)

/-- The character that an escape stands for, behind the backslash, and what
follows it. -/
def escape? : List Char → Option (Char × List Char)
  | 'u' :: rest => numberedEscape? 4 rest
  | 'U' :: rest => numberedEscape? 8 rest
  | c :: rest => (·, rest) <$> namedEscape? c
  | [] => none

/-- The string up to its closing quote, behind the characters already read, and
what follows it. -/
def scanBasic : Nat → List Char → List Char → Option (String × List Char)
  | 0, _, _ => none
  | fuel + 1, read, cs =>
      match cs with
      | '"' :: rest => some (String.ofList read.reverse, rest)
      | '\\' :: rest => do
          let (c, rest) ← escape? rest
          scanBasic fuel (c :: read) rest
      | c :: rest => if isLineChar c then scanBasic fuel (c :: read) rest else none
      | [] => none

/-- The string as it stands up to its closing quote, and what follows it. -/
def scanLiteral (cs : List Char) : Option (String × List Char) :=
  let inside := fun c => isLineChar c && c != '\''
  match cs.dropWhile inside with
  | '\'' :: rest => some (String.ofList (cs.takeWhile inside), rest)
  | _ => none

/-- The text without the blanks and line breaks at its start. -/
def skipSpace : List Char → List Char
  | [] => []
  | '\r' :: '\n' :: rest => skipSpace rest
  | c :: rest => if c == ' ' || c == '\t' || c == '\n' then skipSpace rest else c :: rest

/-- What follows a backslash at the end of a line: the text behind all blanks
and line breaks. -/
def foldedLine? (cs : List Char) : Option (List Char) :=
  skipSpace <$> lineBreak? (skipBlanks cs)

/-- A run of quotes in a string between three quotes: either it closes the
string, with at most two quotes before that are part of it, or it is part of the
string. -/
def quoteRun (quote : Char) (cs : List Char) : Nat × Bool × List Char :=
  let count := (cs.takeWhile (· == quote)).length
  if count < 3 then (count, false, cs.drop count)
  else (min (count - 3) 2, true, cs.drop (min count 5))

/-- The string up to its closing quotes, behind the characters already read, and
what follows it. -/
def scanLong (quote : Char) (escapes : Bool) :
    Nat → List Char → List Char → Option (String × List Char)
  | 0, _, _ => none
  | _, _, [] => none
  | fuel + 1, read, c :: rest =>
      if c == quote then
        let (count, closes, rest) := quoteRun quote (c :: rest)
        let read := List.replicate count quote ++ read
        if closes then some (String.ofList read.reverse, rest)
        else scanLong quote escapes fuel read rest
      else if escapes && c == '\\' then
        match foldedLine? rest with
        | some rest => scanLong quote escapes fuel read rest
        | none => do
            let (c, rest) ← escape? rest
            scanLong quote escapes fuel (c :: read) rest
      else
        match lineBreak? (c :: rest) with
        | some rest => scanLong quote escapes fuel ('\n' :: read) rest
        | none => if isLineChar c then scanLong quote escapes fuel (c :: read) rest else none

/-- The string between three quotes, behind the opening ones, and what follows
it. -/
def scanLongString (quote : Char) (escapes : Bool) (cs : List Char) :
    Option (String × List Char) :=
  let cs := (lineBreak? cs).getD cs
  scanLong quote escapes (cs.length + 1) [] cs

/-- The string at the start of a text, and what follows it. -/
def scanString? : List Char → Option (String × List Char)
  | '"' :: '"' :: '"' :: rest => scanLongString '"' true rest
  | '"' :: rest => scanBasic (rest.length + 1) [] rest
  | '\'' :: '\'' :: '\'' :: rest => scanLongString '\'' false rest
  | '\'' :: rest => scanLiteral rest
  | _ => none

/-- Whether the character may stand in a key without quotes. -/
def isKeyChar (c : Char) : Bool := c.isAlphanum || c == '-' || c == '_'

/-- The simple key at the start of a text, and what follows it. -/
def scanKey? : List Char → Option (String × List Char)
  | '"' :: rest => scanBasic (rest.length + 1) [] rest
  | '\'' :: rest => scanLiteral rest
  | cs =>
      let word := cs.takeWhile isKeyChar
      if word.isEmpty then none else some (String.ofList word, cs.dropWhile isKeyChar)

end AbiBindings.Toml
