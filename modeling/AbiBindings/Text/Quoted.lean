/-!
# Quoted string literals

A string literal is written between double quotes.  A quote, a backslash and the
control characters below the space are escaped; every other character, beyond
ASCII or not, stands for itself.  The form is a string literal of JSON and of
TypeScript alike.
-/

namespace AbiBindings.Text

/-- The lower-case hexadecimal digit of `d < 16`. -/
def hexDigit (d : Nat) : Char :=
  if d < 10 then Char.ofNat (48 + d) else Char.ofNat (87 + d)

/-- The characters that stand for `c` between quotes.  The five control
characters with a name of their own take it; the others are written by their
number in four digits. -/
def escape (c : Char) : List Char :=
  if c = '"' then ['\\', '"']
  else if c = '\\' then ['\\', '\\']
  else if c = '\n' then ['\\', 'n']
  else if c = '\r' then ['\\', 'r']
  else if c = '\t' then ['\\', 't']
  else if c.toNat = 8 then ['\\', 'b']
  else if c.toNat = 12 then ['\\', 'f']
  else if c.toNat < 32 then ['\\', 'u', '0', '0', hexDigit (c.toNat / 16), hexDigit (c.toNat % 16)]
  else [c]

/-- The characters of the literal that denotes `s`. -/
def quoteChars (s : List Char) : List Char :=
  '"' :: (s.flatMap escape ++ ['"'])

/-- The literal that denotes `s`. -/
def quote (s : String) : String :=
  String.ofList (quoteChars s.toList)

end AbiBindings.Text
