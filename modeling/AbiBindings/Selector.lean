import AbiBindings.Keccak
import AbiBindings.Text.Quoted

/-!
# Selectors and link placeholders

A function or event is addressed by the first four bytes of the digest of its
canonical signature.  A library that is not linked yet is marked in the bytecode
by a placeholder made of the digest of its qualified name, forty characters like
the address that replaces it.
-/

namespace AbiBindings

/-- The lower-case hexadecimal digits of the digest of the UTF-8 bytes of
`s`. -/
def hashDigits (s : String) : List Char :=
  (Keccak.digest s.toUTF8.toList).flatMap fun b =>
    [Text.hexDigit (b.toNat / 16), Text.hexDigit (b.toNat % 16)]

/-- The digest of the UTF-8 bytes of `s` in 64 upper-case hexadecimal digits. -/
def hexDigest (s : String) : String :=
  String.ofList ((hashDigits s).map Char.toUpper)

/-- The number of hexadecimal digits of a selector. -/
def selectorLength : Nat := 8

/-- The selector of a canonical signature. -/
def selector (signature : String) : String :=
  String.ofList (((hashDigits signature).map Char.toUpper).take selectorLength)

/-- The number of digest digits in a link placeholder. -/
def placeholderDigits : Nat := 34

/-- What stands in the bytecode for the library of a `file:Library` token until
it is linked. -/
def linkPlaceholder (token : String) : String :=
  "__$" ++ String.ofList ((hashDigits token).take placeholderDigits) ++ "$__"

end AbiBindings
