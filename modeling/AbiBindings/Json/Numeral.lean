import AbiBindings.Text.Digits

/-!
# Numerals of JSON

A numeral is kept as it is written.  Two questions are asked of it: whether it
is a natural number of 64 bits, and whether a double can hold it.  The second is
decided as a reader does it that keeps the leading digits in 64 bits and then
scales by a power of ten.
-/

namespace AbiBindings.Json

/-- A numeral; `fraction` holds the digits behind the point, and `exponent`
whether the exponent is negative, with its digits. -/
structure Numeral where
  negative : Bool
  whole : List Char
  fraction : List Char
  exponent : Option (Bool × List Char)
deriving DecidableEq, Repr, Inhabited

/-- The number of naturals of 64 bits. -/
def wordLimit : Nat := Nat.pow 2 64

namespace Numeral

/-- The natural number of 64 bits that the numeral spells. -/
def natural? (n : Numeral) : Option Nat :=
  let value := Text.decimalValue n.whole
  if !n.negative && n.fraction.isEmpty && n.exponent.isNone && value < wordLimit then some value
  else none

/-- A number of 64 bits with digits appended as long as they fit, and the number
of those that do. -/
def absorb (significand : Nat) : List Char → Nat × Nat
  | [] => (significand, 0)
  | c :: rest =>
      let next := 10 * significand + (c.toNat - 48)
      if next < wordLimit then
        let (last, count) := absorb next rest
        (last, count + 1)
      else (significand, 0)

/-- The leading digits of the numeral, and the power of ten that scales them. -/
def scaled (n : Numeral) : Nat × Int :=
  let (whole, kept) := absorb 0 n.whole
  let (significand, behind) := absorb whole n.fraction
  let shift : Int := (n.whole.length - kept : Nat) - (behind : Int)
  match n.exponent with
  | none => (significand, shift)
  | some (true, digits) => (significand, shift - Text.decimalValue digits)
  | some (false, digits) => (significand, shift + Text.decimalValue digits)

/-- Whether a double can hold the numeral. -/
def isFinite (n : Numeral) : Bool :=
  let (significand, power) := n.scaled
  significand == 0 || power < 0 ||
    (power ≤ 308 && Text.roundToDouble significand * Text.roundToDouble (Nat.pow 10 power.toNat)
      < Text.doubleLimit)

/-- The numeral at the start of a text, and what follows it. -/
def scan (cs : List Char) : Option (Numeral × List Char) := do
  let (negative, cs) := match cs with
    | '-' :: rest => (true, rest)
    | _ => (false, cs)
  let (whole, cs) := Text.spanDigits cs
  if whole.isEmpty || (whole.head? == some '0' && whole.length > 1) then none
  let (fraction, cs) ← match cs with
    | '.' :: rest =>
        let (digits, rest) := Text.spanDigits rest
        if digits.isEmpty then none else some (digits, rest)
    | _ => some ([], cs)
  match cs with
  | c :: rest =>
      if c == 'e' || c == 'E' then
        let (down, rest) := match rest with
          | '-' :: rest => (true, rest)
          | '+' :: rest => (false, rest)
          | _ => (false, rest)
        let (digits, rest) := Text.spanDigits rest
        if digits.isEmpty then none
        else some (⟨negative, whole, fraction, some (down, digits)⟩, rest)
      else some (⟨negative, whole, fraction, none⟩, cs)
  | [] => some (⟨negative, whole, fraction, none⟩, [])

end Numeral

end AbiBindings.Json
