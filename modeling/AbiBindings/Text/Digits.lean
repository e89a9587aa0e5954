/-!
# Digits

Reading runs of digits, and comparing the numbers they spell with the range of
double precision, in exact arithmetic.
-/

namespace AbiBindings.Text

/-- The value of a digit of any base up to 16. -/
def digitValue? (c : Char) : Option Nat :=
  if c.isDigit then some (c.toNat - 48)
  else if 'a' ≤ c ∧ c ≤ 'f' then some (c.toNat - 87)
  else if 'A' ≤ c ∧ c ≤ 'F' then some (c.toNat - 55)
  else none

/-- The number that hexadecimal digits spell; nothing when one of them is no
digit. -/
def hexValue? (cs : List Char) : Option Nat :=
  cs.foldlM (fun acc c => (fun d => 16 * acc + d) <$> digitValue? c) 0

/-- The number that decimal digits spell. -/
def decimalValue (cs : List Char) : Nat :=
  cs.foldl (fun acc c => 10 * acc + (c.toNat - 48)) 0

/-- The digits at the start of a text, and what follows them. -/
def spanDigits (cs : List Char) : List Char × List Char :=
  (cs.takeWhile Char.isDigit, cs.dropWhile Char.isDigit)

/-- Whether a text is an exponent or empty. -/
def isExponent : List Char → Bool
  | [] => true
  | e :: cs =>
      let digits := match cs with
        | '+' :: rest | '-' :: rest => rest
        | _ => cs
      (e == 'e' || e == 'E') && !digits.isEmpty && digits.all Char.isDigit

/-- Whether a text without sign spells a number: digits with a point before,
among or behind them, and perhaps an exponent. -/
def isDecimal (cs : List Char) : Bool :=
  let (whole, rest) := spanDigits cs
  match rest with
  | '.' :: rest =>
      let (fraction, rest) := spanDigits rest
      !(whole.isEmpty && fraction.isEmpty) && isExponent rest
  | _ => !whole.isEmpty && isExponent rest

/-- The texts, without sign and capitals, that spell a value beyond all numbers
or no number. -/
def nonFiniteNames : List String := ["inf", "infinity", "nan"]

/-- Whether a text spells a value of floating-point arithmetic, perhaps with a
sign. -/
def isFloat (cs : List Char) : Bool :=
  let unsigned := match cs with
    | '+' :: rest | '-' :: rest => rest
    | _ => cs
  isDecimal unsigned || nonFiniteNames.contains (String.ofList (unsigned.map Char.toLower))

/-- The least number that rounds beyond the greatest double. -/
def doubleLimit : Nat := Nat.pow 2 1024 - Nat.pow 2 970

/-- The double nearest to `n`, as if its exponent had no bound; a tie goes to
the even neighbour. -/
def roundToDouble (n : Nat) : Nat :=
  let shift := n.log2 + 1 - 53
  let unit := Nat.pow 2 shift
  let quotient := n / unit
  let twice := 2 * (n % unit)
  let up := decide (unit < twice) || (twice == unit && quotient % 2 == 1)
  (if up then quotient + 1 else quotient) * unit

/-- Whether the number that digits spell, times a power of ten, rounds beyond
the greatest double. -/
def exceedsDouble (digits : List Char) (power : Int) : Bool :=
  let significand := decimalValue digits
  if significand == 0 then false
  else if power < 0 then
    let places := power.natAbs
    places < digits.length && doubleLimit * Nat.pow 10 places ≤ significand
  else power > 308 || doubleLimit ≤ significand * Nat.pow 10 power.toNat

end AbiBindings.Text
