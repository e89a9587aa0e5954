import AbiBindings.Toml.Basic
import AbiBindings.Text.Digits

/-!
# Numbers and moments of TOML

An integer has 64 bits and may be written in four bases.  A float has a
fraction, an exponent or both, and may not round to positive infinity.  A moment
is a date, a time of day or both, with or without an offset, and the calendar
has to know it.
-/

namespace AbiBindings.Toml

/-- The digits at the start of a text, where single underscores may stand
between two of them, and what follows them. -/
def scanDigits? (isDigit : Char → Bool) : List Char → Option (List Char × List Char)
  | [] => none
  | c :: rest =>
      if !isDigit c then none
      else match rest with
        | [] => some ([c], [])
        | '_' :: more => do
            let (digits, rest) ← scanDigits? isDigit more
            some (c :: digits, rest)
        | d :: more =>
            if isDigit d then do
              let (digits, rest) ← scanDigits? isDigit (d :: more)
              some (c :: digits, rest)
            else some ([c], d :: more)

/-- The integer of 64 bits that has these digits. -/
def integer? (negative : Bool) (value : Nat) : Option Node :=
  let n : Int := if negative then -value else value
  if -9223372036854775808 ≤ n && n ≤ 9223372036854775807 then some (.integer n) else none

/-- The number that digits of a base spell. -/
def valueInBase (base : Nat) (digits : List Char) : Nat :=
  digits.foldl (fun acc c => base * acc + (Text.digitValue? c).getD 0) 0

/-- The integer of a base behind its mark, and what follows it. -/
def scanInBase? (base : Nat) (cs : List Char) : Option (Node × List Char) := do
  let isDigit := fun c => (Text.digitValue? c).any (· < base)
  let (digits, rest) ← scanDigits? isDigit cs
  some (← integer? false (valueInBase base digits), rest)

/-- The sign at the start of a text, if any, and what follows it. -/
def scanSign : List Char → Option Char × List Char
  | '+' :: rest => (some '+', rest)
  | '-' :: rest => (some '-', rest)
  | cs => (none, cs)

/-- The digits before the point: a zero, or digits that start with none. -/
def scanWhole? : List Char → Option (List Char × List Char)
  | '0' :: rest => some (['0'], rest)
  | cs => scanDigits? Char.isDigit cs

/-- The fraction at the start of a text, if any, and what follows it. -/
def scanFraction? : List Char → Option (List Char × List Char)
  | '.' :: rest => scanDigits? Char.isDigit rest
  | cs => some ([], cs)

/-- The exponent at the start of a text, if any, and what follows it. -/
def scanExponent? : List Char → Option (Option Int × List Char)
  | [] => some (none, [])
  | c :: rest =>
      if c == 'e' || c == 'E' then do
        let (sign, rest) := scanSign rest
        let (digits, rest) ← scanDigits? Char.isDigit rest
        let value : Int := Text.decimalValue digits
        some (some (if sign == some '-' then -value else value), rest)
      else some (none, c :: rest)

/-- The part of a text before a rest of it. -/
def textBefore (cs rest : List Char) : String :=
  String.ofList (cs.take (cs.length - rest.length))

/-- The decimal number at the start of a text, and what follows it. -/
def scanDecimal? (cs : List Char) : Option (Node × List Char) := do
  let (sign, rest) := scanSign cs
  let (whole, rest) ← scanWhole? rest
  let (fraction, rest) ← scanFraction? rest
  let (exponent, rest) ← scanExponent? rest
  if fraction.isEmpty && exponent.isNone then
    some (← integer? (sign == some '-') (Text.decimalValue whole), rest)
  else
    let power : Int := exponent.getD 0 - fraction.length
    if sign != some '-' && Text.exceedsDouble (whole ++ fraction) power then none
    else some (.float (textBefore cs rest), rest)

/-- What follows the name of an infinity or of no number. -/
def scanSpecial? (cs : List Char) : Option (Node × List Char) := do
  let (_, rest) := scanSign cs
  let rest ← ("inf".toList.isPrefixOf? rest) <|> ("nan".toList.isPrefixOf? rest)
  some (.float (textBefore cs rest), rest)

/-- The number at the start of a text, and what follows it. -/
def scanNumber? (cs : List Char) : Option (Node × List Char) :=
  match cs with
  | '0' :: 'x' :: rest => scanInBase? 16 rest
  | '0' :: 'o' :: rest => scanInBase? 8 rest
  | '0' :: 'b' :: rest => scanInBase? 2 rest
  | _ => scanSpecial? cs <|> scanDecimal? cs

/-- The number of exactly `count` digits at the start of a text, if it is in the
range, and what follows it. -/
def scanField? (count first last : Nat) (cs : List Char) : Option (Nat × List Char) :=
  let digits := cs.take count
  let n := Text.decimalValue digits
  if digits.length == count && digits.all Char.isDigit && first ≤ n && n ≤ last then
    some (n, cs.drop count)
  else none

/-- What follows a character. -/
def after? (c : Char) : List Char → Option (List Char)
  | d :: rest => if c = d then some rest else none
  | [] => none

/-- The number of days of a month. -/
def daysInMonth (year month : Nat) : Nat :=
  if month == 2 then if year % 4 == 0 && (year % 100 != 0 || year % 400 == 0) then 29 else 28
  else if [4, 6, 9, 11].contains month then 30
  else 31

/-- What follows a date. -/
def skipDate? (cs : List Char) : Option (List Char) := do
  let (year, cs) ← scanField? 4 0 9999 cs
  let (month, cs) ← scanField? 2 1 12 (← after? '-' cs)
  let (_, cs) ← scanField? 2 1 (daysInMonth year month) (← after? '-' cs)
  some cs

/-- What follows a time of day. -/
def skipTime? (cs : List Char) : Option (List Char) := do
  let (_, cs) ← scanField? 2 0 23 cs
  let (_, cs) ← scanField? 2 0 59 (← after? ':' cs)
  let (_, cs) ← scanField? 2 0 60 (← after? ':' cs)
  match cs with
  | '.' :: d :: rest => if d.isDigit then some (rest.dropWhile Char.isDigit) else some cs
  | _ => some cs

/-- What follows an offset from universal time, or the text as it is. -/
def skipOffset (cs : List Char) : List Char :=
  match cs with
  | 'Z' :: rest | 'z' :: rest => rest
  | '+' :: rest | '-' :: rest =>
      (do
        let (_, rest) ← scanField? 2 0 23 rest
        let (_, rest) ← scanField? 2 0 59 (← after? ':' rest)
        some rest).getD cs
  | _ => cs

/-- What follows the time behind a date, or the text as it is. -/
def skipTimeBehind (cs : List Char) : List Char :=
  match cs with
  | c :: rest =>
      if c == 'T' || c == 't' || c == ' ' then ((skipTime? rest).map skipOffset).getD cs else cs
  | [] => []

/-- The moment at the start of a text, and what follows it. -/
def scanMoment? (cs : List Char) : Option (Node × List Char) := do
  let rest ← (skipTimeBehind <$> skipDate? cs) <|> skipTime? cs
  some (.moment (textBefore cs rest), rest)

/-- The value without quotes or brackets at the start of a text, and what
follows it. -/
def scanScalar? (cs : List Char) : Option (Node × List Char) :=
  match cs with
  | 't' :: _ => (fun rest => (.boolean true, rest)) <$> "true".toList.isPrefixOf? cs
  | 'f' :: _ => (fun rest => (.boolean false, rest)) <$> "false".toList.isPrefixOf? cs
  | _ => scanMoment? cs <|> scanNumber? cs

end AbiBindings.Toml
