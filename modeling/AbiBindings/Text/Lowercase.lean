import AbiBindings.Text.Lowercase.Table
import AbiBindings.Text.Ranges

/-!
# Lower-casing text

`lowercase` replaces each character by its lower-case form.  Two characters have
a rule of their own: the dotted capital I becomes an i with a combining dot, and
a capital sigma becomes the final sigma when it ends a word, that is when a
cased letter stands before it and none behind it, case-ignorable characters left
aside.
-/

namespace AbiBindings.Text

namespace Lowercase

/-- The lower-case form of a character outside of ASCII that maps to one
character. -/
def partner (c : Char) : Char :=
  match mappingRuns.find? fun (first, last, step, _) =>
      first ≤ c.toNat && c.toNat ≤ last && (c.toNat - first) % step == 0 with
  | some (_, _, _, shift) => Char.ofNat (c.toNat + shift).toNat
  | none => c

/-- Whether the first character that is not case-ignorable is cased. -/
def casedAhead (cs : List Char) : Bool :=
  match cs.dropWhile fun c => inRanges caseIgnorableRanges c.toNat with
  | [] => false
  | c :: _ => inRanges casedRanges c.toNat

/-- The lower-case form of a character between the characters before it, nearest
first, and those behind it. -/
def lowerAt (before : List Char) (c : Char) (behind : List Char) : List Char :=
  if c.toNat < 128 then [c.toLower]
  else if c.toNat = 0x3a3 then
    if casedAhead before && !casedAhead behind then [Char.ofNat 0x3c2] else [Char.ofNat 0x3c3]
  else if c.toNat = 0x130 then ['i', Char.ofNat 0x307]
  else [partner c]

/-- The lower-case form of a text whose characters come after those of `before`,
nearest first. -/
def lowerFrom (before : List Char) : List Char → List Char
  | [] => []
  | c :: behind => lowerAt before c behind ++ lowerFrom (c :: before) behind

end Lowercase

/-- The text in lower case. -/
def lowercase (s : String) : String :=
  String.ofList (Lowercase.lowerFrom [] s.toList)

/-- The characters with ASCII capitals in lower case and all others as they
are. -/
def lowercaseAscii (cs : List Char) : List Char :=
  cs.map Char.toLower

end AbiBindings.Text
