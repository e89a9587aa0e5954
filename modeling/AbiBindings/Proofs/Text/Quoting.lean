import AbiBindings.Json.Basic
import AbiBindings.Text.Quoted
import Mathlib.Data.List.Basic

/-!
# Quoted strings are read back

What is quoted is a JSON document, the string that was quoted
(`Json.parse?_quote`).  So a literal ends where it was meant to end, whatever
the string holds, and denotes nothing but that string.  The scanner undoes one
escape after the other (`Json.scanPieces_escape`), and no two of the numbered
escapes make a surrogate pair, since only control characters are numbered.
-/

namespace AbiBindings.Json

open Text

/-- The piece of a literal that stands for a character. -/
def pieceOf (c : Char) : Piece :=
  if c.toNat < 32 ∧ c ≠ '\n' ∧ c ≠ '\r' ∧ c ≠ '\t' ∧ c.toNat ≠ 8 ∧ c.toNat ≠ 12 then .unit c.toNat
  else .char c

/-- Four digits that start with two zeros number a control character. -/
theorem hexValue?_control :
    ∀ n < 32, hexValue? ['0', '0', hexDigit (n / 16), hexDigit (n % 16)] = some n := by
  decide

/-- **Step.**  The scanner undoes an escape. -/
theorem scanPieces_escape (read : List Piece) (c : Char) (rest : List Char) :
    scanPieces read (escape c ++ rest) = scanPieces (pieceOf c :: read) rest := by
  unfold escape
  split
  case isTrue h =>
    subst h
    rfl
  split
  case isTrue h =>
    subst h
    rfl
  split
  case isTrue h =>
    subst h
    rfl
  split
  case isTrue h =>
    subst h
    rfl
  split
  case isTrue h =>
    subst h
    rfl
  split
  case isTrue h =>
    obtain rfl : c = Char.ofNat 8 := by rw [← h, Char.ofNat_toNat]
    rfl
  split
  case isTrue h =>
    obtain rfl : c = Char.ofNat 12 := by rw [← h, Char.ofNat_toNat]
    rfl
  split
  case isTrue hcontrol =>
    have hpiece : pieceOf c = .unit c.toNat := by
      simp_all [pieceOf]
    simp [scanPieces, hexValue?_control c.toNat hcontrol, hpiece]
  case isFalse hquote hslash _ _ _ _ _ hcontrol =>
    have hpiece : pieceOf c = .char c := by
      simp [pieceOf, hcontrol]
    rw [List.singleton_append, scanPieces]
    · simp [hcontrol, hslash, hpiece]
    · exact hquote
    · simp [hslash]
    · simp [hslash]

/-- **Run.**  The scanner undoes all escapes up to the closing quote. -/
theorem scanPieces_escaped (cs read : List Char) (rest : List Char) :
    scanPieces (read.map pieceOf) (cs.flatMap escape ++ '"' :: rest) =
      some ((read.reverse ++ cs).map pieceOf, rest) := by
  induction cs generalizing read with
  | nil => simp [scanPieces]
  | cons c cs ih =>
      rw [List.flatMap_cons, List.append_assoc, scanPieces_escape, ← List.map_cons, ih]
      simp

/-- A code unit below the halves of surrogate pairs spells a character of its
own, whatever follows. -/
theorem spell_unit {n : Nat} (h : n < 0xd800) (read : List Char) (rest : List Piece) :
    spell read (.unit n :: rest) = spell (Char.ofNat n :: read) rest := by
  have hhigh : isHighHalf n = false := by
    simp [isHighHalf]
    omega
  have hlow : isLowHalf n = false := by
    simp [isLowHalf]
    omega
  match rest with
  | [] => simp [spell, hhigh, hlow]
  | .char c :: later => simp [spell, hhigh, hlow]
  | .unit m :: later => simp [spell, hhigh, hlow]

/-- The pieces of a text spell it. -/
theorem spell_pieces (cs read : List Char) :
    spell read (cs.map pieceOf) = some (String.ofList (read.reverse ++ cs)) := by
  induction cs generalizing read with
  | nil => simp [spell]
  | cons c cs ih =>
      have hstep : spell read (pieceOf c :: cs.map pieceOf) =
          spell (c :: read) (cs.map pieceOf) := by
        unfold pieceOf
        split
        case isTrue hcontrol =>
          rw [spell_unit (by omega), Char.ofNat_toNat]
        case isFalse => rw [spell]
      rw [List.map_cons, hstep, ih]
      simp

/-- The scanner reads a literal up to its closing quote, whatever follows. -/
theorem scanString_escaped (s : String) (rest : List Char) :
    scanString (s.toList.flatMap escape ++ '"' :: rest) = some (some s, rest) := by
  have hpieces := scanPieces_escaped s.toList [] rest
  rw [List.map_nil] at hpieces
  have hspell := spell_pieces s.toList []
  simp only [List.reverse_nil, List.nil_append, String.ofList_toList] at hspell hpieces
  simp [scanString, hpieces, hspell]

/-- A document that starts with a quote is a string. -/
theorem scan_quote {cs rest : List Char} {s : Option String} (h : scanString cs = some (s, rest))
    (fuel : Nat) : Raw.scan (fuel + 1) ('"' :: cs) = some (.string s, rest) := by
  have hblanks : skipBlanks ('"' :: cs) = '"' :: cs := List.dropWhile_cons_of_neg (by decide)
  rw [Raw.scan, hblanks]
  simp [h]

/-- **Quoting.**  A quoted string is a document that holds this string. -/
theorem parse?_quote (s : String) : parse? (quote s) = some (.string s) := by
  have hscan : scanString (s.toList.flatMap escape ++ ['"']) = some (some s, []) :=
    scanString_escaped s []
  have hchars : (quote s).toList = '"' :: (s.toList.flatMap escape ++ ['"']) := by
    simp [quote, quoteChars]
  have hread : Raw.read? (quote s) = some (.string (some s)) := by
    rw [Raw.read?, hchars]
    simp only [scan_quote hscan]
    rfl
  have hvalue : ∀ depth, ofRaw? depth (.string (some s)) = some (.string s) := fun depth => by
    rw [ofRaw?]
    rfl
  rw [parse?, hread]
  exact hvalue maxDepth

end AbiBindings.Json
