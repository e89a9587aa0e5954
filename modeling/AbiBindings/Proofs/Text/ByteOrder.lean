import AbiBindings.Table
import Mathlib.Data.List.Basic
import Mathlib.Tactic.SplitIfs

/-!
# Texts in the order of their bytes

Tables are sorted by their keys as texts, that is, character by character.
Elsewhere texts are compared byte by byte, as UTF-8 stores them.  There is no
difference: the encoding of a lesser character is the lesser one at the first
byte where they differ, whatever follows either (`encodeChar_append_lt`), so
both orders agree (`bytes_lt_bytes_iff`).
-/

namespace AbiBindings.Text

/-- The bytes that store the text. -/
def bytes (s : String) : List UInt8 := s.toUTF8.data.toList

theorem bytes_eq_flatMap (s : String) : bytes s = s.toList.flatMap String.utf8EncodeChar := by
  rw [bytes, String.toUTF8_eq_toByteArray, ← String.utf8Encode_toList, List.utf8Encode,
    List.data_toByteArray]

/-- No character has a number beyond the range of the encoding. -/
private theorem toNat_lt_of_char (c : Char) : c.val.toNat < 0x110000 := by
  have hvalid : c.val.toNat.isValidChar := c.valid
  rcases hvalid with h | h <;> omega

/-- **Step.**  A lesser character has lesser bytes, whatever stands behind
them. -/
theorem encodeChar_append_lt {c d : Char} (h : c < d) (xs ys : List UInt8) :
    String.utf8EncodeChar c ++ xs < String.utf8EncodeChar d ++ ys := by
  have hless : c.val.toNat < d.val.toNat := h
  have hbound := toNat_lt_of_char d
  simp only [String.utf8EncodeChar]
  -- one case for each pair of lengths; a byte holds one digit of the number
  split_ifs <;>
    simp only [List.cons_append, List.cons_lt_cons_iff, UInt8.lt_iff_toNat_lt,
      ← UInt8.toNat_inj, UInt8.toNat_ofNat', Nat.reducePow] <;>
    simp (disch := omega) only [Nat.mod_eq_of_lt] <;>
    omega

/-- Lesser lists of characters have lesser bytes. -/
theorem flatMap_encodeChar_lt {cs ds : List Char} (h : cs < ds) :
    cs.flatMap String.utf8EncodeChar < ds.flatMap String.utf8EncodeChar := by
  induction h with
  | @nil d ds =>
      rw [List.flatMap_nil, List.flatMap_cons]
      cases hd : String.utf8EncodeChar d with
      | nil => exact absurd hd String.utf8EncodeChar_ne_nil
      | cons b bs => exact List.nil_lt_cons _ _
  | rel hless =>
      rw [List.flatMap_cons, List.flatMap_cons]
      exact encodeChar_append_lt hless _ _
  | cons _ ih =>
      rw [List.flatMap_cons, List.flatMap_cons]
      exact List.append_left_lt ih

theorem bytes_lt_bytes {s t : String} (h : s < t) : bytes s < bytes t := by
  rw [bytes_eq_flatMap, bytes_eq_flatMap]
  exact flatMap_encodeChar_lt h

/-- **Byte order.**  Texts are in the order of their bytes exactly when they are
in the order of their characters. -/
theorem bytes_lt_bytes_iff {s t : String} : bytes s < bytes t ↔ s < t := by
  refine ⟨fun h => ?_, bytes_lt_bytes⟩
  by_contra hst
  by_cases heq : s = t
  · exact List.lt_irrefl _ (heq ▸ h)
  · exact List.lt_asymm h (bytes_lt_bytes (Table.lt_of_not_lt_of_ne hst heq))

theorem bytes_le_bytes_iff {s t : String} : bytes s ≤ bytes t ↔ s ≤ t := by
  rw [← String.not_lt, ← bytes_lt_bytes_iff]
  exact List.not_lt.symm

end AbiBindings.Text
