import AbiBindings.Descriptor.OfParam
import Mathlib.Data.List.TakeWhile

/-!
# The array suffixes of a type

A type is a word with array suffixes behind it, pairs of brackets with digits
or nothing in them.  Every text can be read so in exactly one way
(`peel_eq_iff`): as long as it ends with a suffix, that suffix is taken off,
and what is left ends with none, whatever brackets it may hold.

The suffixes are taken off a reversed text, where a suffix comes first and
its brackets are the other way round (`stripArray?_eq_some_iff`).
-/

namespace AbiBindings.Descriptor

/-- Digits in brackets. -/
def arraySuffix (digits : List Char) : List Char := '[' :: (digits ++ [']'])

/-- The type is the word with that many array suffixes behind it, and the word
does not end with one. -/
structure Suffixed (kind word : List Char) (layers : Nat) : Prop where
  suffixes : ∃ lengths : List (List Char), lengths.length = layers ∧
    (∀ digits ∈ lengths, ∀ c ∈ digits, c.isDigit = true) ∧
    kind = word ++ lengths.flatMap arraySuffix
  bare : ∀ front digits, (∀ c ∈ digits, c.isDigit = true) → word ≠ front ++ arraySuffix digits

theorem reverse_arraySuffix (digits : List Char) :
    (arraySuffix digits).reverse = ']' :: (digits.reverse ++ ['[']) := by
  simp [arraySuffix]

/-- One array suffix is stripped, whatever its length. -/
theorem stripArray?_brackets {digits : List Char} (h : ∀ c ∈ digits, c.isDigit = true)
    (word : List Char) : stripArray? (']' :: (digits ++ '[' :: word)) = some word := by
  have hstop : (digits ++ '[' :: word).dropWhile Char.isDigit = '[' :: word := by
    rw [List.dropWhile_append_of_pos h]
    rfl
  simp only [stripArray?, hstop]

/-- **Step.**  What is stripped off a reversed text is one array suffix. -/
theorem stripArray?_eq_some_iff {text word : List Char} :
    stripArray? text = some word ↔
      ∃ digits : List Char, (∀ c ∈ digits, c.isDigit = true) ∧
        text = ']' :: (digits ++ '[' :: word) := by
  constructor
  · intro h
    unfold stripArray? at h
    split at h
    · rename_i rest
      split at h
      · rename_i word' hdrop
        cases h
        refine ⟨rest.takeWhile Char.isDigit, ?_, ?_⟩
        · intro c hc
          exact List.mem_takeWhile_imp hc
        · rw [← hdrop, List.takeWhile_append_dropWhile]
      · cases h
    · cases h
  · rintro ⟨digits, hdigits, rfl⟩
    exact stripArray?_brackets hdigits word

/-- A text ends with no array suffix when nothing is stripped off it. -/
theorem stripArray?_reverse_eq_none_iff {word : List Char} :
    stripArray? word.reverse = none ↔
      ∀ front digits, (∀ c ∈ digits, c.isDigit = true) → word ≠ front ++ arraySuffix digits := by
  rw [Option.eq_none_iff_forall_ne_some]
  constructor
  · rintro hnone front digits hdigits rfl
    refine hnone front.reverse (stripArray?_eq_some_iff.mpr ⟨digits.reverse, ?_, ?_⟩)
    · simpa using hdigits
    · simp [reverse_arraySuffix]
  · intro hbare front hsome
    obtain ⟨digits, hdigits, hword⟩ := stripArray?_eq_some_iff.mp hsome
    refine hbare front.reverse digits.reverse (by simpa using hdigits) ?_
    rw [← List.reverse_inj, hword]
    simp [reverse_arraySuffix]

/-- **Run.**  All array suffixes are peeled off a reversed text, where the fuel
lasts for them and what is left ends with none. -/
theorem peelWithin_suffixes {base : List Char} (hbase : stripArray? base = none)
    {lengths : List (List Char)} (h : ∀ digits ∈ lengths, ∀ c ∈ digits, c.isDigit = true)
    {fuel : Nat} (hfuel : lengths.length ≤ fuel) :
    peelWithin fuel ((lengths.flatMap fun digits => ']' :: (digits ++ ['['])) ++ base) =
      (base, lengths.length) := by
  induction lengths generalizing fuel with
  | nil =>
      cases fuel with
      | zero => rfl
      | succ fuel => simp [peelWithin, hbase]
  | cons digits rest ih =>
      obtain ⟨hdigits, hrest⟩ := List.forall_mem_cons.mp h
      cases fuel with
      | zero => simp at hfuel
      | succ fuel =>
          have hnext := ih hrest (Nat.le_of_succ_le_succ hfuel)
          simp only [List.flatMap_cons, List.cons_append, List.append_assoc, List.nil_append,
            peelWithin, stripArray?_brackets hdigits, hnext, List.length_cons]

/-- There are no more suffixes than characters in them. -/
theorem length_le_length_suffixes (lengths : List (List Char)) :
    lengths.length ≤ (lengths.flatMap arraySuffix).length := by
  induction lengths with
  | nil => simp
  | cons digits rest ih =>
      simp only [List.flatMap_cons, List.length_append, List.length_cons, arraySuffix]
      omega

/-- What a type is peeled to. -/
theorem peel_of_suffixed {kind : String} {word : List Char} {layers : Nat}
    (h : Suffixed kind.toList word layers) : peel kind = (word, layers) := by
  obtain ⟨⟨lengths, rfl, hdigits, hkind⟩, hbare⟩ := h
  -- reversed, the last suffix comes first and the digits of each run backwards
  have hreverse : kind.toList.reverse =
      ((lengths.map List.reverse).reverse.flatMap fun digits => ']' :: (digits ++ ['['])) ++
        word.reverse := by
    rw [hkind, List.reverse_append, List.reverse_flatMap, ← List.map_reverse, List.flatMap_map]
    congr 2
    funext digits
    exact reverse_arraySuffix digits
  have hbackwards : ∀ digits ∈ (lengths.map List.reverse).reverse, ∀ c ∈ digits,
      c.isDigit = true := by
    intro digits hmem c hc
    obtain ⟨forwards, hforwards, rfl⟩ := List.mem_map.mp (List.mem_reverse.mp hmem)
    exact hdigits forwards hforwards c (List.mem_reverse.mp hc)
  have hfuel : (lengths.map List.reverse).reverse.length ≤ kind.length := by
    rw [← String.length_toList, hkind, List.length_reverse, List.length_map, List.length_append]
    exact Nat.le_add_left_of_le (length_le_length_suffixes lengths)
  rw [peel, hreverse,
    peelWithin_suffixes (stripArray?_reverse_eq_none_iff.mpr hbare) hbackwards hfuel]
  simp

/-- Every text is a word with array suffixes behind it. -/
theorem exists_suffixed (kind : List Char) : ∃ word layers, Suffixed kind word layers := by
  cases hstrip : stripArray? kind.reverse with
  | none => exact ⟨kind, 0, ⟨[], rfl, by simp, by simp⟩, stripArray?_reverse_eq_none_iff.mp hstrip⟩
  | some front =>
      obtain ⟨digits, hdigits, hkind⟩ := stripArray?_eq_some_iff.mp hstrip
      have hlength := congrArg List.length hkind
      obtain ⟨word, layers, ⟨lengths, rfl, hall, hfront⟩, hbare⟩ := exists_suffixed front.reverse
      refine ⟨word, lengths.length + 1, ⟨lengths ++ [digits.reverse], by simp, ?_, ?_⟩, hbare⟩
      · intro others hmem
        rcases List.mem_append.mp hmem with hmem | hmem
        · exact hall others hmem
        · rw [List.mem_singleton.mp hmem]
          simpa using hdigits
      · rw [List.flatMap_append, ← List.append_assoc, ← hfront, ← List.reverse_inj, hkind]
        simp [reverse_arraySuffix]
termination_by kind.length
decreasing_by
  simp only [List.length_reverse, List.length_cons, List.length_append] at hlength ⊢
  omega

/-- **Array suffixes.**  A type is peeled to the word and the number of array
suffixes that it consists of; there is one way only to take them apart. -/
theorem peel_eq_iff {kind : String} {word : List Char} {layers : Nat} :
    peel kind = (word, layers) ↔ Suffixed kind.toList word layers := by
  refine ⟨?_, peel_of_suffixed⟩
  intro h
  obtain ⟨word', layers', hsuffixed⟩ := exists_suffixed kind.toList
  obtain ⟨rfl, rfl⟩ := Prod.mk.inj ((peel_of_suffixed hsuffixed).symm.trans h)
  exact hsuffixed

end AbiBindings.Descriptor
