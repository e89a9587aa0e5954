import Mathlib.Data.List.Basic

/-!
# Replacing a part of a text

A text is replaced in another one by cutting it wherever the text stands, from
the left, and putting the new one between the pieces.  Behind an occurrence
the search goes on with what follows it, so occurrences do not overlap.

Two equations say what is replaced: a character at which no occurrence starts
stays (`replace_cons`), and an occurrence that stands in front gives way to the
new text (`replace_self_append`).  So a block in which no occurrence starts is
kept as it is (`replace_append`).
-/

namespace AbiBindings.Text

/-- The pieces of a text between the occurrences of `sep`; the first `skipped`
characters belong to an occurrence that was found already. -/
def splitFrom (sep : List Char) : Nat → List Char → List (List Char)
  | _, [] => [[]]
  | skipped + 1, _ :: cs => splitFrom sep skipped cs
  | 0, c :: cs =>
      if sep.isPrefixOf (c :: cs) then [] :: splitFrom sep (sep.length - 1) cs
      else (splitFrom sep 0 cs).modifyHead (c :: ·)

/-- The pieces of a text between the occurrences of a text that is not empty. -/
def split (sep cs : List Char) : List (List Char) := splitFrom sep 0 cs

/-- The text with `new` for each occurrence of `old`. -/
def replace (old new cs : List Char) : List Char := List.intercalate new (split old cs)

theorem splitFrom_ne_nil (sep : List Char) (skipped : Nat) (cs : List Char) :
    splitFrom sep skipped cs ≠ [] := by
  induction cs generalizing skipped with
  | nil => simp [splitFrom]
  | cons c cs ih =>
      cases skipped with
      | succ skipped => exact ih skipped
      | zero =>
          rw [splitFrom]
          split
          · exact List.cons_ne_nil _ _
          · simpa [List.modifyHead_eq_nil_iff] using ih 0

/-- What belongs to an occurrence is left out. -/
theorem splitFrom_append (sep block cs : List Char) :
    splitFrom sep block.length (block ++ cs) = splitFrom sep 0 cs := by
  induction block with
  | nil => rfl
  | cons c block ih => exact ih

variable {old new : List Char}

theorem replace_cons {c : Char} {cs : List Char} (h : ¬ old <+: c :: cs) :
    replace old new (c :: cs) = c :: replace old new cs := by
  have hstarts : ¬ old.isPrefixOf (c :: cs) = true := by
    rwa [List.isPrefixOf_iff_prefix]
  obtain ⟨piece, rest, hpieces⟩ := List.exists_cons_of_ne_nil (splitFrom_ne_nil old 0 cs)
  rw [replace, replace, split, split, splitFrom, if_neg hstarts, hpieces, List.modifyHead_cons]
  cases rest with
  | nil => simp
  | cons next rest => simp [List.intercalate_cons_cons]

theorem replace_self_append (hold : old ≠ []) (cs : List Char) :
    replace old new (old ++ cs) = new ++ replace old new cs := by
  obtain ⟨c, tail, rfl⟩ := List.exists_cons_of_ne_nil hold
  have hstarts : (c :: tail).isPrefixOf (c :: (tail ++ cs)) = true := by
    simp [List.isPrefixOf_iff_prefix]
  obtain ⟨piece, rest, hpieces⟩ := List.exists_cons_of_ne_nil (splitFrom_ne_nil (c :: tail) 0 cs)
  rw [replace, replace, split, split, List.cons_append, splitFrom, if_pos hstarts,
    List.length_cons, Nat.add_sub_cancel, splitFrom_append, hpieces, List.intercalate_cons_cons,
    List.nil_append]

/-- A block in which no occurrence starts is kept. -/
theorem replace_append {block rest : List Char}
    (h : ∀ s, s ≠ [] → s <:+ block → ¬ old <+: s ++ rest) :
    replace old new (block ++ rest) = block ++ replace old new rest := by
  induction block with
  | nil => rfl
  | cons c block ih =>
      have hhere : ¬ old <+: c :: (block ++ rest) := h (c :: block) (by simp) (List.suffix_refl _)
      rw [List.cons_append, replace_cons hhere, List.cons_append,
        ih fun s hs hsuffix => h s hs (hsuffix.trans (List.suffix_cons c block))]

end AbiBindings.Text
