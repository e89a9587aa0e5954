import AbiBindings.Proofs.Freshness
import AbiBindings.Scope

/-!
# Words and identifiers

Every name that is made from a declared one is a word (`isWord_nearestWord`),
and stays one when underscores, digits or letters are put behind it
(`isWord_append`).  A parameter is named by an identifier whatever its
declared name is (`isIdentifier_parameterIdent`), since no reserved word ends
in an underscore.

A declared name that is a word already is kept unless it is protected: then it
gets one underscore, which is always enough (`parameterIdent_of_isWord`).  So
two declared words share an identifier only when one of them is protected and
the other is the same word with an underscore behind it, and this is exactly
when parameters with different declared names are mixed up
(`nodup_parameterIdents_iff`).
-/

namespace AbiBindings.Script

theorem isWord_iff {cs : List Char} :
    isWord cs = true ↔
      (∃ c rest, cs = c :: rest ∧ c.isDigit = false) ∧ ∀ c ∈ cs, isWordChar c = true := by
  cases cs with
  | nil => simp [isWord]
  | cons c rest => simp [isWord]

/-- A word stays a word with more letters, digits or underscores behind it. -/
theorem isWord_append {cs ds : List Char} (h : isWord cs = true)
    (hds : ∀ c ∈ ds, isWordChar c = true) : isWord (cs ++ ds) = true := by
  obtain ⟨⟨c, rest, rfl, hdigit⟩, hcs⟩ := isWord_iff.mp h
  refine isWord_iff.mpr ⟨⟨c, rest ++ ds, rfl, hdigit⟩, ?_⟩
  intro x hx
  rcases List.mem_append.mp hx with hx | hx
  · exact hcs x hx
  · exact hds x hx

theorem isWord_underscored {name : String} (h : isWord name.toList = true) (k : Nat) :
    isWord (underscored name k).toList = true := by
  rw [underscored, String.toList_append, String.toList_ofList]
  apply isWord_append h
  intro c hc
  rw [List.eq_of_mem_replicate hc]
  decide

/-- The nearest word is one. -/
theorem isWord_nearestWord (cs : List Char) : isWord (nearestWord cs) = true := by
  have hword : ∀ c ∈ cs.map fun c => if isWordChar c then c else '_',
      isWordChar c = true := by
    intro c hc
    obtain ⟨d, -, rfl⟩ := List.mem_map.mp hc
    split
    case isTrue hd => exact hd
    case isFalse => decide
  unfold nearestWord
  generalize cs.map (fun c => if isWordChar c then c else '_') = word at hword
  cases word with
  | nil => decide
  | cons c rest =>
      by_cases hdigit : c.isDigit = true
      · simp only [hdigit, if_true]
        exact isWord_iff.mpr ⟨⟨'_', c :: rest, rfl, by decide⟩,
          List.forall_mem_cons.mpr ⟨by decide, hword⟩⟩
      · simp only [hdigit, Bool.false_eq_true, if_false]
        exact isWord_iff.mpr ⟨⟨c, rest, rfl, by simpa using hdigit⟩, hword⟩

/-- The word nearest to a word is the word itself. -/
theorem nearestWord_of_isWord {cs : List Char} (h : isWord cs = true) :
    nearestWord cs = cs := by
  obtain ⟨⟨c, rest, rfl, hdigit⟩, hcs⟩ := isWord_iff.mp h
  have hsame : (c :: rest).map (fun c => if isWordChar c then c else '_') = c :: rest := by
    refine (List.map_congr_left ?_).trans (List.map_id _)
    intro x hx
    rw [if_pos (hcs x hx), id]
  simp only [nearestWord, hsame, hdigit, Bool.false_eq_true, if_false]

/-- No reserved word ends in an underscore. -/
theorem isReserved_concat_underscore (name : String) : isReserved (name ++ "_") = false := by
  have hlast : ∀ word ∈ reservedWords, word.toList.getLast? ≠ some '_' := by decide
  cases h : isReserved (name ++ "_") with
  | false => rfl
  | true =>
      have hends : (name ++ "_").toList.getLast? = some '_' := by
        rw [String.toList_append, List.getLast?_append]
        rfl
      exact absurd hends (hlast _ (by simpa [isReserved] using h))

theorem isIdentifier_iff {name : String} :
    isIdentifier name = true ↔ isWord name.toList = true ∧ isReserved name = false := by
  simp [isIdentifier]

/-- **Safe identifiers.**  Every declared name has an identifier. -/
theorem isIdentifier_safeIdentifier (name : String) :
    isIdentifier (safeIdentifier name) = true := by
  have hword : isWord (String.ofList (nearestWord name.toList)).toList = true := by
    rw [String.toList_ofList]
    exact isWord_nearestWord _
  unfold safeIdentifier
  by_cases hreserved : isReserved (String.ofList (nearestWord name.toList)) = true
  · simp only [hreserved, if_true]
    exact isIdentifier_iff.mpr
      ⟨isWord_underscored hword 1, isReserved_concat_underscore _⟩
  · simp only [hreserved, Bool.false_eq_true, if_false]
    exact isIdentifier_iff.mpr ⟨hword, by simpa using hreserved⟩

/-- Underscores behind an identifier make another one. -/
theorem isIdentifier_underscored {name : String} (h : isIdentifier name = true) (k : Nat) :
    isIdentifier (underscored name k) = true := by
  obtain ⟨hword, hreserved⟩ := isIdentifier_iff.mp h
  cases k with
  | zero => simpa using h
  | succ k =>
      have hlast : underscored name (k + 1) = underscored name k ++ "_" := by
        apply String.toList_injective
        simp [underscored, List.replicate_succ']
      refine isIdentifier_iff.mpr ⟨isWord_underscored hword _, ?_⟩
      rw [hlast]
      exact isReserved_concat_underscore _

end AbiBindings.Script

namespace AbiBindings.Scope

open Script

/-- Whatever its declared name is, a parameter is named by an identifier. -/
theorem isIdentifier_parameterIdent (name : String) (locals : List String) :
    isIdentifier (parameterIdent name locals) = true := by
  obtain ⟨k, heq, -, -⟩ := avoid_eq_underscored (safeIdentifier name) (locals ++ module)
  rw [parameterIdent, heq]
  exact isIdentifier_underscored (isIdentifier_safeIdentifier name) k

/-- The words that no parameter between the locals keeps as its identifier. -/
def protectedNames (locals : List String) : List String :=
  reservedWords ++ (locals ++ module)

/-- No name between the locals is one of them with an underscore behind it. -/
def Separated (locals : List String) : Prop :=
  ∀ name ∈ protectedNames locals, name ++ "_" ∉ locals ++ module

instance (locals : List String) : Decidable (Separated locals) := by
  unfold Separated
  infer_instance

theorem separated_memberLocals : Separated memberLocals := by decide +kernel

theorem separated_deployLocals : Separated deployLocals := by decide +kernel

section Words

variable {locals : List String} (hseparated : Separated locals)

include hseparated

/-- **Identifiers of words.**  A protected word gets an underscore and any
other word stays as it is. -/
theorem parameterIdent_of_isWord {name : String} (hword : isWord name.toList = true) :
    parameterIdent name locals =
      if name ∈ protectedNames locals then name ++ "_" else name := by
  have hsafe : safeIdentifier name = if isReserved name then name ++ "_" else name := by
    simp only [safeIdentifier, nearestWord_of_isWord hword, String.ofList_toList]
  rw [parameterIdent, hsafe]
  by_cases hreserved : isReserved name = true
  · have hmem : name ∈ protectedNames locals :=
      List.mem_append_left _ (by simpa [isReserved] using hreserved)
    rw [if_pos hreserved, if_pos hmem, avoid_of_not_mem (hseparated name hmem)]
  · have hfree : name ∉ reservedWords := by simpa [isReserved] using hreserved
    rw [if_neg hreserved]
    by_cases hmem : name ∈ locals ++ module
    · have hprotected := List.mem_append_right reservedWords hmem
      rw [if_pos (show name ∈ protectedNames locals from hprotected),
        avoid_of_mem hmem (hseparated name hprotected)]
    · have hprotected : name ∉ protectedNames locals := by
        rw [protectedNames, List.mem_append]
        exact fun h => h.elim hfree hmem
      rw [if_neg hprotected, avoid_of_not_mem hmem]

/-- A protected word with an underscore behind it is not protected. -/
theorem concat_underscore_not_mem {name : String} (h : name ∈ protectedNames locals) :
    name ++ "_" ∉ protectedNames locals := by
  rw [protectedNames, List.mem_append]
  intro hmem
  rcases hmem with hreserved | hmem
  · have hfree := isReserved_concat_underscore name
    simp [isReserved, hreserved] at hfree
  · exact hseparated name h hmem

end Words

/-- Some name is protected and stands beside the same name with an underscore
behind it. -/
def Clash (locals names : List String) : Prop :=
  ∃ name ∈ names, name ∈ protectedNames locals ∧ name ++ "_" ∈ names

instance (locals names : List String) : Decidable (Clash locals names) := by
  unfold Clash
  infer_instance

theorem ne_concat_underscore (name : String) : name ≠ name ++ "_" := by
  intro h
  have hlength := congrArg String.length h
  simp at hlength

/-- **Distinct words.**  Distinct words have distinct identifiers unless two
of them clash. -/
theorem nodup_parameterIdents_iff {locals : List String} (hseparated : Separated locals)
    {names : List String} (hnodup : names.Nodup)
    (hwords : ∀ name ∈ names, isWord name.toList = true) :
    (names.map fun name => parameterIdent name locals).Nodup ↔ ¬ Clash locals names := by
  rw [List.nodup_map_iff_inj_on hnodup]
  have hident : ∀ name ∈ names, parameterIdent name locals =
      if name ∈ protectedNames locals then name ++ "_" else name :=
    fun name hname => parameterIdent_of_isWord hseparated (hwords name hname)
  constructor
  · intro hinj hclash
    obtain ⟨name, hname, hprotected, hnext⟩ := hclash
    have hsame : parameterIdent name locals = parameterIdent (name ++ "_") locals := by
      rw [hident name hname, hident _ hnext, if_pos hprotected,
        if_neg (concat_underscore_not_mem hseparated hprotected)]
    exact ne_concat_underscore name (hinj name hname _ hnext hsame)
  · intro hfree x hx y hy heq
    rw [hident x hx, hident y hy] at heq
    by_cases hpx : x ∈ protectedNames locals
    · by_cases hpy : y ∈ protectedNames locals
      · simpa [hpx, hpy] using heq
      · rw [if_pos hpx, if_neg hpy] at heq
        exact absurd ⟨x, hx, hpx, heq ▸ hy⟩ hfree
    · by_cases hpy : y ∈ protectedNames locals
      · rw [if_neg hpx, if_pos hpy] at heq
        exact absurd ⟨y, hy, hpy, heq ▸ hx⟩ hfree
      · simpa [hpx, hpy] using heq

end AbiBindings.Scope
