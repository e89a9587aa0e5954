import AbiBindings.Proofs.Script.Identifiers

/-!
# Renaming step by step

The identifier of a parameter is found by a bounded search for the fewest
underscores.  It can also be found without looking ahead: put an underscore
behind the name for as long as it is one of the locals, then for as long as it
is a name of the module, and start again unless neither was needed
(`Scope.settle`).  An underscore that leads out of one list may lead into the
other, so it is not the lists that shrink from round to round.  What decides is
that a round steps only over names that are forbidden (`Scope.round_eq`): it
cannot pass the name that the bounded search finds, and comes closer to it
unless the name is free already (`avoid_underscored`).

So the rounds come to an end, and with the same name (`Scope.settle_eq_avoid`).
-/

namespace AbiBindings

namespace Script

theorem length_underscored (name : String) (k : Nat) :
    (underscored name k).length = name.length + k := by
  simp [underscored]

theorem underscored_underscored (name : String) (j k : Nat) :
    underscored (underscored name j) k = underscored name (j + k) := by
  apply String.toList_injective
  simp [underscored]

/-- **Step.**  Underscores that step over forbidden names only do not change the
name that is found. -/
theorem avoid_underscored {name : String} {taken : List String} {k : Nat}
    (h : ∀ j, j < k → underscored name j ∈ taken) :
    avoid (underscored name k) taken = avoid name taken := by
  obtain ⟨n, heq, hfree, hleast⟩ := avoid_eq_underscored name taken
  have hle : k ≤ n := Nat.le_of_not_lt fun hless => hfree (h n hless)
  obtain ⟨m, rfl⟩ := Nat.exists_eq_add_of_le hle
  rw [heq, ← underscored_underscored]
  refine avoid_eq_of_least (by rwa [underscored_underscored]) fun j hj => ?_
  rw [underscored_underscored]
  exact hleast (k + j) (by omega)

/-- So the name that is found is at least as long as the name that they make. -/
theorem length_le_length_avoid {name : String} {taken : List String} {k : Nat}
    (h : ∀ j, j < k → underscored name j ∈ taken) :
    name.length + k ≤ (avoid name taken).length := by
  obtain ⟨n, heq, -, -⟩ := avoid_eq_underscored (underscored name k) taken
  rw [← avoid_underscored h, heq, length_underscored, length_underscored]
  omega

/-- One underscore behind a forbidden name does not change it either, and the name
that is found is longer. -/
theorem avoid_concat_underscore {name : String} {taken : List String} (h : name ∈ taken) :
    avoid (name ++ "_") taken = avoid name taken ∧
      name.length + 1 ≤ (avoid name taken).length := by
  have hstep : ∀ j, j < 1 → underscored name j ∈ taken := by simpa using h
  have hone : underscored name 1 = name ++ "_" := rfl
  exact ⟨hone ▸ avoid_underscored hstep, length_le_length_avoid hstep⟩

/-- Puts underscores behind the name, one by one, for as long as it is one of
the others. -/
def lengthen (taken : List String) (name : String) : String :=
  if name ∈ taken then lengthen taken (name ++ "_") else name
termination_by (avoid name taken).length - name.length
decreasing_by
  rename_i hmem
  obtain ⟨hsame, hlonger⟩ := avoid_concat_underscore hmem
  rw [hsame, String.length_append, show "_".length = 1 from rfl]
  omega

/-- One by one, they end with the fewest. -/
theorem lengthen_eq_avoid (taken : List String) (name : String) :
    lengthen taken name = avoid name taken := by
  fun_induction lengthen taken name with
  | case1 name hmem ih => rw [ih, (avoid_concat_underscore hmem).1]
  | case2 name hmem => exact (avoid_of_not_mem hmem).symm

/-- An identifier is safe already. -/
theorem safeIdentifier_of_isIdentifier {name : String} (h : isIdentifier name = true) :
    safeIdentifier name = name := by
  obtain ⟨hword, hreserved⟩ := isIdentifier_iff.mp h
  simp [safeIdentifier, nearestWord_of_isWord hword, hreserved]

end Script

namespace Scope

open Script

/-- **Round.**  One round over both lists puts some underscores behind the name,
and steps over forbidden names only. -/
theorem round_eq (locals : List String) (name : String) : ∃ k,
    lengthen module (lengthen locals name) = underscored name k ∧
      ∀ j, j < k → underscored name j ∈ locals ++ module := by
  obtain ⟨m, hm, -, hlocals⟩ := avoid_eq_underscored name locals
  obtain ⟨n, hn, -, hmodule⟩ := avoid_eq_underscored (underscored name m) module
  refine ⟨m + n, ?_, ?_⟩
  · rw [lengthen_eq_avoid, lengthen_eq_avoid, hm, hn, underscored_underscored]
  · intro j hj
    by_cases hfirst : j < m
    · exact List.mem_append_left _ (hlocals j hfirst)
    · have hsecond := hmodule (j - m) (by omega)
      rw [underscored_underscored, Nat.add_sub_of_le (by omega)] at hsecond
      exact List.mem_append_right _ hsecond

/-- A round that changes nothing ends with a name that is free. -/
theorem not_mem_of_round_eq_self {locals : List String} {name : String}
    (h : lengthen module (lengthen locals name) = name) : name ∉ locals ++ module := by
  rw [lengthen_eq_avoid, lengthen_eq_avoid] at h
  obtain ⟨m, hm, hlocals, -⟩ := avoid_eq_underscored name locals
  obtain ⟨n, hn, hmodule, -⟩ := avoid_eq_underscored (underscored name m) module
  rw [hm, hn] at h
  have hlength := congrArg String.length h
  rw [length_underscored, length_underscored] at hlength
  obtain ⟨rfl, rfl⟩ : m = 0 ∧ n = 0 := by omega
  simp only [underscored_zero] at hlocals hmodule
  simp [hlocals, hmodule]

/-- Goes over both lists, round by round, until a round changes nothing. -/
def settle (locals : List String) (name : String) : String :=
  if lengthen module (lengthen locals name) = name then name
  else settle locals (lengthen module (lengthen locals name))
termination_by (avoid name (locals ++ module)).length - name.length
decreasing_by
  rename_i hchanged
  -- the round put an underscore behind the name, and did not pass the free one
  obtain ⟨k, hround, hforbidden⟩ := round_eq locals name
  have hlonger := length_le_length_avoid hforbidden
  have hpositive : k ≠ 0 := by
    rintro rfl
    exact hchanged (by simpa using hround)
  rw [hround, avoid_underscored hforbidden, length_underscored]
  omega

/-- **Run.**  The rounds end with the name that avoids both lists at once. -/
theorem settle_eq_avoid (locals : List String) (name : String) :
    settle locals name = avoid name (locals ++ module) := by
  fun_induction settle locals name with
  | case1 name hsame => exact (avoid_of_not_mem (not_mem_of_round_eq_self hsame)).symm
  | case2 name hchanged ih =>
      obtain ⟨k, hround, hforbidden⟩ := round_eq locals name
      rw [ih, hround, avoid_underscored hforbidden]

/-- The identifier of a parameter is its own. -/
theorem parameterIdent_parameterIdent (name : String) (locals : List String) :
    parameterIdent (parameterIdent name locals) locals = parameterIdent name locals := by
  have hsafe := safeIdentifier_of_isIdentifier (isIdentifier_parameterIdent name locals)
  have hfree : parameterIdent name locals ∉ locals ++ module := avoid_not_mem _ _
  calc parameterIdent (parameterIdent name locals) locals
      = avoid (parameterIdent name locals) (locals ++ module) := by rw [parameterIdent, hsafe]
    _ = parameterIdent name locals := avoid_of_not_mem hfree

/-- **The nearest safe name.**  Whatever a parameter is called and whatever
surrounds it, the rounds over the locals and the module end, with its
identifier.  This is the safe identifier of the name with the fewest underscores
behind it that make it neither a local nor a name of the module; it is an
identifier, and is kept when it is renamed again. -/
theorem parameterIdent_nearest (name : String) (locals : List String) :
    settle locals (safeIdentifier name) = parameterIdent name locals ∧
      (∃ k, parameterIdent name locals = underscored (safeIdentifier name) k ∧
        (underscored (safeIdentifier name) k ∉ locals ∧
          underscored (safeIdentifier name) k ∉ module) ∧
        ∀ j, j < k → underscored (safeIdentifier name) j ∈ locals ∨
          underscored (safeIdentifier name) j ∈ module) ∧
      isIdentifier (parameterIdent name locals) = true ∧
      parameterIdent (parameterIdent name locals) locals = parameterIdent name locals := by
  have hsettle : settle locals (safeIdentifier name) = parameterIdent name locals := by
    rw [settle_eq_avoid, parameterIdent]
  have hnearest := avoid_eq_underscored (safeIdentifier name) (locals ++ module)
  rw [← parameterIdent] at hnearest
  simp only [List.mem_append, not_or] at hnearest
  exact ⟨hsettle, hnearest, isIdentifier_parameterIdent name locals,
    parameterIdent_parameterIdent name locals⟩

/-- The underscore that keeps a parameter off the module makes it one of the
locals, so a second round is needed. -/
theorem parameterIdent_nearest_back :
    settle ["Call_", "Call__"] (safeIdentifier "Call") = "Call___" ∧
      isIdentifier "Call___" = true ∧ parameterIdent "Call___" ["Call_", "Call__"] = "Call___" := by
  have hident : parameterIdent "Call" ["Call_", "Call__"] = "Call___" := by decide +kernel
  obtain ⟨hsettle, -, hvalid, hagain⟩ := parameterIdent_nearest "Call" ["Call_", "Call__"]
  rw [hident] at hsettle hvalid hagain
  exact ⟨hsettle, hvalid, hagain⟩

end Scope

end AbiBindings
