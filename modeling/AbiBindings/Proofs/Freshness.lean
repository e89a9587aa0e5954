import AbiBindings.Interface.Registry
import Mathlib.Data.List.Nodup
import Mathlib.Data.List.Perm.Subperm

/-!
# Searches for a free name end with one

The library looks for free names in two places: underscores are put behind an
identifier until no name in scope is shadowed, and numbers behind a member
name until no member has it.  Both searches try pairwise distinct candidates,
one more of them than there are names to stay clear of, so one candidate is
free (`exists_lt_not_mem`) and the first free one is found
(`find?_range_getD`).
-/

namespace AbiBindings

/-- **Pigeonhole for names.**  Of pairwise distinct candidates, one more than
there are taken names, one is not taken. -/
theorem exists_lt_not_mem {candidate : Nat → String}
    (hinj : Function.Injective candidate) (taken : List String) :
    ∃ k, k < taken.length + 1 ∧ candidate k ∉ taken := by
  by_contra hall
  have hsubset : (List.range (taken.length + 1)).map candidate ⊆ taken := by
    intro name hname
    obtain ⟨k, hk, rfl⟩ := List.mem_map.mp hname
    by_contra hfree
    exact hall ⟨k, List.mem_range.mp hk, hfree⟩
  have hnodup : ((List.range (taken.length + 1)).map candidate).Nodup :=
    List.nodup_range.map hinj
  have hlength := (List.subperm_of_subset hnodup hsubset).length_le
  simp only [List.length_map, List.length_range] at hlength
  omega

/-- The bounded search finds the least number that passes, as soon as some
number within the bound does. -/
theorem find?_range_getD {p : Nat → Bool} {bound k : Nat} (d : Nat)
    (hk : k < bound) (hp : p k = true) :
    p (((List.range bound).find? p).getD d) = true ∧
      ∀ j, j < ((List.range bound).find? p).getD d → p j = false := by
  cases hfind : (List.range bound).find? p with
  | none =>
      have hnone := List.find?_eq_none.mp hfind k (List.mem_range.mpr hk)
      exact absurd hp hnone
  | some n =>
      obtain ⟨hn, -, hleast⟩ := List.find?_range_eq_some.mp hfind
      exact ⟨hn, fun j hj => by simpa using hleast j hj⟩

namespace Script

/-- Different numbers of underscores make different names. -/
theorem underscored_injective (name : String) :
    Function.Injective (underscored name) := by
  intro j k h
  have hlength := congrArg String.length h
  simpa [underscored] using hlength

/-- **Avoiding names.**  A name that avoids others has the fewest underscores
behind it that make it none of them. -/
theorem avoid_eq_underscored (name : String) (taken : List String) :
    ∃ k, avoid name taken = underscored name k ∧ underscored name k ∉ taken ∧
      ∀ j, j < k → underscored name j ∈ taken := by
  obtain ⟨k, hk, hfree⟩ := exists_lt_not_mem (underscored_injective name) taken
  obtain ⟨hfound, hleast⟩ := find?_range_getD 0 hk
    (p := fun k => !taken.contains (underscored name k)) (by simpa using hfree)
  exact ⟨_, rfl, by simpa using hfound, fun j hj => by simpa using hleast j hj⟩

/-- Only one number of underscores is the least that makes the name free. -/
theorem avoid_eq_of_least {name : String} {taken : List String} {k : Nat}
    (hfree : underscored name k ∉ taken) (hleast : ∀ j, j < k → underscored name j ∈ taken) :
    avoid name taken = underscored name k := by
  obtain ⟨n, heq, hfound, hbefore⟩ := avoid_eq_underscored name taken
  rw [heq]
  rcases Nat.lt_trichotomy n k with hless | rfl | hgreater
  · exact absurd (hleast n hless) hfound
  · rfl
  · exact absurd (hbefore k hgreater) hfree

/-- A name that avoids others is none of them. -/
theorem avoid_not_mem (name : String) (taken : List String) :
    avoid name taken ∉ taken := by
  obtain ⟨k, heq, hfree, -⟩ := avoid_eq_underscored name taken
  rwa [heq]

@[simp]
theorem underscored_zero (name : String) : underscored name 0 = name := by
  simp [underscored]

/-- A name that is none of the others stays as it is. -/
theorem avoid_of_not_mem {name : String} {taken : List String} (h : name ∉ taken) :
    avoid name taken = name := by
  have hsame : avoid name taken = underscored name 0 :=
    avoid_eq_of_least (by simpa using h) (by simp)
  simpa using hsame

/-- One underscore is enough where it makes the name none of the others. -/
theorem avoid_of_mem {name : String} {taken : List String} (h : name ∈ taken)
    (hnext : name ++ "_" ∉ taken) : avoid name taken = name ++ "_" :=
  avoid_eq_of_least (k := 1) hnext (by simpa using h)

end Script

namespace Scope

/-- The identifier of a parameter is none of the locals around it. -/
theorem parameterIdent_not_mem_locals (name : String) (locals : List String) :
    parameterIdent name locals ∉ locals := fun h =>
  Script.avoid_not_mem _ _ (List.mem_append_left module h)

/-- The identifier of a parameter is no name of the module scope. -/
theorem parameterIdent_not_mem_module (name : String) (locals : List String) :
    parameterIdent name locals ∉ module := fun h =>
  Script.avoid_not_mem _ _ (List.mem_append_right locals h)

end Scope

namespace Interface.Registry

/-- Different numbers behind a name make different names. -/
theorem numbered_injective (base : String) :
    Function.Injective (numbered base) := by
  intro m n h
  have hdigits : (toString m).toList = (toString n).toList := by
    simpa [numbered] using congrArg String.toList h
  have hvalue := congrArg (Nat.ofDigitChars 10 · 0) hdigits
  simpa using hvalue

end Interface.Registry

end AbiBindings
