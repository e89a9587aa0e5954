import AbiBindings.Proofs.Interface.Naming
import Mathlib.Data.Nat.Find
import Mathlib.Order.Bounds.Defs

/-!
# Any run of a registry

The members of a class are named by one fixed plan: names are held, and then
the members claim theirs.  What makes this safe does not depend on the plan.
Here a registry is asked to hold and to claim in any order, and the same
invariant carries every step (`Sound.perform`): what is held is not taken, a
name that is given was not taken and is taken from then on
(`perform_fresh`, `taken_perform`), and so no name is given twice
(`Sound.performAll_fresh`).

A claim for which no candidate is free numbers the last one.  The numbers are
tried one after the other, without a bound (`firstFree`).  That some number is
free follows from the names being finitely many, and it is the one that the
bounded search finds (`firstFree_two`).
-/

namespace AbiBindings.Interface

namespace Registry

/-- What a registry may be asked for. -/
inductive Operation where
  /-- to keep a name for its owner -/
  | hold (name : String)
  /-- to name a member -/
  | claim (candidates : List String)
  /-- to name the owner of the first candidate -/
  | claimHeld (candidates : List String)
deriving DecidableEq, Repr

/-- The name that is given, if one is asked for, and the registry afterwards. -/
def perform (r : Registry) : Operation → Option String × Registry
  | .hold name => (none, r.hold name)
  | .claim candidates => ((r.claim candidates).1, (r.claim candidates).2)
  | .claimHeld candidates => ((r.claimHeld candidates).1, (r.claimHeld candidates).2)

/-- The names that several operations give, and the registry afterwards. -/
def performAll (r : Registry) : List Operation → List String × Registry
  | [] => ([], r)
  | op :: rest =>
      let (name, next) := r.perform op
      let (names, last) := next.performAll rest
      (name.toList ++ names, last)

section Numbers

/-- From any number on, one makes the name free. -/
theorem exists_free (r : Registry) (base : String) (n : Nat) :
    ∃ k, r.isFree (numbered base (n + k)) = true := by
  have hinj : Function.Injective fun k => numbered base (n + k) := by
    intro j k h
    have hsum := numbered_injective base h
    omega
  obtain ⟨k, -, hfree⟩ := exists_lt_not_mem hinj (r.taken ++ r.held)
  exact ⟨k, by simpa [isFree_iff] using hfree⟩

/-- The first number that makes the name free, tried from `n` on. -/
def firstFree (r : Registry) (base : String) (n : Nat) : Nat :=
  if r.isFree (numbered base n) then n else r.firstFree base (n + 1)
termination_by Nat.find (r.exists_free base n)
decreasing_by
  rename_i hused
  -- the distance to the first free number shrinks by one
  have hshift : ∃ k, r.isFree (numbered base (n + (k + 1))) = true := by
    obtain ⟨k, hfree⟩ := r.exists_free base (n + 1)
    exact ⟨k, by rwa [Nat.add_assoc, Nat.add_comm 1 k] at hfree⟩
  have hnext := Nat.find_comp_succ (r.exists_free base n) hshift (by simpa using hused)
  have hsame : Nat.find (r.exists_free base (n + 1)) = Nat.find hshift :=
    Nat.find_congr' fun {k} => by rw [Nat.add_assoc, Nat.add_comm 1 k]
  omega

/-- Whatever comes before the number that is found was tried and not free. -/
theorem firstFree_spec (r : Registry) (base : String) (n : Nat) :
    n ≤ r.firstFree base n ∧ r.isFree (numbered base (r.firstFree base n)) = true ∧
      ∀ m, n ≤ m → m < r.firstFree base n → r.isFree (numbered base m) = false := by
  fun_induction firstFree r base n with
  | case1 n hfree => exact ⟨le_rfl, hfree, fun m hle hless => absurd hless (by omega)⟩
  | case2 n hused ih =>
      obtain ⟨hle, hfree, hleast⟩ := ih
      refine ⟨by omega, hfree, fun m hm hless => ?_⟩
      rcases Nat.eq_or_lt_of_le hm with rfl | hbeyond
      · simpa using hused
      · exact hleast m hbeyond hless

/-- Tried one after the other, the numbers from 2 on lead to the one that the
bounded search finds. -/
theorem firstFree_two (r : Registry) (base : String) :
    r.firstFree base 2 = r.freeNumber base := by
  obtain ⟨hle, hfree, hleast⟩ := firstFree_spec r base 2
  obtain ⟨hle', hfree', hleast'⟩ := freeNumber_spec r base
  rcases Nat.lt_trichotomy (r.firstFree base 2) (r.freeNumber base) with hless | heq | hgreater
  · exact absurd hfree (by simp [hleast' _ hle hless])
  · exact heq
  · exact absurd hfree' (by simp [hleast _ hle' hgreater])

/-- Without a free candidate, the last one is numbered. -/
theorem claim_of_none_free {r : Registry} {candidates : List String} {base : String}
    (hlast : candidates.getLast? = some base) (hused : ∀ c ∈ candidates, r.isFree c = false) :
    (r.claim candidates).1 = numbered base (r.firstFree base 2) := by
  have hnone : candidates.find? r.isFree = none :=
    List.find?_eq_none.mpr fun c hc => by simp [hused c hc]
  have hbase : candidates.getLastD "" = base := by
    rw [List.getLastD_eq_getLast?, hlast, Option.getD_some]
  simp only [claim, choose, hnone, hbase, firstFree_two]

end Numbers

section Steps

variable {r : Registry}

/-- **Step.**  Every operation keeps the registry sound. -/
theorem Sound.perform (h : r.Sound) (op : Operation) : (r.perform op).2.Sound := by
  cases op with
  | hold name => exact h.hold name
  | claim candidates => exact h.claim candidates
  | claimHeld candidates => exact h.claimHeld candidates

/-- **Step.**  A name that is given was not taken. -/
theorem Sound.perform_fresh (h : r.Sound) {op : Operation} {name : String}
    (hname : (r.perform op).1 = some name) : name ∉ r.taken := by
  cases op with
  | hold _ => cases hname
  | claim candidates =>
      cases hname
      exact (claim_fresh r candidates).1
  | claimHeld candidates =>
      cases hname
      exact h.claimHeld_fresh candidates

/-- **Step.**  The name that is given is taken from then on, and no other. -/
theorem taken_perform (r : Registry) (op : Operation) :
    (r.perform op).2.taken = (r.perform op).1.toList ++ r.taken := by
  cases op with
  | hold name => exact taken_hold r name
  | claim candidates => rfl
  | claimHeld candidates => exact taken_claimHeld r candidates

end Steps

section Runs

variable {r : Registry}

/-- A run in two parts. -/
theorem performAll_append (r : Registry) (ops ops' : List Operation) :
    r.performAll (ops ++ ops') =
      ((r.performAll ops).1 ++ ((r.performAll ops).2.performAll ops').1,
        ((r.performAll ops).2.performAll ops').2) := by
  induction ops generalizing r with
  | nil => rfl
  | cons op rest ih => simp [performAll, ih]

/-- A run takes the names that it gives, and no others. -/
theorem taken_performAll (r : Registry) (ops : List Operation) :
    (r.performAll ops).2.taken = (r.performAll ops).1.reverse ++ r.taken := by
  induction ops generalizing r with
  | nil => rfl
  | cons op rest ih =>
      have hone : (r.perform op).1.toList.reverse = (r.perform op).1.toList := by
        cases (r.perform op).1 <;> rfl
      simp only [performAll, ih, taken_perform, List.reverse_append, hone, List.append_assoc]

theorem Sound.performAll (h : r.Sound) (ops : List Operation) : (r.performAll ops).2.Sound := by
  induction ops generalizing r with
  | nil => exact h
  | cons op rest ih => exact ih (h.perform op)

/-- **Run.**  The names that a run gives are pairwise distinct, and none of them
was taken before. -/
theorem Sound.performAll_fresh (h : r.Sound) (ops : List Operation) :
    (r.performAll ops).1.Nodup ∧ ∀ name ∈ (r.performAll ops).1, name ∉ r.taken := by
  induction ops generalizing r with
  | nil => simp [Registry.performAll]
  | cons op rest ih =>
      obtain ⟨hnodup, hlater⟩ := ih (h.perform op)
      rw [taken_perform] at hlater
      have hone : (r.perform op).1.toList.Nodup := by
        cases (r.perform op).1 <;> simp
      constructor
      · refine List.nodup_append.mpr ⟨hone, hnodup, ?_⟩
        rintro name hname _ hother rfl
        exact hlater name hother (List.mem_append_left _ hname)
      · intro name hname
        rcases List.mem_append.mp hname with hfirst | hrest
        · exact h.perform_fresh (Option.mem_toList.mp hfirst)
        · exact fun htaken => hlater name hrest (List.mem_append_right _ htaken)

/-- The registry after operations on a new one. -/
def after (ops : List Operation) : Registry := (new.performAll ops).2

/-- The names that operations on a new registry are given. -/
def given (ops : List Operation) : List String := (new.performAll ops).1

theorem after_concat (ops : List Operation) (op : Operation) :
    after (ops ++ [op]) = ((after ops).perform op).2 := by
  simp [after, performAll_append, performAll]

/-- **Any run.**  Whatever a new registry was asked for, no name is both held
and taken, and the names that it gave are pairwise distinct, taken, and none
that every class has.  Whatever it is asked for next, a name that it gives was
not taken before and is taken afterwards.  A claim is never given a held name;
where no candidate is free it is given the last one with the first number from
2 on that makes it free. -/
theorem names_given_once (ops : List Operation) :
    (∀ name ∈ (after ops).held, name ∉ (after ops).taken) ∧
      ((given ops).Nodup ∧
        ∀ name ∈ given ops, name ∈ (after ops).taken ∧ name ∉ Scope.ownMembers) ∧
      (∀ op name, ((after ops).perform op).1 = some name →
        name ∉ (after ops).taken ∧ name ∈ (after (ops ++ [op])).taken) ∧
      ∀ candidates,
        ((after ops).claim candidates).1 ∉ (after ops).held ∧
        ∀ base, candidates.getLast? = some base →
          (∀ c ∈ candidates, c ∈ (after ops).taken ∨ c ∈ (after ops).held) →
          ((after ops).claim candidates).1 = numbered base ((after ops).firstFree base 2) ∧
          IsLeast {n | 2 ≤ n ∧ numbered base n ∉ (after ops).taken ∧
            numbered base n ∉ (after ops).held} ((after ops).firstFree base 2) := by
  have hsound : (after ops).Sound := sound_new.performAll ops
  obtain ⟨hnodup, hfresh⟩ := sound_new.performAll_fresh ops
  refine ⟨hsound.held_free, ⟨hnodup, fun name hname => ⟨?_, hfresh name hname⟩⟩, ?_, ?_⟩
  · rw [after, taken_performAll]
    exact List.mem_append_left _ (List.mem_reverse.mpr hname)
  · intro op name hname
    refine ⟨hsound.perform_fresh hname, ?_⟩
    rw [after_concat, taken_perform, hname]
    exact List.mem_append_left _ List.mem_cons_self
  · intro candidates
    refine ⟨(claim_fresh _ candidates).2, fun base hlast hused => ?_⟩
    have hnone : ∀ c ∈ candidates, (after ops).isFree c = false := by
      intro c hc
      rw [Bool.eq_false_iff, ne_eq, isFree_iff]
      have hc := hused c hc
      tauto
    obtain ⟨hle, hfree, hleast⟩ := firstFree_spec (after ops) base 2
    refine ⟨claim_of_none_free hlast hnone, ⟨hle, isFree_iff.mp hfree⟩, ?_⟩
    rintro n ⟨hn, hnFree⟩
    by_contra hless
    have hused := hleast n hn (by omega)
    rw [isFree_iff.mpr hnFree] at hused
    cases hused

/-- A name is held, numbered around, and given to its owner; the next one to ask
is numbered as well. -/
def heldOperations : List Operation :=
  [.hold "owner", .hold "owner2", .claim ["owner"], .claimHeld ["owner", "owner_"]]

/-- The numbers go past a name that is held. -/
theorem names_given_once_held :
    given heldOperations = ["owner3", "owner"] ∧ (given heldOperations).Nodup ∧
      ((after heldOperations).claim ["owner"]).1 = "owner4" ∧
      (after heldOperations).firstFree "owner" 2 = 4 := by
  have hgiven : given heldOperations = ["owner3", "owner"] := by decide +kernel
  have hclaim : ((after heldOperations).claim ["owner"]).1 = "owner4" := by decide +kernel
  obtain ⟨-, ⟨hnodup, -⟩, -, hclaims⟩ := names_given_once heldOperations
  obtain ⟨hnumbered, -⟩ := (hclaims ["owner"]).2 "owner" rfl (by decide +kernel)
  have hnumber : numbered "owner" ((after heldOperations).firstFree "owner" 2) =
      numbered "owner" 4 := hnumbered.symm.trans hclaim
  exact ⟨hgiven, hnodup, hclaim, numbered_injective "owner" hnumber⟩

end Runs

end Registry

end AbiBindings.Interface
