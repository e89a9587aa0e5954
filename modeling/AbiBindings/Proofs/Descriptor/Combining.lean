import AbiBindings.Descriptor.Combine
import AbiBindings.Proofs.FirstAppearance
import AbiBindings.Proofs.Sequencing
import Mathlib.Data.List.Pairwise

/-!
# Which descriptors combine

A parameter that several functions share collects their descriptors one by
one.  As long as every descriptor is told apart by its guard from all others
(`ToldApart`), what is collected is a list of members, and combining it with
one more descriptor is to accept that descriptor behind the members
(`combine_ofMembers`): a descriptor that is there already changes nothing, one
whose guard is new is appended, and one whose guard another member has is a
conflict with that member (`accept_singleton_eq_ok`,
`accept_singleton_eq_error`).
-/

namespace AbiBindings

/-- Two guards that both tell something overlap only when they are equal. -/
theorem Guard.overlaps_iff {g h : Guard} (hg : g ≠ .any) (hh : h ≠ .any) :
    g.overlaps h = true ↔ g = h := by
  simp [overlaps, hg, hh]

namespace Descriptor

/-- The guard of each descriptor tells something and differs from those of the
others. -/
structure ToldApart (ds : List Descriptor) : Prop where
  plain : ∀ d ∈ ds, d.guard ≠ .any
  apart : ds.Pairwise fun d e => d.guard ≠ e.guard

/-- Two different members have different guards. -/
theorem ToldApart.guard_ne {ds : List Descriptor} (h : ToldApart ds) {d e : Descriptor}
    (hd : d ∈ ds) (he : e ∈ ds) (hne : d ≠ e) : d.guard ≠ e.guard :=
  haveI : Std.Symm fun d e : Descriptor => d.guard ≠ e.guard := ⟨fun _ _ => Ne.symm⟩
  h.apart.forall hd he hne

/-- A descriptor whose guard tells something is its own only member. -/
theorem members_of_guard_ne_any {d : Descriptor} (h : d.guard ≠ .any) : d.members = [d] := by
  cases d <;> simp_all [members, guard]

/-- The members of a descriptor are those that it was made of. -/
theorem members_ofMembers {ds : List Descriptor} (h : ToldApart ds) :
    (ofMembers ds).members = ds := by
  match ds with
  | [] => rfl
  | [d] => exact members_of_guard_ne_any (h.plain d List.mem_cons_self)
  | _ :: _ :: _ => rfl

section Accept

variable {function parameter : String}

/-- Candidates are accepted one after the other. -/
theorem accept_append (accepted ds es : List Descriptor) :
    accept function parameter accepted (ds ++ es) =
      accept function parameter accepted ds >>= fun all =>
        accept function parameter all es := by
  induction ds generalizing accepted with
  | nil => rfl
  | cons d rest ih =>
      by_cases hmem : d ∈ accepted
      · simpa [accept, hmem] using ih accepted
      · cases hfind : accepted.find? fun m => m.guard.overlaps d.guard with
        | some clash => simp [accept, hmem, hfind, bind, Except.bind]
        | none => simpa [accept, hmem, hfind] using ih (accepted ++ [d])

/-- No member of a list that is told apart overlaps a descriptor with a guard
of its own. -/
private theorem find?_overlaps_eq_none {accepted : List Descriptor} {d : Descriptor}
    (h : ToldApart accepted) (hd : d.guard ≠ .any)
    (hnew : ∀ e ∈ accepted, e.guard ≠ d.guard) :
    accepted.find? (fun m => m.guard.overlaps d.guard) = none := by
  apply List.find?_eq_none.mpr
  intro e he hoverlap
  exact hnew e he ((Guard.overlaps_iff (h.plain e he) hd).mp hoverlap)

/-- Descriptors that are told apart are all accepted. -/
theorem accept_of_toldApart {accepted ds : List Descriptor} (h : ToldApart (accepted ++ ds)) :
    accept function parameter accepted ds = .ok (accepted ++ ds) := by
  induction ds generalizing accepted with
  | nil => simp [accept]
  | cons d rest ih =>
      have hacc : ToldApart accepted :=
        ⟨fun e he => h.plain e (List.mem_append_left _ he), (List.pairwise_append.mp h.apart).1⟩
      have hd : d.guard ≠ .any := h.plain d (List.mem_append_right _ List.mem_cons_self)
      have hnew : ∀ e ∈ accepted, e.guard ≠ d.guard := fun e he =>
        (List.pairwise_append.mp h.apart).2.2 e he d List.mem_cons_self
      have hmem : d ∉ accepted := fun hd' => hnew d hd' rfl
      have hrest : ToldApart ((accepted ++ [d]) ++ rest) := by simpa using h
      simp only [accept, hmem, if_false, find?_overlaps_eq_none hacc hd hnew, ih hrest]
      simp

variable {ds : List Descriptor} {d : Descriptor}

/-- **Combining.**  To combine what was collected with one more descriptor is
to accept that descriptor behind the members. -/
theorem combine_ofMembers (h : ToldApart ds) (hd : d.guard ≠ .any) :
    combine function parameter (ofMembers ds) d =
      ofMembers <$> accept function parameter ds [d] := by
  by_cases heq : ofMembers ds = d
  · have hsingle : ds = [d] := by
      rw [← members_ofMembers h, heq, members_of_guard_ne_any hd]
    subst hsingle
    simp [combine, ofMembers, accept, Functor.map, Except.map]
  · have hall : accept function parameter [] ds = .ok ds := accept_of_toldApart h
    rw [combine, if_neg heq, members_ofMembers h, members_of_guard_ne_any hd, accept_append, hall]
    rfl

/-- A descriptor is accepted when no other member has its guard. -/
theorem accept_singleton_eq_ok (h : ToldApart ds) (hd : d.guard ≠ .any)
    {next : List Descriptor} :
    accept function parameter ds [d] = .ok next ↔
      (∀ e ∈ ds, e ≠ d → e.guard ≠ d.guard) ∧ next = if d ∈ ds then ds else ds ++ [d] := by
  by_cases hmem : d ∈ ds
  · have hapart : ∀ e ∈ ds, e ≠ d → e.guard ≠ d.guard := fun e he hne => h.guard_ne he hmem hne
    simp only [accept, hmem, if_true, Except.ok.injEq, eq_comm (a := ds)]
    exact ⟨fun hnext => ⟨hapart, hnext⟩, fun hall => hall.2⟩
  · cases hfind : ds.find? fun m => m.guard.overlaps d.guard with
    | some clash =>
        have hclash := List.mem_of_find?_eq_some hfind
        have hguard : clash.guard = d.guard :=
          (Guard.overlaps_iff (h.plain clash hclash) hd).mp (by simpa using List.find?_some hfind)
        simp only [accept, hmem, if_false, hfind, reduceCtorEq, false_iff]
        intro hall
        exact hall.1 clash hclash (fun heq => hmem (heq ▸ hclash)) hguard
    | none =>
        have hnew : ∀ e ∈ ds, e ≠ d → e.guard ≠ d.guard := by
          intro e he _ hguard
          have hoverlap := List.find?_eq_none.mp hfind e he
          exact hoverlap ((Guard.overlaps_iff (h.plain e he) hd).mpr hguard)
        simp only [accept, hmem, if_false, hfind, Except.ok.injEq, eq_comm (a := ds ++ [d])]
        exact ⟨fun hnext => ⟨hnew, hnext⟩, fun hall => hall.2⟩

/-- What is not accepted has the guard of another member. -/
theorem accept_singleton_eq_error (h : ToldApart ds) (hd : d.guard ≠ .any) {fault : Fault}
    (herror : accept function parameter ds [d] = .error fault) :
    ∃ e ∈ ds, e ≠ d ∧ e.guard = d.guard ∧ fault = .typeConflict function parameter e d := by
  by_cases hmem : d ∈ ds
  · simp [accept, hmem] at herror
  · cases hfind : ds.find? fun m => m.guard.overlaps d.guard with
    | none => simp [accept, hmem, hfind] at herror
    | some clash =>
        have hclash := List.mem_of_find?_eq_some hfind
        refine ⟨clash, hclash, fun heq => hmem (heq ▸ hclash), ?_, ?_⟩
        · exact (Guard.overlaps_iff (h.plain clash hclash) hd).mp
            (by simpa using List.find?_some hfind)
        · simpa [accept, hmem, hfind] using herror.symm

end Accept

end Descriptor

end AbiBindings
