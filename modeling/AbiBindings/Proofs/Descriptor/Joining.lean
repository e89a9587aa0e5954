import AbiBindings.Proofs.Descriptor.Combining
import Mathlib.Data.List.Perm.Basic

/-!
# Combining is a partial join

Descriptors that are no unions, and unions that combining makes of them, are
`Flat`: their members are distinct, and their guards tell any two of them
apart.  On flat descriptors the order of combining matters little.  Two of
them combine exactly when the guards tell apart any two different members of
both (`Compatible`), which says nothing of an order, and the result lists the
members of the first and then the new ones of the second (`combine_eq_ok`).
A conflict is between a member of the first and one of the second
(`combine_eq_error`).

The laws of a join follow from these two: commutative up to the order of the
members, associative, idempotent and absorbing (`combine_partial_join`).
Other than in `Combining`, a descriptor may be generic here; its guard overlaps
every other, so it combines with itself only.
-/

namespace AbiBindings

theorem Guard.overlaps_comm (g h : Guard) : g.overlaps h = h.overlaps g := by
  cases g <;> cases h <;> rfl

namespace Descriptor

/-- Whether the descriptor is a union. -/
def isUnion : Descriptor → Bool
  | .union _ => true
  | _ => false

/-- Descriptors that are no unions, and unions of two or more different ones
whose guards do not overlap. -/
inductive Flat : Descriptor → Prop
  | single {d : Descriptor} (hd : d.isUnion = false) : Flat d
  | union {ms : List Descriptor} (htwo : 2 ≤ ms.length) (hplain : ∀ m ∈ ms, m.isUnion = false)
      (hnodup : ms.Nodup) (hapart : ms.Pairwise fun d e => d.guard.overlaps e.guard = false) :
      Flat (.union ms)

/-- The guards of any two different ones do not overlap. -/
def Compatible (ds : List Descriptor) : Prop :=
  ∀ d ∈ ds, ∀ e ∈ ds, d ≠ e → d.guard.overlaps e.guard = false

namespace Compatible

variable {ds es : List Descriptor}

/-- Neither order nor repetition matters. -/
theorem of_subset (h : Compatible ds) (hsub : es ⊆ ds) : Compatible es :=
  fun d hd e he => h d (hsub hd) e (hsub he)

theorem congr (hmem : ∀ d, d ∈ ds ↔ d ∈ es) : Compatible ds ↔ Compatible es :=
  ⟨fun h => h.of_subset fun d hd => (hmem d).mpr hd,
    fun h => h.of_subset fun d hd => (hmem d).mp hd⟩

/-- One more descriptor is compatible when its guard overlaps no other. -/
theorem concat (h : Compatible ds) {d : Descriptor}
    (hd : ∀ e ∈ ds, e.guard.overlaps d.guard = false) : Compatible (ds ++ [d]) := by
  intro x hx y hy hne
  rw [List.mem_append, List.mem_singleton] at hx hy
  rcases hx with hx | rfl <;> rcases hy with hy | rfl
  · exact h x hx y hy hne
  · exact hd x hx
  · rw [Guard.overlaps_comm]
    exact hd y hy
  · exact absurd rfl hne

end Compatible

/-- A descriptor that is no union is its own only member. -/
theorem members_of_not_union {d : Descriptor} (h : d.isUnion = false) : d.members = [d] := by
  cases d <;> simp_all [members, isUnion]

section Members

variable {ms : List Descriptor}

/-- The members of what is made of descriptors that are no unions are these. -/
theorem members_ofMembers_of_plain (hplain : ∀ m ∈ ms, m.isUnion = false) :
    (ofMembers ms).members = ms := by
  match ms with
  | [] => rfl
  | [d] => exact members_of_not_union (hplain d List.mem_cons_self)
  | _ :: _ :: _ => rfl

/-- Compatible descriptors that are no unions make a flat one. -/
theorem flat_ofMembers (hsome : ms ≠ []) (hplain : ∀ m ∈ ms, m.isUnion = false)
    (hnodup : ms.Nodup) (hcompatible : Compatible ms) : Flat (ofMembers ms) := by
  match ms, hsome with
  | [d], _ => exact .single (hplain d List.mem_cons_self)
  | d :: e :: rest, _ =>
      exact .union (by simp) hplain hnodup
        (hnodup.imp_of_mem fun hx hy hne => hcompatible _ hx _ hy hne)

end Members

namespace Flat

variable {d : Descriptor} (h : d.Flat)
include h

theorem not_union_of_mem : ∀ m ∈ d.members, m.isUnion = false := by
  cases h with
  | single hd => simpa [members_of_not_union hd] using hd
  | union _ hplain => exact hplain

theorem nodup : d.members.Nodup := by
  cases h with
  | single hd => simp [members_of_not_union hd]
  | union _ _ hnodup => exact hnodup

theorem compatible : Compatible d.members := by
  cases h with
  | single hd =>
      rw [members_of_not_union hd]
      intro x hx y hy hne
      exact absurd ((List.mem_singleton.mp hx).trans (List.mem_singleton.mp hy).symm) hne
  | union _ _ _ hapart =>
      intro x hx y hy hne
      have : Std.Symm fun d e : Descriptor => d.guard.overlaps e.guard = false :=
        ⟨fun d e hde => (Guard.overlaps_comm e.guard d.guard).trans hde⟩
      exact hapart.forall hx hy hne

theorem members_ne_nil : d.members ≠ [] := by
  cases h with
  | single hd => simp [members_of_not_union hd]
  | union htwo =>
      rintro rfl
      simp at htwo

/-- A flat descriptor is made of its members. -/
theorem ofMembers_members : ofMembers d.members = d := by
  cases h with
  | single hd => rw [members_of_not_union hd, ofMembers]
  | @union ms htwo =>
      rcases ms with _ | ⟨first, _ | ⟨second, rest⟩⟩
      · simp at htwo
      · simp at htwo
      · rfl

end Flat

/-- The descriptors of `ds` and then those of `es` that are new. -/
def extended (ds es : List Descriptor) : List Descriptor :=
  ds ++ es.filter (· ∉ ds)

section Extended

variable {ds es fs : List Descriptor}

theorem mem_extended {d : Descriptor} : d ∈ extended ds es ↔ d ∈ ds ∨ d ∈ es := by
  by_cases hd : d ∈ ds <;> simp [extended, hd]

theorem nodup_extended (hds : ds.Nodup) (hes : es.Nodup) : (extended ds es).Nodup :=
  hds.append (hes.filter _) fun d hd hnew => by simp [hd] at hnew

theorem compatible_extended : Compatible (extended ds es) ↔ Compatible (ds ++ es) :=
  Compatible.congr fun d => by rw [mem_extended, List.mem_append]

theorem extended_of_subset (h : es ⊆ ds) : extended ds es = ds := by
  have hnone : es.filter (· ∉ ds) = [] := by
    rw [List.filter_eq_nil_iff]
    intro d hd hnew
    exact absurd (h hd) (by simpa using hnew)
  rw [extended, hnone, List.append_nil]

/-- What is new in two lists together is new in the first of them, or new in the
second and not in the first. -/
theorem extended_assoc : extended (extended ds es) fs = extended ds (extended es fs) := by
  have hfilter : fs.filter (· ∉ extended ds es) = (fs.filter (· ∉ es)).filter (· ∉ ds) := by
    rw [List.filter_filter]
    apply List.filter_congr
    intro d _
    simp only [mem_extended, not_or, Bool.decide_and]
  rw [extended, hfilter, extended, extended, extended, List.filter_append, List.append_assoc]

/-- In either order the same descriptors are listed. -/
theorem extended_perm (hds : ds.Nodup) (hes : es.Nodup) :
    (extended ds es).Perm (extended es ds) := by
  rw [List.perm_ext_iff_of_nodup (nodup_extended hds hes) (nodup_extended hes hds)]
  intro d
  rw [mem_extended, mem_extended, or_comm]

end Extended

section Accept

variable {function parameter : String} {accepted ds : List Descriptor}

/-- **Step.**  Distinct candidates are accepted when all are compatible, and the
new ones are appended. -/
theorem accept_eq_ok (haccepted : Compatible accepted) (hnodup : ds.Nodup)
    {all : List Descriptor} :
    accept function parameter accepted ds = .ok all ↔
      Compatible (accepted ++ ds) ∧ all = extended accepted ds := by
  induction ds generalizing accepted with
  | nil => simp [accept, haccepted, extended, eq_comm]
  | cons d rest ih =>
      obtain ⟨hfresh, hrest⟩ := List.nodup_cons.mp hnodup
      by_cases hmem : d ∈ accepted
      · have hsame : Compatible (accepted ++ rest) ↔ Compatible (accepted ++ d :: rest) :=
          Compatible.congr fun x => by
            simp only [List.mem_append, List.mem_cons]
            constructor
            · exact .imp_right .inr
            · rintro (hx | rfl | hx)
              exacts [.inl hx, .inl hmem, .inr hx]
        simp [accept, hmem, ih haccepted hrest, hsame, extended]
      · cases hfind : accepted.find? fun m => m.guard.overlaps d.guard with
        | some clash =>
            have hclash := List.mem_of_find?_eq_some hfind
            have hoverlap : clash.guard.overlaps d.guard = true := by
              simpa using List.find?_some hfind
            simp only [accept, hmem, if_false, hfind, reduceCtorEq, false_iff]
            intro hall
            have happart := hall.1 clash (by simp [hclash]) d (by simp)
              (fun heq => hmem (heq ▸ hclash))
            exact absurd (hoverlap.symm.trans happart) (by decide)
        | none =>
            have hnew : Compatible (accepted ++ [d]) := haccepted.concat fun e he => by
              simpa using List.find?_eq_none.mp hfind e he
            have hextended : extended (accepted ++ [d]) rest = extended accepted (d :: rest) := by
              have hfilter : rest.filter (· ∉ accepted ++ [d]) = rest.filter (· ∉ accepted) := by
                apply List.filter_congr
                intro x hx
                have hne : x ≠ d := fun heq => hfresh (heq ▸ hx)
                simp [hne]
              rw [extended, extended, hfilter, List.filter_cons_of_pos (by simpa using hmem),
                List.append_assoc, List.singleton_append]
            rw [accept, if_neg hmem, hfind]
            simp only [ih hnew hrest, hextended, List.append_assoc, List.singleton_append]

/-- **Step.**  What is not accepted among compatible candidates overlaps a member
that was there before any of them. -/
theorem accept_eq_error {added : List Descriptor} (hcandidates : Compatible (added ++ ds))
    {fault : Fault}
    (herror : accept function parameter (accepted ++ added) ds = .error fault) :
    ∃ d ∈ accepted, ∃ e ∈ ds, d ≠ e ∧ d.guard.overlaps e.guard = true ∧
      fault = .typeConflict function parameter d e := by
  induction ds generalizing added with
  | nil => simp [accept] at herror
  | cons e rest ih =>
      have hlater : ∀ {d : Descriptor},
          (∃ x ∈ rest, d ≠ x ∧ d.guard.overlaps x.guard = true ∧
            fault = .typeConflict function parameter d x) →
          ∃ x ∈ e :: rest, d ≠ x ∧ d.guard.overlaps x.guard = true ∧
            fault = .typeConflict function parameter d x := by
        rintro d ⟨x, hx, hrest⟩
        exact ⟨x, List.mem_cons_of_mem _ hx, hrest⟩
      by_cases hmem : e ∈ accepted ++ added
      · rw [accept, if_pos hmem] at herror
        obtain ⟨d, hd, hclash⟩ := ih (hcandidates.of_subset (by simp)) herror
        exact ⟨d, hd, hlater hclash⟩
      · rw [accept, if_neg hmem] at herror
        cases hfind : (accepted ++ added).find? fun m => m.guard.overlaps e.guard with
        | none =>
            rw [hfind, List.append_assoc] at herror
            obtain ⟨d, hd, hclash⟩ := ih (by simpa using hcandidates) herror
            exact ⟨d, hd, hlater hclash⟩
        | some clash =>
            have hclash := List.mem_of_find?_eq_some hfind
            have hoverlap : clash.guard.overlaps e.guard = true := by
              simpa using List.find?_some hfind
            have hne : clash ≠ e := fun heq => hmem (heq ▸ hclash)
            rw [hfind] at herror
            refine ⟨clash, ?_, e, List.mem_cons_self, hne, hoverlap, (Except.error.inj herror).symm⟩
            -- candidates overlap no other candidate
            refine (List.mem_append.mp hclash).resolve_right fun hadded => ?_
            have hapart := hcandidates clash (by simp [hadded]) e (by simp) hne
            exact absurd (hoverlap.symm.trans hapart) (by decide)

end Accept

section Combine

variable {function parameter : String} {a b c : Descriptor} (ha : a.Flat) (hb : b.Flat)
include ha hb

/-- The result of combining has the members of both. -/
theorem members_joined :
    (ofMembers (extended a.members b.members)).members = extended a.members b.members :=
  members_ofMembers_of_plain fun m hm =>
    (mem_extended.mp hm).elim (ha.not_union_of_mem m) (hb.not_union_of_mem m)

theorem flat_joined (h : Compatible (a.members ++ b.members)) :
    Flat (ofMembers (extended a.members b.members)) := by
  refine flat_ofMembers (by simp [extended, ha.members_ne_nil]) ?_
    (nodup_extended ha.nodup hb.nodup) (compatible_extended.mpr h)
  exact fun m hm => (mem_extended.mp hm).elim (ha.not_union_of_mem m) (hb.not_union_of_mem m)

/-- **Combining.**  Flat descriptors combine when all their members are
compatible. -/
theorem combine_eq_ok {r : Descriptor} :
    combine function parameter a b = .ok r ↔
      Compatible (a.members ++ b.members) ∧ r = ofMembers (extended a.members b.members) := by
  have hfirst : accept function parameter [] a.members = .ok a.members :=
    (accept_eq_ok (by simp [Compatible]) ha.nodup).mpr ⟨ha.compatible, by simp [extended]⟩
  by_cases heq : a = b
  · subst heq
    have hsame : Compatible (a.members ++ a.members) := ha.compatible.of_subset (by simp)
    have hmembers : extended a.members a.members = a.members := extended_of_subset fun _ => id
    simp [combine, hsame, hmembers, ha.ofMembers_members, eq_comm]
  · have hsecond : combine function parameter a b =
        ofMembers <$> accept function parameter a.members b.members := by
      rw [combine, if_neg heq, accept_append, hfirst]
      rfl
    rw [hsecond, map_eq_ok]
    simp only [accept_eq_ok ha.compatible hb.nodup]
    constructor
    · rintro ⟨all, ⟨hcompatible, rfl⟩, rfl⟩
      exact ⟨hcompatible, rfl⟩
    · rintro ⟨hcompatible, rfl⟩
      exact ⟨_, ⟨hcompatible, rfl⟩, rfl⟩

/-- **Conflicts.**  Flat descriptors that do not combine have members that
overlap, one each. -/
theorem combine_eq_error {fault : Fault}
    (herror : combine function parameter a b = .error fault) :
    ∃ d ∈ a.members, ∃ e ∈ b.members, d ≠ e ∧ d.guard.overlaps e.guard = true ∧
      fault = .typeConflict function parameter d e := by
  have hfirst : accept function parameter [] a.members = .ok a.members :=
    (accept_eq_ok (by simp [Compatible]) ha.nodup).mpr ⟨ha.compatible, by simp [extended]⟩
  unfold combine at herror
  split at herror
  · cases herror
  · rw [accept_append, hfirst, map_eq_error] at herror
    have hcandidates : Compatible ([] ++ b.members) := hb.compatible
    apply accept_eq_error hcandidates
    simpa [bind, Except.bind] using herror

/-- Three descriptors combine from the left when the members of all three are
compatible. -/
theorem combine_left_eq_ok (hc : c.Flat) {r : Descriptor} :
    (combine function parameter a b >>= fun d => combine function parameter d c) = .ok r ↔
      Compatible (a.members ++ b.members ++ c.members) ∧
        r = ofMembers (extended (extended a.members b.members) c.members) := by
  have hmembers : Compatible (extended a.members b.members ++ c.members) ↔
      Compatible (a.members ++ b.members ++ c.members) :=
    Compatible.congr fun d => by simp [mem_extended, or_assoc]
  rw [bind_eq_ok]
  constructor
  · rintro ⟨ab, hab, hr⟩
    obtain ⟨hcompatible, rfl⟩ := (combine_eq_ok ha hb).mp hab
    rw [combine_eq_ok (flat_joined ha hb hcompatible) hc, members_joined ha hb] at hr
    exact ⟨hmembers.mp hr.1, hr.2⟩
  · rintro ⟨hall, rfl⟩
    have hcompatible : Compatible (a.members ++ b.members) := hall.of_subset (by simp)
    refine ⟨_, (combine_eq_ok ha hb).mpr ⟨hcompatible, rfl⟩, ?_⟩
    rw [combine_eq_ok (flat_joined ha hb hcompatible) hc, members_joined ha hb]
    exact ⟨hmembers.mpr hall, rfl⟩

/-- Three descriptors combine from the right under the same condition, and to
the same members. -/
theorem combine_right_eq_ok (hc : c.Flat) {r : Descriptor} :
    (combine function parameter b c >>= fun d => combine function parameter a d) = .ok r ↔
      Compatible (a.members ++ b.members ++ c.members) ∧
        r = ofMembers (extended a.members (extended b.members c.members)) := by
  have hmembers : Compatible (a.members ++ extended b.members c.members) ↔
      Compatible (a.members ++ b.members ++ c.members) :=
    Compatible.congr fun d => by simp [mem_extended]
  rw [bind_eq_ok]
  constructor
  · rintro ⟨bc, hbc, hr⟩
    obtain ⟨hcompatible, rfl⟩ := (combine_eq_ok hb hc).mp hbc
    rw [combine_eq_ok ha (flat_joined hb hc hcompatible), members_joined hb hc] at hr
    exact ⟨hmembers.mp hr.1, hr.2⟩
  · rintro ⟨hall, rfl⟩
    have hcompatible : Compatible (b.members ++ c.members) := hall.of_subset (by simp)
    refine ⟨_, (combine_eq_ok hb hc).mpr ⟨hcompatible, rfl⟩, ?_⟩
    rw [combine_eq_ok ha (flat_joined hb hc hcompatible), members_joined hb hc]
    exact ⟨hmembers.mpr hall, rfl⟩

/-- Whatever is a member of one of them is there already when the result is
combined with it again. -/
theorem combine_joined_again (h : Compatible (a.members ++ b.members)) (hc : c.Flat)
    (hsub : c.members ⊆ extended a.members b.members) :
    combine function parameter (ofMembers (extended a.members b.members)) c =
      .ok (ofMembers (extended a.members b.members)) := by
  rw [combine_eq_ok (flat_joined ha hb h) hc, members_joined ha hb, extended_of_subset hsub]
  refine ⟨(compatible_extended.mpr h).of_subset fun d hd => ?_, rfl⟩
  exact (List.mem_append.mp hd).elim id (hsub ·)

end Combine

/-- Neither has a value, or both have, with the same members in some order. -/
def SameUpToOrder : Except Fault Descriptor → Except Fault Descriptor → Prop
  | .ok d, .ok e => d.members.Perm e.members
  | .error _, .error _ => True
  | _, _ => False

theorem sameUpToOrder_combine {function parameter : String} {a b : Descriptor} (ha : a.Flat)
    (hb : b.Flat) :
    SameUpToOrder (combine function parameter a b) (combine function parameter b a) := by
  have hok : ∀ {a b : Descriptor}, a.Flat → b.Flat → Compatible (a.members ++ b.members) →
      combine function parameter a b = .ok (ofMembers (extended a.members b.members)) :=
    fun ha hb h => (combine_eq_ok ha hb).mpr ⟨h, rfl⟩
  have hswap : Compatible (a.members ++ b.members) ↔ Compatible (b.members ++ a.members) :=
    Compatible.congr fun d => by simp [or_comm]
  cases hab : combine function parameter a b with
  | ok r =>
      obtain ⟨hcompatible, rfl⟩ := (combine_eq_ok ha hb).mp hab
      rw [hok hb ha (hswap.mp hcompatible), SameUpToOrder, members_joined ha hb,
        members_joined hb ha]
      exact extended_perm ha.nodup hb.nodup
  | error fault =>
      cases hba : combine function parameter b a with
      | ok r =>
          obtain ⟨hcompatible, -⟩ := (combine_eq_ok hb ha).mp hba
          rw [hok ha hb (hswap.mpr hcompatible)] at hab
          cases hab
      | error _ => trivial

/-- **A partial join.**  Flat descriptors combine exactly when the guards tell
apart any two different members.  Then the result is flat, lists the members of
the first and the new ones of the second, and takes in both again without a
change; else two members overlap, one of each.  The order of two does not matter
up to that of members, and that of combining three not at all. -/
theorem combine_partial_join {a b c : Descriptor} (ha : a.Flat) (hb : b.Flat) (hc : c.Flat)
    (function parameter : String) :
    ((∃ r, combine function parameter a b = .ok r) ↔ Compatible (a.members ++ b.members)) ∧
      (∀ r, combine function parameter a b = .ok r →
        r.Flat ∧ r.members = a.members ++ b.members.filter (· ∉ a.members) ∧
          combine function parameter r a = .ok r ∧ combine function parameter r b = .ok r) ∧
      (∀ fault, combine function parameter a b = .error fault →
        ∃ d ∈ a.members, ∃ e ∈ b.members, d ≠ e ∧ d.guard.overlaps e.guard = true ∧
          fault = .typeConflict function parameter d e) ∧
      SameUpToOrder (combine function parameter a b) (combine function parameter b a) ∧
      (∀ r, (combine function parameter a b >>= fun d => combine function parameter d c) = .ok r ↔
        (combine function parameter b c >>= fun d => combine function parameter a d) = .ok r) ∧
      combine function parameter a a = .ok a := by
  refine ⟨?_, ?_, fun fault => combine_eq_error ha hb, sameUpToOrder_combine ha hb, ?_, ?_⟩
  · simp only [combine_eq_ok ha hb, exists_and_left, exists_eq, and_true]
  · intro r hr
    obtain ⟨hcompatible, rfl⟩ := (combine_eq_ok ha hb).mp hr
    exact ⟨flat_joined ha hb hcompatible, members_joined ha hb,
      combine_joined_again ha hb hcompatible ha fun d hd => mem_extended.mpr (.inl hd),
      combine_joined_again ha hb hcompatible hb fun d hd => mem_extended.mpr (.inr hd)⟩
  · intro r
    rw [combine_left_eq_ok ha hb hc, combine_right_eq_ok ha hb hc, extended_assoc]
  · exact if_pos rfl

/-- Two unions that share a member, and an array. -/
theorem combine_partial_join_unions :
    Flat (.union [.integer, .string]) ∧ Flat (.union [.string, .bytes]) ∧
      Flat (.array .integer) ∧ ∃ r,
        combine "transfer" "to" (.union [.integer, .string]) (.union [.string, .bytes]) = .ok r ∧
        r.Flat ∧ r.members = [.integer, .string, .bytes] ∧
        combine "transfer" "to" r (.union [.string, .bytes]) = .ok r ∧
        SameUpToOrder (.ok r)
          (combine "transfer" "to" (.union [.string, .bytes]) (.union [.integer, .string])) := by
  have hfirst : Flat (.union [.integer, .string]) :=
    .union (by decide) (by decide) (by decide) (by decide)
  have hsecond : Flat (.union [.string, .bytes]) :=
    .union (by decide) (by decide) (by decide) (by decide)
  have hthird : Flat (.array .integer) := .single rfl
  obtain ⟨-, hjoin, -, hswap, -⟩ := combine_partial_join hfirst hsecond hthird "transfer" "to"
  have hok : combine "transfer" "to" (.union [.integer, .string]) (.union [.string, .bytes]) =
      .ok (.union [.integer, .string, .bytes]) := rfl
  obtain ⟨hflat, hmembers, -, hagain⟩ := hjoin _ hok
  exact ⟨hfirst, hsecond, hthird, _, hok, hflat, rfl, hagain, hok ▸ hswap⟩

end Descriptor

end AbiBindings
