import AbiBindings.Proofs.Freshness
import AbiBindings.Proofs.Interface.Groups

/-!
# Member names are handed out once

The invariant of a registry is `Registry.Sound`: a name that is kept for its
owner is kept once, and no member has it.  Serving one request gives a name
that no member had and keeps the invariant (`Sound.serve_not_mem`,
`Sound.serve`), so a whole run names all members apart from each other and from
the members that every class has (`memberNames_nodup`).  What is named is untouched by it:
functions and events come out in grouped order (`memberNames_functions`,
`memberNames_events`).
-/

namespace AbiBindings.Interface

namespace Registry

/-- Names are kept once, and only names that no member has. -/
structure Sound (r : Registry) : Prop where
  held_nodup : r.held.Nodup
  held_free : ∀ name ∈ r.held, name ∉ r.taken

/-- A free name is neither taken nor kept. -/
theorem isFree_iff {r : Registry} {name : String} :
    r.isFree name = true ↔ name ∉ r.taken ∧ name ∉ r.held := by
  simp [isFree]

/-- Some number behind a name makes it free, and the search finds the first one
from 2 on. -/
theorem freeNumber_spec (r : Registry) (base : String) :
    2 ≤ r.freeNumber base ∧ r.isFree (numbered base (r.freeNumber base)) = true ∧
      ∀ n, 2 ≤ n → n < r.freeNumber base → r.isFree (numbered base n) = false := by
  have hinj : Function.Injective fun k => numbered base (k + 2) := by
    intro j k h
    have hsum := numbered_injective base h
    omega
  obtain ⟨k, hk, hfree⟩ := exists_lt_not_mem hinj (r.taken ++ r.held)
  have hk' : k < r.taken.length + r.held.length + 1 := by simpa using hk
  have hnumber : r.freeNumber base =
      ((List.range (r.taken.length + r.held.length + 1)).find?
        fun k => r.isFree (numbered base (k + 2))).getD 0 + 2 := by
    simp only [freeNumber, List.find?_map, Function.comp_def]
    cases (List.range _).find? fun k => r.isFree (numbered base (k + 2)) <;> rfl
  rw [hnumber]
  obtain ⟨hfound, hleast⟩ := find?_range_getD 0 hk'
    (p := fun k => r.isFree (numbered base (k + 2))) (by simpa [isFree_iff] using hfree)
  refine ⟨Nat.le_add_left _ _, hfound, fun n hn hless => ?_⟩
  obtain ⟨m, rfl⟩ := Nat.exists_eq_add_of_le' hn
  exact hleast m (by omega)

theorem isFree_freeNumber (r : Registry) (base : String) :
    r.isFree (numbered base (r.freeNumber base)) = true :=
  (freeNumber_spec r base).2.1

/-- A claim is given a free name. -/
theorem isFree_choose (r : Registry) (candidates : List String) :
    r.isFree (r.choose candidates) = true := by
  unfold choose
  cases hfind : candidates.find? r.isFree with
  | none => exact isFree_freeNumber r _
  | some name => exact List.find?_some hfind

/-- A claim is given a name that is neither taken nor kept. -/
theorem claim_fresh (r : Registry) (candidates : List String) :
    (r.claim candidates).1 ∉ r.taken ∧ (r.claim candidates).1 ∉ r.held :=
  isFree_iff.mp (isFree_choose r candidates)

/-- Owners are given the name that was kept for them, and others claim one. -/
theorem claimHeld_cases (r : Registry) (candidates : List String) :
    (∃ first ∈ r.held, r.claimHeld candidates =
      (first, ⟨first :: r.taken, r.held.erase first⟩)) ∨
    r.claimHeld candidates = r.claim candidates := by
  match candidates with
  | [] => exact .inr rfl
  | first :: rest =>
      by_cases hheld : first ∈ r.held
      · exact .inl ⟨first, hheld, by simp [claimHeld, hheld]⟩
      · exact .inr (by simp [claimHeld, hheld])

theorem taken_claimHeld (r : Registry) (candidates : List String) :
    (r.claimHeld candidates).2.taken = (r.claimHeld candidates).1 :: r.taken := by
  rcases claimHeld_cases r candidates with ⟨first, -, heq⟩ | heq <;> rw [heq]
  rfl

/-- Keeping a name takes none. -/
theorem taken_hold (r : Registry) (name : String) : (r.hold name).taken = r.taken := by
  unfold hold
  split <;> rfl

theorem Sound.hold {r : Registry} (h : r.Sound) (name : String) : (r.hold name).Sound := by
  unfold Registry.hold
  split
  case isFalse => exact h
  case isTrue hfree =>
    obtain ⟨htaken, hheld⟩ := isFree_iff.mp hfree
    refine ⟨List.nodup_cons.mpr ⟨hheld, h.held_nodup⟩, ?_⟩
    intro n hn
    rcases List.mem_cons.mp hn with rfl | hn
    · exact htaken
    · exact h.held_free n hn

theorem Sound.claim {r : Registry} (h : r.Sound) (candidates : List String) :
    (r.claim candidates).2.Sound := by
  refine ⟨h.held_nodup, ?_⟩
  intro n hn hmem
  rcases List.mem_cons.mp hmem with rfl | hmem
  · exact (claim_fresh r candidates).2 hn
  · exact h.held_free n hn hmem

theorem Sound.claimHeld {r : Registry} (h : r.Sound) (candidates : List String) :
    (r.claimHeld candidates).2.Sound := by
  rcases claimHeld_cases r candidates with ⟨first, hfirst, heq⟩ | heq
  case inr => simpa [heq] using h.claim candidates
  case inl =>
    rw [heq]
    refine ⟨h.held_nodup.erase first, ?_⟩
    intro n hn hmem
    rcases List.mem_cons.mp hmem with rfl | hmem
    · exact (List.Nodup.not_mem_erase h.held_nodup) hn
    · exact h.held_free n (List.mem_of_mem_erase hn) hmem

theorem Sound.claimHeld_fresh {r : Registry} (h : r.Sound) (candidates : List String) :
    (r.claimHeld candidates).1 ∉ r.taken := by
  rcases claimHeld_cases r candidates with ⟨first, hfirst, heq⟩ | heq <;> rw [heq]
  · exact h.held_free first hfirst
  · exact (claim_fresh r candidates).1

/-- **Step.**  Serving a request keeps the registry sound. -/
theorem Sound.serve {r : Registry} (h : r.Sound) (request : NameRequest) :
    (r.serve request).2.Sound := by
  cases request with
  | own plain mangled => exact h.claimHeld [plain, mangled]
  | mangled name => exact h.claim [name]

/-- **Step.**  No member had the name that a request is given. -/
theorem Sound.serve_not_mem {r : Registry} (h : r.Sound) (request : NameRequest) :
    (r.serve request).1 ∉ r.taken := by
  cases request with
  | own plain mangled => exact h.claimHeld_fresh [plain, mangled]
  | mangled name => exact (claim_fresh r [name]).1

/-- **Step.**  The name that a request is given is taken from then on, and no
other. -/
theorem taken_serve (r : Registry) (request : NameRequest) :
    (r.serve request).2.taken = (r.serve request).1 :: r.taken := by
  cases request with
  | own plain mangled => exact taken_claimHeld r [plain, mangled]
  | mangled name => rfl

section Run

variable {α : Type}

/-- A run names what it is asked to name, in order. -/
theorem snd_serveAll (r : Registry) (requests : List (NameRequest × α)) :
    (r.serveAll requests).1.map Prod.snd = requests.map Prod.snd := by
  induction requests generalizing r with
  | nil => rfl
  | cons request rest ih => simp [serveAll, ih]

/-- A run takes the names that it hands out. -/
theorem mem_taken_serveAll (r : Registry) (requests : List (NameRequest × α))
    (name : String) :
    name ∈ (r.serveAll requests).2.taken ↔
      name ∈ r.taken ∨ name ∈ (r.serveAll requests).1.map Prod.fst := by
  induction requests generalizing r with
  | nil => simp [serveAll]
  | cons request rest ih =>
      simp only [serveAll, ih, taken_serve, List.map_cons, List.mem_cons]
      constructor
      · intro hall
        rcases hall with (h | h) | h
        · exact .inr (.inl h)
        · exact .inl h
        · exact .inr (.inr h)
      · intro hall
        rcases hall with h | h | h
        · exact .inl (.inr h)
        · exact .inl (.inl h)
        · exact .inr h

theorem Sound.serveAll {r : Registry} (h : r.Sound) (requests : List (NameRequest × α)) :
    (r.serveAll requests).2.Sound := by
  induction requests generalizing r with
  | nil => exact h
  | cons request rest ih => exact ih (h.serve request.1)

/-- **Run.**  The names of a run are pairwise distinct, and none of them was
taken before. -/
theorem Sound.serveAll_fresh {r : Registry} (h : r.Sound)
    (requests : List (NameRequest × α)) :
    ((r.serveAll requests).1.map Prod.fst).Nodup ∧
      ∀ name ∈ (r.serveAll requests).1.map Prod.fst, name ∉ r.taken := by
  induction requests generalizing r with
  | nil => simp [Registry.serveAll]
  | cons request rest ih =>
      obtain ⟨hnodup, hfresh⟩ := ih (h.serve request.1)
      simp only [Registry.serveAll, List.map_cons, List.nodup_cons, List.mem_cons,
        forall_eq_or_imp]
      refine ⟨⟨?_, hnodup⟩, h.serve_not_mem request.1, ?_⟩
      · intro hmem
        exact hfresh _ hmem (by simp [taken_serve])
      · intro name hname htaken
        exact hfresh name hname (by simp [taken_serve, htaken])

end Run

theorem Sound.holdAll {r : Registry} (h : r.Sound) (requests : List NameRequest) :
    (r.holdAll requests).Sound := by
  induction requests generalizing r with
  | nil => exact h
  | cons request rest ih =>
      cases request with
      | own plain mangled => exact ih (h.hold plain)
      | mangled name => exact ih h

theorem taken_holdAll (r : Registry) (requests : List NameRequest) :
    (r.holdAll requests).taken = r.taken := by
  induction requests generalizing r with
  | nil => rfl
  | cons request rest ih =>
      cases request with
      | own plain mangled => simpa [holdAll, taken_hold] using ih (r.hold plain)
      | mangled name => simpa [holdAll] using ih r

/-- Nothing is kept in a new registry. -/
theorem sound_new : new.Sound := ⟨List.nodup_nil, by simp [new]⟩

end Registry

section Members

variable (policy : Policy) (entries : List Abi.Entry)

/-- The methods to be named, group by group. -/
def methodRequests : List MethodPlan :=
  (NameGroup.group Abi.Function.name (Abi.namedFunctions entries)).flatMap (methodPlans policy)

/-- The subscriptions to be named, group by group. -/
def eventRequests : List (NameRequest × Abi.Event) :=
  (NameGroup.group Abi.Event.name (Abi.namedEvents entries)).flatMap
    (eventPlans ((NameGroup.group Abi.Function.name (Abi.namedFunctions entries)).map (·.name)))

/-- The registry that has the names of all owners and has named no member. -/
def openRegistry : Registry :=
  Registry.new.holdAll
    ((methodRequests policy entries).map (·.1) ++ (eventRequests entries).map (·.1))

/-- The methods are named first and the subscriptions after them. -/
theorem memberNames_eq :
    memberNames policy entries =
      (((openRegistry policy entries).serveAll (methodRequests policy entries)).1,
        (((openRegistry policy entries).serveAll (methodRequests policy entries)).2.serveAll
          (eventRequests entries)).1) :=
  rfl

/-- **Member names.**  The members of a class have pairwise distinct names,
and none of them is the name of a member that every class has. -/
theorem memberNames_nodup :
    ((memberNames policy entries).1.map Prod.fst ++
        (memberNames policy entries).2.map Prod.fst).Nodup ∧
      ∀ name ∈ (memberNames policy entries).1.map Prod.fst ++
          (memberNames policy entries).2.map Prod.fst,
        name ∉ Scope.ownMembers := by
  rw [memberNames_eq]
  have hopen : (openRegistry policy entries).Sound := Registry.sound_new.holdAll _
  have htaken : (openRegistry policy entries).taken = Scope.ownMembers :=
    Registry.taken_holdAll _ _
  obtain ⟨hmethods, hmethodsFresh⟩ := hopen.serveAll_fresh (methodRequests policy entries)
  obtain ⟨hevents, heventsFresh⟩ :=
    (hopen.serveAll (methodRequests policy entries)).serveAll_fresh (eventRequests entries)
  rw [htaken] at hmethodsFresh
  constructor
  · refine List.nodup_append.mpr ⟨hmethods, hevents, ?_⟩
    intro name hname _ hevent heq
    subst heq
    exact heventsFresh name hevent
      ((Registry.mem_taken_serveAll _ _ _).mpr (.inr hname))
  · intro name hname
    rcases List.mem_append.mp hname with hname | hname
    · exact hmethodsFresh name hname
    · intro hown
      exact heventsFresh name hname
        ((Registry.mem_taken_serveAll _ _ _).mpr (.inl (htaken ▸ hown)))

/-- The named functions come out in grouped order, each once. -/
theorem memberNames_functions :
    ((memberNames policy entries).1.flatMap fun m => m.2.items) =
      groupedBy (fun f => baseName f.name) (Abi.namedFunctions entries) := by
  have hsnd := Registry.snd_serveAll (openRegistry policy entries)
    (methodRequests policy entries)
  calc ((memberNames policy entries).1.flatMap fun m => m.2.items)
      = ((memberNames policy entries).1.map Prod.snd).flatMap NameGroup.items := by
        rw [List.flatMap_map]
    _ = ((methodRequests policy entries).map Prod.snd).flatMap NameGroup.items := by
        rw [memberNames_eq, hsnd]
    _ = (NameGroup.group Abi.Function.name (Abi.namedFunctions entries)).flatMap
          NameGroup.items := by
        simp only [methodRequests, List.flatMap_map, List.flatMap_assoc, items_methodPlans]
    _ = groupedBy (fun f => baseName f.name) (Abi.namedFunctions entries) :=
        NameGroup.flatMap_items_group _ _

/-- The named events come out in grouped order, each once. -/
theorem memberNames_events :
    (memberNames policy entries).2.map Prod.snd =
      groupedBy (fun e => baseName e.name) (Abi.namedEvents entries) := by
  rw [memberNames_eq, Registry.snd_serveAll, eventRequests, List.map_flatMap]
  simp only [items_eventPlans]
  exact NameGroup.flatMap_items_group _ _

end Members

end AbiBindings.Interface
