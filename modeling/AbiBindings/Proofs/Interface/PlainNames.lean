import AbiBindings.Proofs.Interface.Acceptance
import AbiBindings.Proofs.Script.Identifiers

/-!
# Plain members keep their declared names

Before any member is named, the registry keeps the name of every member that
owns one.  A name that is kept stays kept until its owner asks for it
(`Registry.mem_held_serve`), whatever other members are given in between, and
its owner is then given that name (`Registry.serve_of_owned`).  So a run gives
each owner the name that was kept for it, as long as no two of its requests
own one name (`Registry.mem_serveAll_of_owned`).

Each group owns one name at most, and different groups own different names
when their base names are words, which are member names as they are
(`memberName_of_isWord`).  An event owns its name only where no function has
it.
-/

namespace AbiBindings.Interface

open Script

/-- The name that a request asks for as its owner. -/
def NameRequest.owned? : NameRequest → Option String
  | .own plain _ => some plain
  | .mangled _ => none

/-- The names that are asked for by their owners, in order. -/
def ownedNames {α : Type} (requests : List (NameRequest × α)) : List String :=
  requests.filterMap fun q => q.1.owned?

namespace Registry

variable {r : Registry} {name : String}

theorem mem_held_hold {other : String} :
    name ∈ (r.hold other).held ↔ name ∈ r.held ∨ name = other ∧ name ∉ r.taken := by
  unfold hold
  by_cases hfree : r.isFree other
  · obtain ⟨htaken, -⟩ := isFree_iff.mp hfree
    rw [if_pos hfree, List.mem_cons]
    grind
  · have hkept : other ∈ r.taken ∨ other ∈ r.held := by
      by_contra hnone
      exact hfree (isFree_iff.mpr (by simpa using hnone))
    rw [if_neg hfree]
    grind

/-- All names that are asked for by their owners are kept, unless they are
taken. -/
theorem mem_held_holdAll {requests : List NameRequest} :
    name ∈ (r.holdAll requests).held ↔
      name ∈ r.held ∨ name ∈ requests.filterMap NameRequest.owned? ∧ name ∉ r.taken := by
  induction requests generalizing r with
  | nil => simp [holdAll]
  | cons request rest ih =>
      cases request with
      | own plain mangled =>
          simp only [holdAll, ih, mem_held_hold, taken_hold, List.filterMap_cons,
            NameRequest.owned?, List.mem_cons]
          grind
      | mangled other => simpa [holdAll, NameRequest.owned?] using ih

/-- **Step.**  A name is kept until its owner asks for it. -/
theorem mem_held_serve (h : name ∈ r.held) {request : NameRequest}
    (hother : request.owned? ≠ some name) : name ∈ (r.serve request).2.held := by
  cases request with
  | own plain mangled =>
      have hne : name ≠ plain := fun heq => hother (by rw [heq, NameRequest.owned?])
      simp only [serve, claimHeld]
      split
      case isTrue => exact (List.mem_erase_of_ne hne).mpr h
      case isFalse => exact h
  | mangled other => exact h

/-- **Step.**  The owner of a name that is kept is given that name. -/
theorem serve_of_owned (h : name ∈ r.held) {request : NameRequest}
    (howned : request.owned? = some name) : (r.serve request).1 = name := by
  cases request with
  | own plain mangled =>
      obtain rfl : plain = name := by simpa [NameRequest.owned?] using howned
      simp [serve, claimHeld, h]
  | mangled other => cases howned

section Run

variable {α : Type} {requests : List (NameRequest × α)}

/-- **Run.**  A name is kept throughout a run in which its owner does not
ask. -/
theorem mem_held_serveAll (h : name ∈ r.held)
    (hothers : ∀ q ∈ requests, q.1.owned? ≠ some name) :
    name ∈ (r.serveAll requests).2.held := by
  induction requests generalizing r with
  | nil => exact h
  | cons request rest ih =>
      obtain ⟨hrequest, hrest⟩ := List.forall_mem_cons.mp hothers
      exact ih (mem_held_serve h hrequest) hrest

/-- **Run.**  An owner is given the name that was kept for it, wherever it
stands in the run. -/
theorem mem_serveAll_of_owned (h : name ∈ r.held)
    (hnodup : (ownedNames requests).Nodup) {q : NameRequest × α} (hq : q ∈ requests)
    (howned : q.1.owned? = some name) :
    (name, q.2) ∈ (r.serveAll requests).1 := by
  induction requests generalizing r with
  | nil => cases hq
  | cons request rest ih =>
      simp only [serveAll]
      rcases List.mem_cons.mp hq with rfl | hlater
      · rw [serve_of_owned h howned]
        exact List.mem_cons_self
      · have hname : name ∈ ownedNames rest := List.mem_filterMap.mpr ⟨q, hlater, howned⟩
        have hother : request.1.owned? ≠ some name := by
          intro heq
          have hcons : ownedNames (request :: rest) = name :: ownedNames rest :=
            List.filterMap_cons_some heq
          rw [hcons, List.nodup_cons] at hnodup
          exact hnodup.1 hname
        have hrest : (ownedNames rest).Nodup :=
          hnodup.sublist ((List.sublist_cons_self request rest).filterMap _)
        exact List.mem_cons_of_mem _ (ih (mem_held_serve h hother) hrest hlater)

end Run

end Registry

/-- A word names a member as it is, be it reserved or not. -/
theorem memberName_of_isWord {base : String} (h : isWord base.toList = true) :
    memberName base = base := by
  unfold memberName
  split
  case isTrue => rfl
  case isFalse hreserved =>
    rw [safeIdentifier, nearestWord_of_isWord h, String.ofList_toList]
    simp [hreserved]

section Owners

variable {α β : Type}

/-- Where every group owns its member name at most, the names that are owned
stand in the order of the groups. -/
private theorem ownedNames_flatMap {plans : NameGroup α → List (NameRequest × β)}
    (h : ∀ g, (ownedNames (plans g)).Sublist [memberName g.name])
    (groups : List (NameGroup α)) :
    (ownedNames (groups.flatMap plans)).Sublist (groups.map fun g => memberName g.name) := by
  induction groups with
  | nil => exact List.Sublist.slnil
  | cons g rest ih =>
      rw [List.flatMap_cons, ownedNames, List.filterMap_append, List.map_cons]
      exact (h g).append ih

/-- The functions of one name own that name at most. -/
theorem ownedNames_methodPlans (policy : Policy) (g : NameGroup Abi.Function) :
    (ownedNames (methodPlans policy g)).Sublist [memberName g.name] := by
  cases policy with
  | combine => exact List.Sublist.refl _
  | mangle =>
      by_cases hshared : g.isShared
      · simp [ownedNames, methodPlans, hshared, List.filterMap_map, NameRequest.owned?]
      · simp [ownedNames, methodPlans, hshared, NameRequest.owned?]

/-- The events of one name own that name at most. -/
theorem ownedNames_eventPlans (functionNames : List String) (g : NameGroup Abi.Event) :
    (ownedNames (eventPlans functionNames g)).Sublist [memberName g.name] := by
  by_cases hshared : g.isShared
  · simp [ownedNames, eventPlans, hshared, List.filterMap_map, NameRequest.owned?]
  · have halone : g.items = [g.first] := NameGroup.items_of_not_shared (by simpa using hshared)
    simp only [ownedNames, eventPlans, halone, List.map_cons, List.map_nil]
    split
    case isTrue => exact List.nil_sublist _
    case isFalse => exact List.Sublist.refl _

/-- Groups whose base names are words own base names, each once. -/
theorem ownedNames_group {label : α → String} {items : List α}
    (hwords : ∀ a ∈ items, isWord (baseName (label a)).toList = true)
    {plans : NameGroup α → List (NameRequest × β)}
    (h : ∀ g, (ownedNames (plans g)).Sublist [memberName g.name]) :
    (ownedNames ((NameGroup.group label items).flatMap plans)).Sublist
      (items.map fun a => baseName (label a)).eraseDups := by
  have hplain : ((NameGroup.group label items).map fun g => memberName g.name) =
      (NameGroup.group label items).map NameGroup.name := by
    apply List.map_congr_left
    intro g hg
    have hname : g.name ∈ (NameGroup.group label items).map NameGroup.name :=
      List.mem_map_of_mem hg
    rw [NameGroup.names_group, List.mem_eraseDups] at hname
    obtain ⟨a, ha, heq⟩ := List.mem_map.mp hname
    exact memberName_of_isWord (heq ▸ hwords a ha)
  have hsub := ownedNames_flatMap h (NameGroup.group label items)
  rwa [hplain, NameGroup.names_group] at hsub

end Owners

section Members

variable {policy : Policy} {entries : List Abi.Entry}

/-- The registry keeps the names of all owners but those of the members that
every class has. -/
theorem mem_held_openRegistry {name : String}
    (h : name ∈ ownedNames (methodRequests policy entries) ∨
      name ∈ ownedNames (eventRequests entries)) (hown : name ∉ Scope.ownMembers) :
    name ∈ (openRegistry policy entries).held := by
  refine Registry.mem_held_holdAll.mpr (.inr ⟨?_, hown⟩)
  rw [List.filterMap_append, List.filterMap_map, List.filterMap_map, List.mem_append]
  exact h

/-- **Methods.**  The functions that become one member under their own name
are given that name. -/
theorem own_name_of_functions
    (hwords : ∀ f ∈ Abi.namedFunctions entries, isWord (baseName f.name).toList = true)
    {g : NameGroup Abi.Function}
    (hg : g ∈ NameGroup.group Abi.Function.name (Abi.namedFunctions entries))
    (halone : policy = .combine ∨ g.isShared = false) (hword : isWord g.name.toList = true)
    (hown : g.name ∉ Scope.ownMembers) : (g.name, g) ∈ (memberNames policy entries).1 := by
  let plan : MethodPlan :=
    (.own (memberName g.name) (mangledName g.name g.first.inputs), g)
  have howned : plan.1.owned? = some g.name := by
    rw [NameRequest.owned?, memberName_of_isWord hword]
  have hplan : plan ∈ methodRequests policy entries := by
    refine List.mem_flatMap.mpr ⟨g, hg, ?_⟩
    rcases halone with rfl | hshared
    · exact List.mem_singleton.mpr rfl
    · cases policy <;> simp [methodPlans, hshared, plan]
  have hkept : g.name ∈ (openRegistry policy entries).held :=
    mem_held_openRegistry (.inl (List.mem_filterMap.mpr ⟨plan, hplan, howned⟩)) hown
  have hnodup : (ownedNames (methodRequests policy entries)).Nodup :=
    (nodup_eraseDups _).sublist (ownedNames_group hwords (ownedNames_methodPlans policy))
  exact Registry.mem_serveAll_of_owned hkept hnodup hplan howned

/-- **Subscriptions.**  An event that shares its name with nothing is given
that name. -/
theorem own_name_of_event
    (hwords : ∀ f ∈ Abi.namedFunctions entries, isWord (baseName f.name).toList = true)
    (heventWords : ∀ e ∈ Abi.namedEvents entries, isWord (baseName e.name).toList = true)
    {g : NameGroup Abi.Event}
    (hg : g ∈ NameGroup.group Abi.Event.name (Abi.namedEvents entries))
    (halone : g.isShared = false) (hword : isWord g.name.toList = true)
    (hfunctions : g.name ∉ (Abi.namedFunctions entries).map fun f => baseName f.name)
    (hown : g.name ∉ Scope.ownMembers) :
    (g.name, g.first) ∈ (memberNames policy entries).2 := by
  let plan : NameRequest × Abi.Event :=
    (.own (memberName g.name) (mangledName g.name g.first.inputs), g.first)
  have howned : plan.1.owned? = some g.name := by
    rw [NameRequest.owned?, memberName_of_isWord hword]
  have hplan : plan ∈ eventRequests entries := by
    refine List.mem_flatMap.mpr ⟨g, hg, ?_⟩
    have hnone : g.name ∉
        (NameGroup.group Abi.Function.name (Abi.namedFunctions entries)).map (·.name) := by
      rwa [NameGroup.names_group, List.mem_eraseDups]
    simp only [eventPlans, NameGroup.items_of_not_shared halone, halone]
    simp [hnone, hown, plan]
  have hkept : g.name ∈ (openRegistry policy entries).held :=
    mem_held_openRegistry (.inr (List.mem_filterMap.mpr ⟨plan, hplan, howned⟩)) hown
  -- no method owns the name, so it is still kept when the events are named
  have hothers : ∀ q ∈ methodRequests policy entries, q.1.owned? ≠ some g.name := by
    intro q hq heq
    have hmem : g.name ∈ ownedNames (methodRequests policy entries) :=
      List.mem_filterMap.mpr ⟨q, hq, heq⟩
    have hbase := (ownedNames_group hwords (ownedNames_methodPlans policy)).subset hmem
    exact hfunctions (List.mem_eraseDups.mp hbase)
  have hnodup : (ownedNames (eventRequests entries)).Nodup :=
    (nodup_eraseDups _).sublist (ownedNames_group heventWords (ownedNames_eventPlans _))
  exact Registry.mem_serveAll_of_owned (Registry.mem_held_serveAll hkept hothers) hnodup hplan
    howned

end Members

/-- The named events of that base name, in declared order. -/
def eventsSharing (entries : List Abi.Entry) (base : String) : List Abi.Event :=
  (Abi.namedEvents entries).filter fun e => baseName e.name = base

/-- **Plain members keep their declared names.**  Where the base names of all
functions and events are words, the functions that are combined, and a
function that shares its base name with no other one, get the base name for
their method; so does an event for its subscription that shares its base name
with no other event and with no function.  The names that every class has for
itself are the only exception, and no other member gets the same name. -/
theorem plain_members_keep_names {contract : Contract} {policy : Policy} {face : Interface}
    (h : (ofContract contract policy).result = .ok face)
    (hfunctions : ∀ f ∈ Abi.namedFunctions contract.abi,
      isWord (baseName f.name).toList = true)
    (hevents : ∀ e ∈ Abi.namedEvents contract.abi, isWord (baseName e.name).toList = true) :
    (∀ f ∈ Abi.namedFunctions contract.abi,
      policy = .combine ∨ Abi.sharing contract.abi (baseName f.name) = [f] →
      baseName f.name ∉ Scope.ownMembers →
      ∃ g ∈ face.methods, g.overloads = Abi.sharing contract.abi (baseName f.name) ∧
        g.ident = baseName f.name) ∧
    (∀ e ∈ Abi.namedEvents contract.abi,
      eventsSharing contract.abi (baseName e.name) = [e] →
      Abi.sharing contract.abi (baseName e.name) = [] →
      baseName e.name ∉ Scope.ownMembers →
      ∃ b ∈ face.events, b.event = e ∧ b.ident = baseName e.name) ∧
    (face.methods.map MethodGroup.ident ++ face.events.map EventBinding.ident).Nodup := by
  refine ⟨?_, ?_, ?_⟩
  · intro f hf halone hown
    obtain ⟨g, hg, hname⟩ := NameGroup.exists_group Abi.Function.name hf
    have hitems : g.items = Abi.sharing contract.abi (baseName f.name) :=
      hname ▸ NameGroup.items_of_mem_group hg
    have hshared : policy = .combine ∨ g.isShared = false := by
      refine halone.imp_right fun hone => ?_
      have hothers : g.others = [] := (List.cons.inj (hitems.trans hone)).2
      simp [NameGroup.isShared, hothers]
    have hmember : (g.name, g) ∈ (memberNames policy contract.abi).1 :=
      own_name_of_functions hfunctions hg hshared (hname ▸ hfunctions f hf) (hname ▸ hown)
    obtain ⟨m, hm, hresult, hsingle⟩ := SideBySide.exists_value (plans_ofContract h) hmember
    obtain ⟨hgroup, hident, -⟩ := shapes_of_memberOf hsingle hresult
    refine ⟨m, hm, ?_, hident.trans hname⟩
    rw [MethodGroup.overloads, hgroup, hitems]
  · intro e he hone hnone hown
    obtain ⟨g, hg, hname⟩ := NameGroup.exists_group Abi.Event.name he
    have hitems : g.items = [e] := by
      rw [← hone, eventsSharing, ← hname]
      exact NameGroup.items_of_mem_group hg
    obtain ⟨hfirst, hothers⟩ := List.cons.inj hitems
    have hshared : g.isShared = false := by simp [NameGroup.isShared, hothers]
    have hbase : g.name ∉ (Abi.namedFunctions contract.abi).map fun f => baseName f.name := by
      intro hmem
      obtain ⟨f, hf, heq⟩ := List.mem_map.mp hmem
      exact List.filter_eq_nil_iff.mp hnone f hf (by simp [heq, hname])
    have hmember : (g.name, g.first) ∈ (memberNames policy contract.abi).2 :=
      own_name_of_event hfunctions hevents hg hshared (hname ▸ hevents e he) hbase (hname ▸ hown)
    obtain ⟨constructor, groups, -, -, rfl⟩ := ofContract_eq_ok.mp h
    exact ⟨_, List.mem_map_of_mem hmember, hfirst, hname⟩
  · obtain ⟨hmethods, hbindings⟩ := idents_ofContract h
    rw [hmethods, hbindings]
    exact (memberNames_nodup policy contract.abi).1

/-- Two functions that are mangled, and a function and an event that have the
mangled names for their own. -/
def mangledApart : Contract :=
  { name := "Mangled", bytecode := "",
    abi := [.function ⟨"set", [{ name := "value", kind := "uint256" }], [], .nonpayable⟩,
      .function ⟨"set", [{ name := "value", kind := "string" },
        { name := "force", kind := "bool" }], [], .nonpayable⟩,
      .function ⟨"setvalue", [], [], .nonpayable⟩,
      .event ⟨"setvalueforce", [], false⟩] }

/-- The function and the event are declared later and keep their names. -/
theorem plain_members_keep_names_mangledApart :
    ∃ face, (ofContract mangledApart .mangle).result = .ok face ∧
      (∃ g ∈ face.methods, g.overloads = [⟨"setvalue", [], [], .nonpayable⟩] ∧
        g.ident = "setvalue") ∧
      ∃ b ∈ face.events, b.event = ⟨"setvalueforce", [], false⟩ ∧ b.ident = "setvalueforce" := by
  have hface : ∃ face, (ofContract mangledApart .mangle).result = .ok face := ⟨_, rfl⟩
  obtain ⟨face, hface⟩ := hface
  obtain ⟨hmethods, hbindings, -⟩ := plain_members_keep_names hface (by decide) (by decide)
  refine ⟨face, hface, ?_, ?_⟩
  · exact hmethods ⟨"setvalue", [], [], .nonpayable⟩ (by simp [mangledApart, Abi.namedFunctions])
      (.inr rfl) (by decide)
  · exact hbindings ⟨"setvalueforce", [], false⟩ (by simp [mangledApart, Abi.namedEvents])
      rfl rfl (by decide)

end AbiBindings.Interface
