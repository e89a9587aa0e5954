import AbiBindings.Proofs.Interface.Members
import AbiBindings.Proofs.Script.Identifiers

/-!
# Member names are words

A member is asked for by its own name, which is a reserved word or an
identifier, or by a mangled one, which has the letters of input names behind
it; and a registry hands out a name that it was asked for or such a name with
a number behind it.  Each of these is a word (`isWord_of_mem_memberNames`).

The proof follows the registry with any property of names that numbers
preserve: a step hands out a name with it and keeps no name without it
(`Registry.Keeps.serve`), and so does a run (`Registry.Keeps.serveAll`).
-/

namespace AbiBindings.Interface

open Script

/-- The names that a request asks for. -/
def NameRequest.names : NameRequest → List String
  | .own plain other => [plain, other]
  | .mangled name => [name]

namespace Registry

/-- All names that are kept have a property. -/
def Keeps (P : String → Prop) (r : Registry) : Prop := ∀ name ∈ r.held, P name

section Keeping

variable {P : String → Prop} {r : Registry}

/-- A claim gives one of its candidates or the last of them with a number. -/
theorem choose_of_numbered (hnumbered : ∀ base n, P base → P (numbered base n))
    {candidates : List String} (hsome : candidates ≠ []) (hall : ∀ name ∈ candidates, P name) :
    P (r.choose candidates) := by
  unfold choose
  cases hfind : candidates.find? r.isFree with
  | some name => exact hall name (List.mem_of_find?_eq_some hfind)
  | none =>
      apply hnumbered
      rw [List.getLastD_eq_getLast?, List.getLast?_eq_some_getLast hsome]
      exact hall _ (List.getLast_mem hsome)

theorem Keeps.hold (h : r.Keeps P) {name : String} (hname : P name) : (r.hold name).Keeps P := by
  unfold Registry.hold
  split
  case isFalse => exact h
  case isTrue => exact List.forall_mem_cons.mpr ⟨hname, h⟩

theorem Keeps.holdAll (h : r.Keeps P) {requests : List NameRequest}
    (hall : ∀ request ∈ requests, ∀ name ∈ request.names, P name) :
    (r.holdAll requests).Keeps P := by
  induction requests generalizing r with
  | nil => exact h
  | cons request rest ih =>
      obtain ⟨hrequest, hrest⟩ := List.forall_mem_cons.mp hall
      cases request with
      | own plain mangled => exact ih (h.hold (hrequest plain (by simp [NameRequest.names]))) hrest
      | mangled name => exact ih h hrest

/-- **Step.**  A request is given a name with the property, and no name
without it is kept. -/
theorem Keeps.serve (h : r.Keeps P) (hnumbered : ∀ base n, P base → P (numbered base n))
    {request : NameRequest} (hall : ∀ name ∈ request.names, P name) :
    P (r.serve request).1 ∧ (r.serve request).2.Keeps P := by
  cases request with
  | own plain mangled =>
      simp only [Registry.serve, Registry.claimHeld]
      split
      case isTrue =>
        exact ⟨hall plain (by simp [NameRequest.names]),
          fun name hname => h name (List.mem_of_mem_erase hname)⟩
      case isFalse => exact ⟨choose_of_numbered hnumbered (by simp) hall, h⟩
  | mangled name => exact ⟨choose_of_numbered hnumbered (by simp) hall, h⟩

/-- **Run.**  All names that a run hands out have the property. -/
theorem Keeps.serveAll {α : Type} (h : r.Keeps P)
    (hnumbered : ∀ base n, P base → P (numbered base n)) {requests : List (NameRequest × α)}
    (hall : ∀ request ∈ requests, ∀ name ∈ request.1.names, P name) :
    (∀ m ∈ (r.serveAll requests).1, P m.1) ∧ (r.serveAll requests).2.Keeps P := by
  induction requests generalizing r with
  | nil => exact ⟨by simp [Registry.serveAll], h⟩
  | cons request rest ih =>
      obtain ⟨hrequest, hrest⟩ := List.forall_mem_cons.mp hall
      obtain ⟨hname, hnext⟩ := h.serve hnumbered hrequest
      obtain ⟨hnames, hlast⟩ := ih hnext hrest
      exact ⟨List.forall_mem_cons.mpr ⟨hname, hnames⟩, hlast⟩

end Keeping

/-- A word with a number behind it is a word. -/
theorem isWord_numbered {base : String} (n : Nat) (h : isWord base.toList = true) :
    isWord (numbered base n).toList = true := by
  rw [numbered, String.toList_append]
  apply isWord_append h
  intro c hc
  have hdigit : c.isDigit = true :=
    Nat.isDigit_of_mem_toDigits (b := 10) (n := n) (by decide) (by decide) (by simpa using hc)
  simp [isWordChar, Char.isAlphanum, hdigit]

end Registry

/-- The name of a member is a reserved word or an identifier. -/
theorem isWord_memberName (base : String) : isWord (memberName base).toList = true := by
  unfold memberName
  split
  case isTrue hreserved =>
    have hall : ∀ word ∈ reservedWords, isWord word.toList = true := by decide
    exact hall base (by simpa [isReserved] using hreserved)
  case isFalse => exact (isIdentifier_iff.mp (isIdentifier_safeIdentifier base)).1

theorem isWord_mangledName (base : String) (inputs : List Abi.Param) :
    isWord (mangledName base inputs).toList = true := by
  rw [mangledName, String.toList_append, inputLetters, String.toList_ofList]
  exact isWord_append (isWord_memberName base) fun c hc => (List.mem_filter.mp hc).2

/-- The names that methods ask for are words. -/
theorem isWord_of_mem_methodRequests {policy : Policy} {entries : List Abi.Entry}
    {plan : MethodPlan} (hplan : plan ∈ methodRequests policy entries) :
    ∀ name ∈ plan.1.names, isWord name.toList = true := by
  obtain ⟨g, -, hg⟩ := List.mem_flatMap.mp hplan
  have hcases : (∃ f, plan.1 = .mangled (mangledName g.name f)) ∨
      ∃ inputs, plan.1 = .own (memberName g.name) (mangledName g.name inputs) := by
    cases policy with
    | combine =>
        simp only [methodPlans, List.mem_singleton] at hg
        exact .inr ⟨_, by rw [hg]⟩
    | mangle =>
        simp only [methodPlans] at hg
        split at hg
        · obtain ⟨f, -, rfl⟩ := List.mem_map.mp hg
          exact .inl ⟨_, rfl⟩
        · rw [List.mem_singleton] at hg
          exact .inr ⟨_, by rw [hg]⟩
  rcases hcases with ⟨inputs, heq⟩ | ⟨inputs, heq⟩ <;>
    simp [heq, NameRequest.names, isWord_memberName, isWord_mangledName]

/-- The names that subscriptions ask for are words. -/
theorem isWord_of_mem_eventRequests {entries : List Abi.Entry}
    {plan : NameRequest × Abi.Event} (hplan : plan ∈ eventRequests entries) :
    ∀ name ∈ plan.1.names, isWord name.toList = true := by
  obtain ⟨g, -, hg⟩ := List.mem_flatMap.mp hplan
  obtain ⟨e, -, rfl⟩ := List.mem_map.mp hg
  dsimp only
  split <;> simp [NameRequest.names, isWord_memberName, isWord_mangledName]

/-- **Member names.**  All members are named by words. -/
theorem isWord_of_mem_memberNames (policy : Policy) (entries : List Abi.Entry) :
    (∀ m ∈ (memberNames policy entries).1, isWord m.1.toList = true) ∧
      ∀ m ∈ (memberNames policy entries).2, isWord m.1.toList = true := by
  have hnumbered : ∀ base n, isWord base.toList = true →
      isWord (Registry.numbered base n).toList = true :=
    fun base n => Registry.isWord_numbered n
  have hopen : (openRegistry policy entries).Keeps fun name => isWord name.toList = true := by
    apply Registry.Keeps.holdAll
    · simp [Registry.Keeps, Registry.new]
    · intro request hrequest
      rcases List.mem_append.mp hrequest with hmem | hmem
      · obtain ⟨plan, hplan, rfl⟩ := List.mem_map.mp hmem
        exact isWord_of_mem_methodRequests hplan
      · obtain ⟨plan, hplan, rfl⟩ := List.mem_map.mp hmem
        exact isWord_of_mem_eventRequests hplan
  obtain ⟨hmethods, hnext⟩ :=
    hopen.serveAll hnumbered fun plan => isWord_of_mem_methodRequests
  exact ⟨hmethods, (hnext.serveAll hnumbered fun plan => isWord_of_mem_eventRequests).1⟩

/-- The methods and subscriptions of an interface are named by words. -/
theorem isWord_idents_ofContract {contract : Contract} {policy : Policy} {face : Interface}
    (h : (ofContract contract policy).result = .ok face) :
    (∀ g ∈ face.methods, isWord g.ident.toList = true) ∧
      ∀ e ∈ face.events, isWord e.ident.toList = true := by
  obtain ⟨hmethods, hevents⟩ := idents_ofContract h
  obtain ⟨hmethodWords, heventWords⟩ := isWord_of_mem_memberNames policy contract.abi
  constructor
  · intro g hg
    have hmem : g.ident ∈ (memberNames policy contract.abi).1.map Prod.fst :=
      hmethods ▸ List.mem_map_of_mem hg
    obtain ⟨m, hm, heq⟩ := List.mem_map.mp hmem
    exact heq ▸ hmethodWords m hm
  · intro e he
    have hmem : e.ident ∈ (memberNames policy contract.abi).2.map Prod.fst :=
      hevents ▸ List.mem_map_of_mem he
    obtain ⟨m, hm, heq⟩ := List.mem_map.mp hmem
    exact heq ▸ heventWords m hm

end AbiBindings.Interface
