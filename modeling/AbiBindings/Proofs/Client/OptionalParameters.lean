import AbiBindings.Proofs.Client.Branches
import AbiBindings.Proofs.Client.MemberCalls
import AbiBindings.Proofs.Client.ParameterNames
import AbiBindings.Proofs.Interface.Reordering

/-!
# Optional parameters and their places

A combined method lists its parameters in the order in which its functions
first take them, and only then looks which of them some function lacks.  So a
parameter that has to be supplied may stand behind one that may be left out,
which no declaration allows (`RequiredFirst`).

The key fact is that every parameter that all functions take is among those
of the first function, and these come first in the list
(`pairwise_eraseDups_append`).  So the first function alone decides: the list
is in order exactly when that function has the inputs that all functions have
in front of its others (`required_first_iff`).  The order in which functions
are declared matters, and a contract may have the wrong one
(`required_behind_optional`).
-/

namespace AbiBindings.Client

open Script Interface

/-- No parameter that has to be supplied stands behind one that may be left
out. -/
def RequiredFirst (params : List Param) : Prop :=
  params.Pairwise fun p q => p.optional = true → q.optional = true

/-- Every function behind the method has an input of that name. -/
def TakenByAll (g : MethodGroup) (name : String) : Prop :=
  ∀ f ∈ g.overloads, name ∈ declaredNames f.inputs

instance (params : List Param) : Decidable (RequiredFirst params) :=
  inferInstanceAs (Decidable (params.Pairwise _))

instance (g : MethodGroup) (name : String) : Decidable (TakenByAll g name) :=
  inferInstanceAs (Decidable (∀ f ∈ g.overloads, name ∈ declaredNames f.inputs))

section Shapes

variable {g : MethodGroup} {shapes : List InputShape}

/-- A parameter may be left out unless all functions take it. -/
theorem optional_paramOf_iff
    (h : List.Forall₂ (fun f s => (inputShape g.name f.inputs).result = .ok s)
      g.overloads shapes) (name : String) :
    (paramOf shapes name).toParam.optional = true ↔ ¬ TakenByAll g name := by
  have hlacks : ∀ {f : Abi.Function} {s : InputShape},
      (inputShape g.name f.inputs).result = .ok s →
        ((s.lookup name).isNone = true ↔ name ∉ declaredNames f.inputs) := by
    intro f s hs
    rw [declaredNames, ← names_inputShape hs, Option.isNone_iff_eq_none,
      lookup_eq_none_iff_not_mem]
  have hoptional : (paramOf shapes name).toParam.optional =
      shapes.any fun s => (s.lookup name).isNone := rfl
  simp only [hoptional, List.any_eq_true, TakenByAll, not_forall]
  constructor
  · rintro ⟨s, hs, hnone⟩
    obtain ⟨f, hf, hshape⟩ := SideBySide.exists_item h hs
    exact ⟨f, hf, (hlacks hshape).mp hnone⟩
  · rintro ⟨f, hf, hname⟩
    obtain ⟨s, hs, hshape⟩ := SideBySide.exists_value h hf
    exact ⟨s, hs, (hlacks hshape).mpr hname⟩

/-- The names of a group's parameters start with those of its first
function. -/
theorem names_shapes
    (h : List.Forall₂ (fun f s => (inputShape g.name f.inputs).result = .ok s)
      g.overloads shapes) :
    shapes.flatten.map Prod.fst =
      declaredNames g.first.inputs ++ g.others.flatMap fun f => declaredNames f.inputs := by
  have hnames : shapes.map (List.map Prod.fst) =
      g.overloads.map fun f => declaredNames f.inputs :=
    SideBySide.map_eq_map h fun _ _ hs => names_inputShape hs
  rw [List.map_flatten, hnames, ← List.flatMap_def]
  rfl

/-- **Order of parameters.**  The parameters that all functions take come
first when they do among the inputs of the first function. -/
theorem requiredFirst_iff_of_combines (h : Combines g (merged shapes.flatten) shapes) :
    RequiredFirst g.parameters ↔
      (declaredNames g.first.inputs).eraseDups.Pairwise fun a b =>
        TakenByAll g b → TakenByAll g a := by
  have hparams : g.parameters = (declaredNames g.first.inputs ++
      g.others.flatMap fun f => declaredNames f.inputs).eraseDups.map fun name =>
        (paramOf shapes name).toParam := by
    rw [MethodGroup.parameters, h.params_eq_paramOf, names_shapes h.shaped, List.map_map]
    rfl
  rw [RequiredFirst, hparams, List.pairwise_map]
  simp only [optional_paramOf_iff h.shaped, not_imp_not]
  apply pairwise_eraseDups_append
  -- a name that the first function lacks is not taken by all
  intro a b hb hall
  exact absurd (hall g.first List.mem_cons_self) hb

end Shapes

/-- **Optional parameters.**  Of every contract that can be combined: a method
has the parameters in the order in which its functions first take them, each
optional unless all functions take it, and its method of the class and its
encoder are declared with just these.  A required one stands behind an
optional one exactly when it does among the inputs of the first function. -/
theorem required_first_iff {contract : Contract} {face : Interface}
    (h : (Interface.ofContract contract .combine).result = .ok face) {g : MethodGroup}
    (hg : g ∈ face.methods) :
    g.params.map GroupParam.name =
      (g.overloads.flatMap fun f => declaredNames f.inputs).eraseDups ∧
    (∀ p ∈ g.params, p.optional = true ↔ ¬ TakenByAll g p.name) ∧
    (∀ m, (functionMethod g).result = .ok m → ∃ ty body,
      m = .method .open g.ident g.parameters ty body) ∧
    (∀ e, (encoder g).result = .ok e → ∃ body, e = .arrow [] g.parameters none body) ∧
    (RequiredFirst g.parameters ↔
      (declaredNames g.first.inputs).eraseDups.Pairwise fun a b =>
        TakenByAll g b → TakenByAll g a) := by
  obtain ⟨shapes, hcombines⟩ := merged_of_mem_methods h hg
  have hparams := hcombines.params_eq_paramOf
  refine ⟨?_, ?_, ?_, ?_, requiredFirst_iff_of_combines hcombines⟩
  · rw [hparams, names_shapes hcombines.shaped, List.map_map]
    exact List.map_id _
  · intro p hp
    rw [hparams] at hp
    obtain ⟨name, -, rfl⟩ := List.mem_map.mp hp
    exact optional_paramOf_iff hcombines.shaped name
  · intro m hm
    obtain ⟨output, -, rfl⟩ := functionMethod_eq_ok.mp hm
    exact ⟨_, _, rfl⟩
  · intro e he
    obtain ⟨body, rfl, -⟩ := branches_of_encoder he
    exact ⟨body, rfl⟩

/-- The owner sets a value. -/
def setValue : Abi.Function :=
  ⟨"set", [{ name := "owner", kind := "address" }, { name := "value", kind := "uint256" }], [],
    .nonpayable⟩

/-- The owner alone. -/
def setOwner : Abi.Function :=
  ⟨"set", [{ name := "owner", kind := "address" }], [], .nonpayable⟩

/-- A contract that declares both, the longer one in front. -/
def registry : Contract :=
  { name := "Registry", bytecode := "", abi := [.function setValue, .function setOwner] }

/-- Its one method. -/
def registryMethod : MethodGroup :=
  { name := "set", first := setValue, others := [setOwner], ident := "set",
    params := [⟨"owner", .string, false⟩, ⟨"value", .integer, true⟩] }

/-- The value, which may be left out, comes last. -/
theorem required_first_iff_registry :
    ∃ face, (Interface.ofContract registry .combine).result = .ok face ∧
      registryMethod ∈ face.methods ∧
      (∃ p ∈ registryMethod.params, p.optional = true ∧ ¬ TakenByAll registryMethod p.name) ∧
      (∃ p ∈ registryMethod.params, p.optional = false ∧ TakenByAll registryMethod p.name) ∧
      RequiredFirst registryMethod.parameters := by
  have hface : ∃ face, (Interface.ofContract registry .combine).result = .ok face ∧
      face.methods = [registryMethod] := ⟨_, rfl, rfl⟩
  obtain ⟨face, hok, hmethods⟩ := hface
  have hmethod : registryMethod ∈ face.methods := hmethods ▸ List.mem_cons_self
  obtain ⟨-, -, -, -, hiff⟩ := required_first_iff hok hmethod
  exact ⟨face, hok, hmethod, ⟨⟨"value", .integer, true⟩, by decide⟩,
    ⟨⟨"owner", .string, false⟩, by decide⟩, hiff.mpr (by decide)⟩

/-- A contract whose longer function has the input that both take at the
end. -/
def vaultOfOwners : Contract :=
  { name := "Vault", bytecode := "",
    abi := [
      .function ⟨"set", [{ name := "value", kind := "uint256" },
        { name := "owner", kind := "address" }], [], .nonpayable⟩,
      .function ⟨"set", [{ name := "owner", kind := "address" }], [], .nonpayable⟩] }

/-- Required parameters do not always come first: here an optional `value`
stands in front of the `owner` that both functions take. -/
theorem required_behind_optional :
    ¬ ∀ (contract : Contract) (face : Interface),
      (Interface.ofContract contract .combine).result = .ok face →
      ∀ g ∈ face.methods, RequiredFirst g.parameters := by
  intro hall
  have hface : ∃ face, (Interface.ofContract vaultOfOwners .combine).result = .ok face ∧
      ∃ g ∈ face.methods, g.parameters.map Param.optional = [true, false] :=
    ⟨_, rfl, _, List.mem_cons_self, rfl⟩
  obtain ⟨face, hok, g, hg, hoptional⟩ := hface
  have hordered := hall vaultOfOwners face hok g hg
  have hflags : (g.parameters.map Param.optional).Pairwise fun a b => a = true → b = true :=
    List.pairwise_map.mpr hordered
  rw [hoptional] at hflags
  exact absurd hflags (by decide)

end AbiBindings.Client
