import AbiBindings.Proofs.Client.OptionalParameters

/-!
# The parameters of a combined method

Functions that are combined are merged one input at a time, and which of the
parameters may be left out is looked up afterwards.  What comes of it can be
said without the merging: one parameter for each declared name, in the order
in which the names first appear, with the type that the descriptors of all
inputs of this name make together (`WidensTo`).  What one function makes of a
parameter is looked up a second time, by its first input of the name, and it is
a member of that type.

Both readings go through the shapes of the functions: under a name, a shape
holds what the inputs of this name are mapped to, in their order
(`taken_of_inputShape`).  The statement on all parameters is
`combined_parameters`.
-/

namespace AbiBindings.Client

open Interface Descriptor

/-- The inputs of that name, in declared order; an input without a name is
none of them. -/
def inputsNamed (name : String) (inputs : List Abi.Param) : List Abi.Param :=
  inputs.filter fun p => p.isNamed && p.name == name

/-- The type that descriptors make together: the one descriptor that all of
them are, or the union of the different ones in the order in which they first
appear. -/
inductive WidensTo (ds : List Descriptor) : Descriptor → Prop
  | one {d : Descriptor} (hsome : ds ≠ []) (hall : ∀ e ∈ ds, e = d) : WidensTo ds d
  | union (htwo : 2 ≤ ds.eraseDups.length) : WidensTo ds (.union ds.eraseDups)

section Types

variable {ds : List Descriptor} {d t : Descriptor}

theorem widensTo_ofMembers (hsome : ds ≠ []) : WidensTo ds (ofMembers ds.eraseDups) := by
  cases heq : ds.eraseDups with
  | nil =>
      obtain ⟨d, hd⟩ := List.exists_mem_of_ne_nil ds hsome
      exact absurd (List.mem_eraseDups.mpr hd) (by simp [heq])
  | cons d rest =>
      cases rest with
      | nil =>
          refine WidensTo.one (d := d) hsome ?_
          intro e he
          simpa [heq] using List.mem_eraseDups.mpr he
      | cons e rest =>
          have hunion := @WidensTo.union ds (by simp [heq])
          rwa [heq] at hunion

/-- A descriptor that is no union is a member of the type that it makes with
others. -/
theorem WidensTo.mem_members (h : WidensTo ds t) (hd : d ∈ ds) (hplain : d.guard ≠ .any) :
    d ∈ t.members := by
  cases h with
  | one _ hall =>
      obtain rfl := hall d hd
      simp [members_of_guard_ne_any hplain]
  | union _ => exact List.mem_eraseDups.mpr hd

end Types

section Shapes

variable {scope name : String} {inputs : List Abi.Param} {shape : InputShape}

theorem head?_inputsNamed (name : String) (inputs : List Abi.Param) :
    (inputsNamed name inputs).head? = input? inputs name :=
  List.head?_filter

theorem inputsNamed_eq_nil_iff : inputsNamed name inputs = [] ↔ name ∉ declaredNames inputs := by
  simp only [inputsNamed, List.filter_eq_nil_iff, declaredNames, List.mem_map, List.mem_filter,
    Bool.and_eq_true, beq_iff_eq, not_exists, not_and, and_imp]

/-- **Shapes.**  Under a name a shape holds what the inputs of this name are
mapped to, in their order. -/
theorem taken_of_inputShape (h : (inputShape scope inputs).result = .ok shape)
    (name : String) :
    List.Forall₂ (fun p d => (ofParam scope p).result = .ok d) (inputsNamed name inputs)
      (taken shape name) := by
  have hnamed : inputsNamed name inputs =
      (inputs.filter Abi.Param.isNamed).filter fun p => p.name = name := by
    rw [List.filter_filter]
    apply List.filter_congr
    intro p _
    exact Bool.eq_iff_iff.mpr (by simp [and_comm])
  have hshape := inputShape_eq_ok.mp h
  rw [hnamed]
  clear h hnamed
  generalize inputs.filter Abi.Param.isNamed = named at hshape
  induction hshape with
  | nil => exact .nil
  | @cons p e named shape hp _ ih =>
      by_cases heq : p.name = name
      · have htaken : taken (e :: shape) name = e.2 :: taken shape name := by
          simp [taken, hp.1, heq]
        rw [htaken, List.filter_cons_of_pos (by simpa using heq)]
        exact .cons hp.2 ih
      · have htaken : taken (e :: shape) name = taken shape name := by
          simp [taken, hp.1, heq]
        rwa [htaken, List.filter_cons_of_neg (by simpa using heq)]

/-- The shapes of several functions hold under a name what all of their inputs
of this name are mapped to. -/
theorem taken_of_shapes {fs : List Abi.Function} {shapes : List InputShape}
    (h : List.Forall₂ (fun f s => (inputShape scope f.inputs).result = .ok s) fs shapes)
    (name : String) :
    List.Forall₂ (fun p d => (ofParam scope p).result = .ok d)
      (fs.flatMap fun f => inputsNamed name f.inputs) (taken shapes.flatten name) := by
  have hflat : taken shapes.flatten name = shapes.flatMap fun s => taken s name := by
    simp [taken, List.filter_flatten, List.map_flatten, List.flatMap_def, Function.comp_def]
  rw [hflat]
  exact List.rel_flatMap h fun f s hs => taken_of_inputShape hs name

end Shapes

/-- **The parameters of combined methods.**  Of every contract that can be
combined: a method stands for the functions of its base name, and its
parameters have the declared names of their inputs, each once, in the order of
their first appearance.  A parameter has the type that the descriptors of all
inputs of its name make together, and may be left out exactly when some
function has no such input.  A function that has none gives the parameter no
type; any other gives it the descriptor of its first input of the name, which
is a member of the type of the parameter. -/
theorem combined_parameters {contract : Contract} {face : Interface}
    (h : (Interface.ofContract contract .combine).result = .ok face) {g : MethodGroup}
    (hg : g ∈ face.methods) :
    (g.overloads = (Abi.namedFunctions contract.abi).filter fun f =>
      baseName f.name = g.name) ∧
    g.params.map GroupParam.name =
      (g.overloads.flatMap fun f => declaredNames f.inputs).eraseDups ∧
    ∀ p ∈ g.params,
      (∃ ds, List.Forall₂ (fun input d => (ofParam g.name input).result = .ok d)
          (g.overloads.flatMap fun f => inputsNamed p.name f.inputs) ds ∧
        WidensTo ds p.descriptor) ∧
      (p.optional = true ↔ ∃ f ∈ g.overloads, inputsNamed p.name f.inputs = []) ∧
      ∀ f ∈ g.overloads,
        match (inputsNamed p.name f.inputs).head? with
        | none => (g.overloadType f p).result = .ok none
        | some input => ∃ d ∈ p.descriptor.members,
            (ofParam g.name input).result = .ok d ∧
            (g.overloadType f p).result = .ok (some d) := by
  obtain ⟨shapes, hcombines⟩ := merged_of_mem_methods h hg
  have hparams := hcombines.params_eq_paramOf
  have hnames : g.params.map GroupParam.name =
      (g.overloads.flatMap fun f => declaredNames f.inputs).eraseDups := by
    rw [hparams, names_shapes hcombines.shaped, List.map_map]
    exact List.map_id _
  refine ⟨overloads_of_combine h hg, hnames, ?_⟩
  intro p hp
  rw [hparams] at hp
  obtain ⟨name, hname, rfl⟩ := List.mem_map.mp hp
  have htaken := taken_of_shapes hcombines.shaped name
  -- some input has the name, or it would be no parameter
  have hsome : taken shapes.flatten name ≠ [] := by
    obtain ⟨⟨_, d⟩, hmem, rfl⟩ := List.mem_map.mp (List.mem_eraseDups.mp hname)
    exact List.ne_nil_of_mem (mem_taken.mpr hmem)
  have hwidens : WidensTo (taken shapes.flatten name) (paramOf shapes name).descriptor :=
    widensTo_ofMembers hsome
  refine ⟨⟨_, htaken, hwidens⟩, ?_, ?_⟩
  · have hoptional := optional_paramOf_iff hcombines.shaped name
    simp only [TakenByAll, not_forall, exists_prop] at hoptional
    simp only [inputsNamed_eq_nil_iff]
    exact hoptional
  · intro f hf
    obtain ⟨shape, hmem, hshape⟩ := SideBySide.exists_value hcombines.shaped hf
    have hlookup := lookup_inputShape hshape name
    have htype := result_overloadType hshape (paramOf shapes name)
    change match (inputsNamed name f.inputs).head? with | none => _ | some input => _
    rw [head?_inputsNamed]
    cases hinput : input? f.inputs name with
    | none =>
        rw [hinput] at hlookup
        rw [htype]
        exact congrArg Except.ok hlookup
    | some input =>
        rw [hinput] at hlookup
        obtain ⟨d, hd, heq⟩ := hlookup
        refine ⟨d, ?_, hd, htype.trans (congrArg Except.ok heq)⟩
        obtain ⟨before, after, rfl, -⟩ := List.lookup_eq_some_iff.mp heq
        exact hwidens.mem_members
          (mem_taken.mpr (List.mem_flatten.mpr ⟨_, hmem, by simp⟩)) (ofParam_guard_ne_any hd)

/-- A payment whose amount is given twice, behind a memo without a name. -/
def payTwice : Abi.Function :=
  ⟨"pay", [{ name := "", kind := "bytes" }, { name := "amount", kind := "uint256" },
    { name := "amount", kind := "string" }], [], .payable⟩

/-- A payment to someone. -/
def payTo : Abi.Function :=
  ⟨"pay", [{ name := "to", kind := "address" }, { name := "amount", kind := "uint8" }], [],
    .payable⟩

/-- A contract with both payments. -/
def payments : Contract :=
  { name := "Payments", bytecode := "", abi := [.function payTwice, .function payTo] }

/-- The amount of their method. -/
def payAmount : GroupParam := ⟨"amount", .union [.integer, .string], false⟩

/-- The receiver of their method. -/
def payReceiver : GroupParam := ⟨"to", .string, true⟩

/-- Their one method. -/
def payMethod : MethodGroup :=
  { name := "pay", first := payTwice, others := [payTo], ident := "pay",
    params := [payAmount, payReceiver] }

/-- The amount is a number or a text, of which the first payment takes the
number; the receiver may be left out, as it is there. -/
theorem combined_parameters_payments :
    ∃ face, (Interface.ofContract payments .combine).result = .ok face ∧
      payMethod ∈ face.methods ∧
      payMethod.params.map GroupParam.name = ["amount", "to"] ∧
      (∃ ds, List.Forall₂ (fun input d => (ofParam "pay" input).result = .ok d)
          (payMethod.overloads.flatMap fun f => inputsNamed "amount" f.inputs) ds ∧
        WidensTo ds (.union [.integer, .string])) ∧
      (∃ d ∈ payAmount.descriptor.members,
        (payMethod.overloadType payTwice payAmount).result = .ok (some d)) ∧
      (∃ f ∈ payMethod.overloads, inputsNamed "to" f.inputs = []) ∧
      (payMethod.overloadType payTwice payReceiver).result = .ok none := by
  have hface : ∃ face, (Interface.ofContract payments .combine).result = .ok face ∧
      face.methods = [payMethod] := ⟨_, rfl, rfl⟩
  obtain ⟨face, hok, hmethods⟩ := hface
  have hmethod : payMethod ∈ face.methods := hmethods ▸ List.mem_cons_self
  obtain ⟨-, hnames, hparams⟩ := combined_parameters hok hmethod
  obtain ⟨hamount, -, htypes⟩ := hparams payAmount (by simp [payMethod])
  obtain ⟨-, hoptional, hreceivers⟩ := hparams payReceiver (by simp [payMethod])
  have hfirst : payTwice ∈ payMethod.overloads := List.mem_cons_self
  obtain ⟨d, hd, -, htype⟩ := htypes payTwice hfirst
  exact ⟨face, hok, hmethod, hnames.trans (by decide), hamount, ⟨d, hd, htype⟩,
    hoptional.mp rfl, hreceivers payTwice hfirst⟩

end AbiBindings.Client
