import AbiBindings.Proofs.Interface.Acceptance

/-!
# Entries in another order

Two contracts may list the same entries in different orders.  What combining
asks for is about the entries alone, so both contracts are acceptable or none
is (`Acceptable.of_perm`).  Their interfaces do not look the same: groups stand
where their names first appear, the parameters of a group where its functions
first take them, and the members of a union where its descriptors do.  Nothing
else depends on the order.  The methods have the same base names
(`names_methods_perm`), and two methods of one base name are `Reordered`: they
stand for the same functions, and their parameters agree in everything but
their places and the places of the members of their types.

The proof never follows the merging.  It starts from the closed form of the
parameters: their names are those of all inputs, each once, and a name with
the shapes of the functions determines its parameter (`paramOf`).
-/

namespace AbiBindings

section Entries

variable {entries others : List Abi.Entry}

theorem Abi.namedFunctions_perm (h : entries.Perm others) :
    (namedFunctions entries).Perm (namedFunctions others) :=
  h.filterMap _

theorem Abi.constructors_perm (h : entries.Perm others) :
    (constructors entries).Perm (constructors others) :=
  h.filterMap _

theorem Abi.sharing_perm (h : entries.Perm others) (base : String) :
    (sharing entries base).Perm (sharing others base) :=
  (namedFunctions_perm h).filter _

end Entries

namespace Interface

open Descriptor

section Acceptance

variable {base : String} {fs hs : List Abi.Function}

theorem Takes.of_perm (h : fs.Perm hs) {name : String} {d : Descriptor}
    (htakes : Takes base fs name d) : Takes base hs name d := by
  obtain ⟨f, hf, hall⟩ := htakes
  exact ⟨f, h.mem_iff.mp hf, hall⟩

/-- Whether functions can be combined does not depend on their order. -/
theorem Combinable.of_perm (h : fs.Perm hs) (hall : Combinable base fs) :
    Combinable base hs := by
  constructor
  · intro f hf
    exact hall.described f (h.mem_iff.mpr hf)
  · intro name d e hd he
    exact hall.told_apart name d e (hd.of_perm h.symm) (he.of_perm h.symm)
  · refine h.pairwise hall.unambiguous ?_
    intro f h hdiffer hsame
    exact hdiffer fun name => (hsame name).symm
  · intro f hf h' hh'
    exact hall.same_outputs f (h.mem_iff.mpr hf) h' (h.mem_iff.mpr hh')

/-- Whether a contract can be combined does not depend on the order of its
entries. -/
theorem Acceptable.of_perm {a b : Contract} (h : a.abi.Perm b.abi) (ha : Acceptable a) :
    Acceptable b := by
  constructor
  · rw [← (Abi.constructors_perm h).length_eq]
    exact ha.constructor_unique
  · intro base
    exact (ha.combinable base).of_perm (Abi.sharing_perm h base)

/-- An acceptable contract has an interface. -/
theorem Acceptable.exists_ofContract {contract : Contract} (h : Acceptable contract) :
    ∃ face, (ofContract contract .combine).result = .ok face := by
  cases hresult : (ofContract contract .combine).result with
  | ok face => exact ⟨face, rfl⟩
  | error fault => exact absurd h (refusal_of_ofContract_eq_error hresult).not_acceptable

/-- Contracts with the same entries both have an interface or neither has
one. -/
theorem exists_ofContract_of_perm {a b : Contract} (h : a.abi.Perm b.abi)
    (ha : ∃ face, (ofContract a .combine).result = .ok face) :
    ∃ face, (ofContract b .combine).result = .ok face := by
  obtain ⟨face, hface⟩ := ha
  exact ((acceptable_of_ofContract_eq_ok hface).of_perm h).exists_ofContract

end Acceptance

/-- The same descriptor, or unions of the same members. -/
inductive SameType : Descriptor → Descriptor → Prop
  | single (d : Descriptor) : SameType d d
  | union {ms ns : List Descriptor} (h : ms.Perm ns) : SameType (.union ms) (.union ns)

/-- Members in another order make the same type. -/
theorem sameType_ofMembers {ds es : List Descriptor} (h : ds.Perm es) :
    SameType (ofMembers ds) (ofMembers es) := by
  match ds, es with
  | [], es =>
      obtain rfl := h.nil_eq
      exact .single _
  | [d], es =>
      obtain rfl := List.singleton_perm.mp h
      exact .single d
  | _ :: _ :: _, _ :: _ :: _ => exact .union h
  | _ :: _ :: _, [] | _ :: _ :: _, [_] => simpa using h.length_eq

/-- Two parameters of one name that differ at most in the order of the members
of their types. -/
structure SameParam (p q : GroupParam) : Prop where
  name_eq : p.name = q.name
  ident_eq : p.ident = q.ident
  optional_eq : p.optional = q.optional
  sameType : SameType p.descriptor q.descriptor

/-- The same parameters in some order. -/
def SameParams (ps qs : List GroupParam) : Prop :=
  ∃ ordered, List.Forall₂ SameParam ps ordered ∧ ordered.Perm qs

namespace SameParams

variable {ps qs : List GroupParam}

theorem exists_right (h : SameParams ps qs) {p : GroupParam} (hp : p ∈ ps) :
    ∃ q ∈ qs, SameParam p q := by
  obtain ⟨ordered, hsame, hperm⟩ := h
  obtain ⟨q, hq, hpq⟩ := SideBySide.exists_value hsame hp
  exact ⟨q, hperm.mem_iff.mp hq, hpq⟩

theorem exists_left (h : SameParams ps qs) {q : GroupParam} (hq : q ∈ qs) :
    ∃ p ∈ ps, SameParam p q := by
  obtain ⟨ordered, hsame, hperm⟩ := h
  exact SideBySide.exists_item hsame (hperm.mem_iff.mpr hq)

/-- What is the same of a parameter, is the same of all of them in some
order. -/
theorem map_perm {β : Type} {k : GroupParam → β} (h : SameParams ps qs)
    (hk : ∀ p q, SameParam p q → k q = k p) : (ps.map k).Perm (qs.map k) := by
  obtain ⟨ordered, hsame, hperm⟩ := h
  rw [← SideBySide.map_eq_map hsame hk]
  exact hperm.map k

end SameParams

section Shapes

variable {shapes others : List InputShape}

/-- Functions in another order have their shapes in another order. -/
theorem shapes_perm {base : String} {fs hs : List Abi.Function}
    (hshapes : List.Forall₂ (fun f s => (inputShape base f.inputs).result = .ok s) fs shapes)
    (hothers : List.Forall₂ (fun f s => (inputShape base f.inputs).result = .ok s) hs others)
    (h : fs.Perm hs) : shapes.Perm others := by
  refine List.rel_perm_imp ?_ hshapes hothers h
  intro f s t hs ht
  simpa [hs] using ht

theorem taken_perm {inputs inputs' : InputShape} (h : inputs.Perm inputs') (name : String) :
    (taken inputs name).Perm (taken inputs' name) :=
  (h.filter _).map _

/-- The parameter that a name becomes in a group with these shapes. -/
def paramOf (shapes : List InputShape) (name : String) : GroupParam :=
  groupParam shapes (name, ofMembers (taken shapes.flatten name).eraseDups)

/-- Shapes in another order make the same parameter of a name. -/
theorem sameParam_paramOf (h : shapes.Perm others) (name : String) :
    SameParam (paramOf shapes name) (paramOf others name) := by
  refine ⟨rfl, rfl, ?_, ?_⟩
  · apply Bool.eq_iff_iff.mpr
    simp only [paramOf, groupParam, List.any_eq_true, h.mem_iff]
  · exact sameType_ofMembers (eraseDups_perm (taken_perm h.flatten name))

variable {g g' : MethodGroup}

/-- The parameters of a group, name by name. -/
theorem Combines.params_eq_paramOf (h : Combines g (merged shapes.flatten) shapes) :
    g.params = (shapes.flatten.map Prod.fst).eraseDups.map (paramOf shapes) := by
  rw [h.params_eq, merged, List.map_map]
  rfl

/-- Groups whose shapes are the same have the same parameters. -/
theorem Combines.sameParams (h : Combines g (merged shapes.flatten) shapes)
    (h' : Combines g' (merged others.flatten) others) (hperm : shapes.Perm others) :
    SameParams g.params g'.params := by
  rw [h.params_eq_paramOf, h'.params_eq_paramOf]
  refine ⟨(shapes.flatten.map Prod.fst).eraseDups.map (paramOf others), ?_, ?_⟩
  · rw [List.forall₂_map_left_iff, List.forall₂_map_right_iff, List.forall₂_same]
    intro name _
    exact sameParam_paramOf hperm name
  · exact (eraseDups_perm (hperm.flatten.map Prod.fst)).map _

end Shapes

/-- Two groups of one base name that stand for the same functions and have the
same parameters, each in some order. -/
structure Reordered (g g' : MethodGroup) : Prop where
  name_eq : g.name = g'.name
  overloads : g.overloads.Perm g'.overloads
  params : SameParams g.params g'.params

section OfContract

variable {contract : Contract} {face : Interface}

/-- A combined method has the parameters into which the shapes of its
functions are merged. -/
theorem merged_of_mem_methods (h : (ofContract contract .combine).result = .ok face)
    {g : MethodGroup} (hg : g ∈ face.methods) :
    ∃ shapes, Combines g (merged shapes.flatten) shapes := by
  obtain ⟨plan, -, hmember, -⟩ := plan_of_mem_methods h hg
  obtain ⟨params, shapes, hmerge, hcombines⟩ := combines_of_combined hmember
  obtain ⟨-, -, rfl⟩ := mergeAll_nil_eq_ok.mp hmerge
  exact ⟨shapes, hcombines⟩

/-- The combined methods have the base names of the named functions, each
once. -/
theorem names_methods (h : (ofContract contract .combine).result = .ok face) :
    face.methods.map (·.name) =
      ((Abi.namedFunctions contract.abi).map fun f => baseName f.name).eraseDups := by
  have hplans : face.methods.map (·.name) =
      ((memberNames .combine contract.abi).1.map Prod.snd).map NameGroup.name := by
    rw [List.map_map]
    apply SideBySide.map_eq_map (plans_ofContract h)
    intro plan g hplan
    exact congrArg NameGroup.name (shapes_of_memberOf hplan.2 hplan.1).1
  rw [hplans, snd_memberNames_combine, NameGroup.names_group]

variable {a b : Contract} {other : Interface}

/-- **Methods.**  Contracts with the same entries have combined methods of the
same base names. -/
theorem names_methods_perm (h : a.abi.Perm b.abi)
    (hface : (ofContract a .combine).result = .ok face)
    (hother : (ofContract b .combine).result = .ok other) :
    (face.methods.map (·.name)).Perm (other.methods.map (·.name)) := by
  rw [names_methods hface, names_methods hother]
  exact eraseDups_perm ((Abi.namedFunctions_perm h).map _)

/-- **Groups.**  Combined methods of one base name are the same up to the order
of what they list. -/
theorem reordered_of_perm (h : a.abi.Perm b.abi)
    (hface : (ofContract a .combine).result = .ok face)
    (hother : (ofContract b .combine).result = .ok other) {g g' : MethodGroup}
    (hg : g ∈ face.methods) (hg' : g' ∈ other.methods) (hname : g.name = g'.name) :
    Reordered g g' := by
  have hoverloads : g.overloads.Perm g'.overloads := by
    rw [overloads_of_combine hface hg, overloads_of_combine hother hg', hname]
    exact Abi.sharing_perm h g'.name
  obtain ⟨shapes, hcombines⟩ := merged_of_mem_methods hface hg
  obtain ⟨others, hcombines'⟩ := merged_of_mem_methods hother hg'
  have hperm : shapes.Perm others :=
    shapes_perm hcombines.shaped (hname ▸ hcombines'.shaped) hoverloads
  exact ⟨hname, hoverloads, hcombines.sameParams hcombines' hperm⟩

end OfContract

end Interface

end AbiBindings
