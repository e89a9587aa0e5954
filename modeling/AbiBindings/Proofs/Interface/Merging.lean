import AbiBindings.Interface.Methods
import AbiBindings.Proofs.Descriptor.Checks
import AbiBindings.Proofs.FirstAppearance

/-!
# Merged parameters

The functions behind one member merge their named inputs by name.  The facts
that all later files use: a shape looks its inputs up as the function itself
does (`lookup_inputShape`), so what a function makes of a parameter of its
group is read off its shape (`result_overloadType`); the merged names are the
names of all shapes in the order of first appearance (`shapes_of_mergeAll`);
and the search for two equal conditions comes up empty when all of them
differ (`firstClash?_eq_none_iff`).
-/

namespace AbiBindings.Interface

section Shapes

variable {scope : String}

/-- A shape lists the named inputs with their descriptors. -/
theorem inputShape_eq_ok {inputs : List Abi.Param} {shape : InputShape} :
    (inputShape scope inputs).result = .ok shape ↔
      List.Forall₂ (fun p e => e.1 = p.name ∧ (Descriptor.ofParam scope p).result = .ok e.2)
        (inputs.filter Abi.Param.isNamed) shape := by
  induction inputs generalizing shape with
  | nil => simp [inputShape, eq_comm]
  | cons p rest ih =>
      by_cases hnamed : p.isNamed
      · simp only [inputShape, hnamed, if_true, Outcome.result_bind, Outcome.result_pure,
          bind_eq_ok, ih, List.filter_cons_of_pos, List.forall₂_cons_left_iff]
        constructor
        · intro hall
          obtain ⟨d, hd, others, hothers, h⟩ := hall
          cases h
          exact ⟨(p.name, d), others, ⟨rfl, hd⟩, hothers, rfl⟩
        · intro hall
          obtain ⟨⟨name, d⟩, others, ⟨rfl, hd⟩, hothers, rfl⟩ := hall
          exact ⟨d, hd, others, hothers, rfl⟩
      · simp [inputShape, hnamed, ih]

/-- **Shapes look inputs up.**  Under a name a shape has the descriptor of the
first named input of that name, and nothing where there is no such input. -/
theorem lookup_inputShape {inputs : List Abi.Param} {shape : InputShape}
    (h : (inputShape scope inputs).result = .ok shape) (name : String) :
    match input? inputs name with
    | some p => ∃ d, (Descriptor.ofParam scope p).result = .ok d ∧
        shape.lookup name = some d
    | none => shape.lookup name = none := by
  have hshape := inputShape_eq_ok.mp h
  have hfind : input? inputs name =
      (inputs.filter Abi.Param.isNamed).find? fun p => p.name == name := by
    rw [input?, List.find?_filter]
    congr 1
    funext p
    exact Bool.eq_iff_iff.mpr (by simp)
  rw [hfind]
  clear h hfind
  generalize inputs.filter Abi.Param.isNamed = named at hshape
  induction hshape with
  | nil => simp
  | @cons p e named shape hp _ ih =>
      obtain ⟨entryName, d⟩ := e
      obtain ⟨rfl, hd⟩ := hp
      by_cases heq : p.name = name
      · subst heq
        rw [List.find?_cons_of_pos (by simp)]
        exact ⟨d, hd, by simp⟩
      · have hne : (p.name == name) = false := by simpa using heq
        have hne' : (name == p.name) = false := by simpa using Ne.symm heq
        simpa [List.find?_cons, hne, List.lookup_cons, hne'] using ih

/-- A shape has nothing under the names that it does not list. -/
theorem lookup_eq_none_iff_not_mem {shape : InputShape} {name : String} :
    shape.lookup name = none ↔ name ∉ shape.map Prod.fst := by
  rw [List.lookup_eq_none_iff]
  constructor
  · intro hnone hmem
    obtain ⟨e, he, rfl⟩ := List.mem_map.mp hmem
    simpa using hnone e he
  · intro hname e he
    simpa using fun heq : name = e.1 => hname (heq ▸ List.mem_map_of_mem he)

/-- Every descriptor of a shape is plain. -/
theorem plain_of_inputShape {inputs : List Abi.Param} {shape : InputShape}
    (h : (inputShape scope inputs).result = .ok shape) : ∀ e ∈ shape, e.2.guard ≠ .any := by
  intro e he
  obtain ⟨p, -, -, hd⟩ := SideBySide.exists_item (inputShape_eq_ok.mp h) he
  exact Descriptor.ofParam_guard_ne_any hd

/-- The descriptor that a shape has under a name is plain. -/
theorem guard_ne_any_of_mem_inputShape {inputs : List Abi.Param} {shape : InputShape}
    (h : (inputShape scope inputs).result = .ok shape) {name : String} {d : Descriptor}
    (hd : shape.lookup name = some d) : d.guard ≠ .any := by
  obtain ⟨before, after, rfl, -⟩ := List.lookup_eq_some_iff.mp hd
  exact plain_of_inputShape h (name, d) (by simp)

/-- A shape has the names of the named inputs, in declared order. -/
theorem names_inputShape {inputs : List Abi.Param} {shape : InputShape}
    (h : (inputShape scope inputs).result = .ok shape) :
    shape.map Prod.fst = (inputs.filter Abi.Param.isNamed).map Abi.Param.name := by
  have hshape := inputShape_eq_ok.mp h
  clear h
  generalize inputs.filter Abi.Param.isNamed = named at hshape
  induction hshape with
  | nil => rfl
  | cons hp _ ih => simp [hp.1, ih]

end Shapes

/-- What a function makes of a parameter of its group is what its shape has
under the name. -/
theorem result_overloadType {g : MethodGroup} {f : Abi.Function} {shape : InputShape}
    (h : (inputShape g.name f.inputs).result = .ok shape) (p : GroupParam) :
    (g.overloadType f p).result = .ok (shape.lookup p.name) := by
  have hlookup := lookup_inputShape h p.name
  unfold MethodGroup.overloadType
  cases hinput : input? f.inputs p.name with
  | none =>
      rw [hinput] at hlookup
      simp [show shape.lookup p.name = none from hlookup]
  | some input =>
      rw [hinput] at hlookup
      obtain ⟨d, hd, heq⟩ := hlookup
      simp [hd, heq]

section Merge

variable {function : String}

/-- One more input brings its name, unless it is there. -/
theorem names_mergeInput {input : String × Descriptor} {merged next : InputShape}
    (h : mergeInput function merged input = .ok next) :
    next.map Prod.fst =
      if input.1 ∈ merged.map Prod.fst then merged.map Prod.fst
      else merged.map Prod.fst ++ [input.1] := by
  induction merged generalizing next with
  | nil =>
      cases h
      simp
  | cons entry rest ih =>
      obtain ⟨name, d⟩ := entry
      by_cases heq : name = input.1
      · simp only [mergeInput, heq, if_true, bind_eq_ok] at h
        obtain ⟨both, -, h⟩ := h
        cases h
        simp [heq]
      · simp only [mergeInput, heq, if_false, map_eq_ok] at h
        obtain ⟨later, hlater, rfl⟩ := h
        simp only [List.map_cons, ih hlater]
        split <;> simp_all [eq_comm]

/-- The inputs of one more function bring their names in order. -/
theorem names_mergeShape {shape merged next : InputShape} {names : List String}
    (hnames : merged.map Prod.fst = names.eraseDups)
    (h : mergeShape function merged shape = .ok next) :
    next.map Prod.fst = (names ++ shape.map Prod.fst).eraseDups := by
  induction shape generalizing merged names with
  | nil =>
      cases h
      simpa using hnames
  | cons input rest ih =>
      simp only [mergeShape, bind_eq_ok] at h
      obtain ⟨middle, hmiddle, hrest⟩ := h
      have hstep : middle.map Prod.fst = (names ++ [input.1]).eraseDups := by
        rw [names_mergeInput hmiddle, hnames, eraseDups_concat]
        simp
      simpa using ih hstep hrest

/-- **Merged names.**  Merging takes the shapes of all functions, and the
merged names are those of the shapes, each once, in the order in which they
first appear. -/
theorem shapes_of_mergeAll {fs : List Abi.Function} {merged all : InputShape}
    {shapes : List InputShape} {names : List String}
    (hnames : merged.map Prod.fst = names.eraseDups)
    (h : (mergeAll function merged fs).result = .ok (all, shapes)) :
    List.Forall₂ (fun f s => (inputShape function f.inputs).result = .ok s) fs shapes ∧
      all.map Prod.fst = (names ++ shapes.flatten.map Prod.fst).eraseDups := by
  induction fs generalizing merged names shapes with
  | nil =>
      simp only [mergeAll, Outcome.result_pure] at h
      cases h
      simpa using hnames
  | cons f rest ih =>
      simp only [mergeAll, Outcome.result_bind, Outcome.result_ofExcept,
        Outcome.result_pure, bind_eq_ok] at h
      obtain ⟨shape, hshape, next, hnext, ⟨all', shapes'⟩, hrest, h⟩ := h
      cases h
      obtain ⟨hshapes, hall⟩ := ih (names_mergeShape hnames hnext) hrest
      exact ⟨.cons hshape hshapes, by simpa using hall⟩

end Merge

/-- There is no clash when all keys differ. -/
theorem firstClash?_eq_none_iff {α β : Type} [DecidableEq β] {key : α → β}
    {items : List α} :
    firstClash? key items = none ↔ items.Pairwise fun a b => key a ≠ key b := by
  induction items with
  | nil => simp [firstClash?]
  | cons a rest ih =>
      cases hfind : rest.find? fun b => key b = key a with
      | none =>
          have hdiffer : ∀ b ∈ rest, key a ≠ key b := by
            intro b hb heq
            simpa [heq] using List.find?_eq_none.mp hfind b hb
          simp only [firstClash?, hfind, ih, List.pairwise_cons]
          exact ⟨fun hrest => ⟨hdiffer, hrest⟩, fun hall => hall.2⟩
      | some b =>
          have hb := List.mem_of_find?_eq_some hfind
          have heq : key b = key a := by simpa using List.find?_some hfind
          simp only [firstClash?, hfind, reduceCtorEq, List.pairwise_cons, false_iff]
          intro hall
          exact hall.1 b hb heq.symm

/-- A clash is one of two items in their order that agree in their keys. -/
theorem firstClash?_eq_some {α β : Type} [DecidableEq β] {key : α → β} {items : List α}
    {a b : α} (h : firstClash? key items = some (a, b)) :
    [a, b].Sublist items ∧ key a = key b := by
  induction items with
  | nil => cases h
  | cons first rest ih =>
      cases hfind : rest.find? fun b => key b = key first with
      | some other =>
          rw [firstClash?, hfind] at h
          cases h
          have hother := List.mem_of_find?_eq_some hfind
          have heq : key b = key a := by simpa using List.find?_some hfind
          exact ⟨(List.singleton_sublist.mpr hother).cons_cons a, heq.symm⟩
      | none =>
          rw [firstClash?, hfind] at h
          obtain ⟨hsub, heq⟩ := ih h
          exact ⟨hsub.cons first, heq⟩

end AbiBindings.Interface
