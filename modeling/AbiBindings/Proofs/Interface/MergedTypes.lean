import AbiBindings.Proofs.Descriptor.Combining
import AbiBindings.Proofs.Interface.Merging

/-!
# The types of merged parameters

Merging goes through the inputs one by one and combines what it has with each
of them.  What it has after some inputs does not depend on that order of work:
it is `MergedFrom` of these inputs, one parameter for each of their names, with
the descriptors that the inputs of the name take.  One more input keeps this
(`mergeInput_eq_ok`), so merging succeeds exactly when any two inputs of one
name agree in their descriptors as soon as they agree in their guards
(`mergeAll_eq_ok`), and a conflict is always one between two inputs that do
not (`mergeAll_eq_error`).
-/

namespace AbiBindings.Interface

open Descriptor

/-- The descriptors that the inputs of that name take, in order. -/
def taken (inputs : InputShape) (name : String) : List Descriptor :=
  (inputs.filter fun p => p.1 = name).map Prod.snd

/-- The parameters into which inputs are merged. -/
def merged (inputs : InputShape) : InputShape :=
  (inputs.map Prod.fst).eraseDups.map fun name => (name, ofMembers (taken inputs name).eraseDups)

/-- Every guard of an input tells something, and no input has the guard of
another one of its name without having its descriptor. -/
structure Mergeable (inputs : InputShape) : Prop where
  plain : ∀ p ∈ inputs, p.2.guard ≠ .any
  apart : ∀ p ∈ inputs, ∀ q ∈ inputs, p.1 = q.1 → p.2.guard = q.2.guard → p.2 = q.2

theorem mem_taken {inputs : InputShape} {name : String} {d : Descriptor} :
    d ∈ taken inputs name ↔ (name, d) ∈ inputs := by
  simp [taken]

theorem taken_concat (inputs : InputShape) (input : String × Descriptor) (name : String) :
    taken (inputs ++ [input]) name =
      if input.1 = name then taken inputs name ++ [input.2] else taken inputs name := by
  by_cases heq : input.1 = name <;> simp [taken, heq]

theorem Mergeable.nil : Mergeable [] := ⟨by simp, by simp⟩

theorem Mergeable.of_append {inputs others : InputShape} (h : Mergeable (inputs ++ others)) :
    Mergeable inputs :=
  ⟨fun p hp => h.plain p (List.mem_append_left _ hp), fun p hp q hq =>
    h.apart p (List.mem_append_left _ hp) q (List.mem_append_left _ hq)⟩

/-- Of mergeable inputs the descriptors of one name are told apart. -/
theorem Mergeable.toldApart {inputs : InputShape} (h : Mergeable inputs) (name : String) :
    ToldApart (taken inputs name).eraseDups := by
  constructor
  · intro d hd
    exact h.plain (name, d) (mem_taken.mp (by simpa using hd))
  · have hnodup := nodup_eraseDups (taken inputs name)
    refine hnodup.imp_of_mem ?_
    intro d e hd he hne hguard
    have hd' : (name, d) ∈ inputs := mem_taken.mp (by simpa using hd)
    have he' : (name, e) ∈ inputs := mem_taken.mp (by simpa using he)
    exact hne (h.apart _ hd' _ he' rfl hguard)

/-- One more input is mergeable with others when none of its name has its
guard and another descriptor. -/
theorem Mergeable.concat_iff {inputs : InputShape} (h : Mergeable inputs) {name : String}
    {d : Descriptor} (hd : d.guard ≠ .any) :
    Mergeable (inputs ++ [(name, d)]) ↔
      ∀ e ∈ taken inputs name, e ≠ d → e.guard ≠ d.guard := by
  constructor
  · intro hall e he hne hguard
    have he' : (name, e) ∈ inputs ++ [(name, d)] :=
      List.mem_append_left _ (mem_taken.mp he)
    exact hne (hall.apart _ he' (name, d) (by simp) rfl hguard)
  · intro hall
    have hnew : ∀ p ∈ inputs, p.1 = name → p.2.guard = d.guard → p.2 = d := by
      intro p hp hname hguard
      by_contra hne
      exact hall p.2 (mem_taken.mpr (hname ▸ hp)) hne hguard
    constructor
    · intro p hp
      rcases List.mem_append.mp hp with hp | hp
      · exact h.plain p hp
      · rw [List.mem_singleton.mp hp]
        exact hd
    · intro p hp q hq hname hguard
      rcases List.mem_append.mp hp with hp | hp <;> rcases List.mem_append.mp hq with hq | hq
      · exact h.apart p hp q hq hname hguard
      · obtain rfl := List.mem_singleton.mp hq
        exact hnew p hp hname hguard
      · obtain rfl := List.mem_singleton.mp hp
        exact (hnew q hq hname.symm hguard.symm).symm
      · rw [List.mem_singleton.mp hp, List.mem_singleton.mp hq]

section Shapes

variable {scope : String} {params : List Abi.Param} {shape : InputShape}

/-- A shape has the descriptors of the named inputs. -/
theorem mem_inputShape (h : (inputShape scope params).result = .ok shape) {name : String}
    {d : Descriptor} :
    (name, d) ∈ shape ↔ ∃ p ∈ params, p.isNamed = true ∧ p.name = name ∧
      (ofParam scope p).result = .ok d := by
  have hshape := inputShape_eq_ok.mp h
  constructor
  · intro hmem
    obtain ⟨p, hp, hname, hd⟩ := SideBySide.exists_item hshape hmem
    obtain ⟨hp, hnamed⟩ := List.mem_filter.mp hp
    exact ⟨p, hp, hnamed, hname.symm, hd⟩
  · intro hall
    obtain ⟨p, hp, hnamed, rfl, hd⟩ := hall
    obtain ⟨⟨name, e⟩, hmem, rfl, he⟩ :=
      SideBySide.exists_value hshape (List.mem_filter.mpr ⟨hp, hnamed⟩)
    have heq : e = d := by simpa [hd, eq_comm] using he
    rwa [heq] at hmem

/-- Where there is no shape, a named input has no descriptor. -/
theorem inputShape_eq_error {fault : Fault}
    (h : (inputShape scope params).result = .error fault) :
    ∃ p ∈ params, p.isNamed = true ∧ (ofParam scope p).result = .error fault := by
  induction params with
  | nil => cases h
  | cons p rest ih =>
      by_cases hnamed : p.isNamed
      · simp only [inputShape, hnamed, if_true, Outcome.result_bind, Outcome.result_pure,
          bind_eq_error, reduceCtorEq, and_false, exists_false, or_false] at h
        rcases h with hp | ⟨d, -, hrest⟩
        · exact ⟨p, List.mem_cons_self, hnamed, hp⟩
        · obtain ⟨q, hq, hall⟩ := ih hrest
          exact ⟨q, List.mem_cons_of_mem _ hq, hall⟩
      · rw [inputShape, if_neg hnamed] at h
        obtain ⟨q, hq, hall⟩ := ih h
        exact ⟨q, List.mem_cons_of_mem _ hq, hall⟩

end Shapes

/-- Some input of that name of some of the functions takes that descriptor. -/
def Takes (scope : String) (fs : List Abi.Function) (name : String) (d : Descriptor) : Prop :=
  ∃ f ∈ fs, ∃ p ∈ f.inputs, p.isNamed = true ∧ p.name = name ∧
    (ofParam scope p).result = .ok d

theorem Takes.of_mem {scope : String} {fs : List Abi.Function} {f : Abi.Function}
    {shape : InputShape} (hf : f ∈ fs) (h : (inputShape scope f.inputs).result = .ok shape)
    {name : String} {d : Descriptor} (hmem : (name, d) ∈ shape) : Takes scope fs name d :=
  ⟨f, hf, (mem_inputShape h).mp hmem⟩

/-- The shapes of functions have what the functions take. -/
theorem mem_flatten_shapes {scope : String} {fs : List Abi.Function}
    {shapes : List InputShape}
    (h : List.Forall₂ (fun f s => (inputShape scope f.inputs).result = .ok s) fs shapes)
    {name : String} {d : Descriptor} :
    (name, d) ∈ shapes.flatten ↔ Takes scope fs name d := by
  rw [List.mem_flatten]
  constructor
  · intro hall
    obtain ⟨shape, hshape, hmem⟩ := hall
    obtain ⟨f, hf, hok⟩ := SideBySide.exists_item h hshape
    exact .of_mem hf hok hmem
  · intro htakes
    obtain ⟨f, hf, hall⟩ := htakes
    obtain ⟨shape, hshape, hok⟩ := SideBySide.exists_value h hf
    exact ⟨shape, hshape, (mem_inputShape hok).mpr hall⟩

section Merge

variable {function : String}

/-- In a table of parameters an input is combined with the parameter of its
name, or it is a parameter of its own. -/
theorem mergeInput_table {names : List String} (hnodup : names.Nodup)
    (type : String → Descriptor) (name : String) (d : Descriptor) :
    mergeInput function (names.map fun n => (n, type n)) (name, d) =
      if name ∈ names then
        (fun both => names.map fun n => (n, if n = name then both else type n)) <$>
          combine function name (type name) d
      else .ok (names.map (fun n => (n, type n)) ++ [(name, d)]) := by
  induction names with
  | nil => simp [mergeInput]
  | cons first rest ih =>
      obtain ⟨hfresh, hrest⟩ := List.nodup_cons.mp hnodup
      by_cases heq : first = name
      · subst heq
        -- no later parameter has the name, so the others stay as they are
        have hothers : ∀ both : Descriptor,
            (rest.map fun n => (n, if n = first then both else type n)) =
              rest.map fun n => (n, type n) := by
          intro both
          apply List.map_congr_left
          intro n hn
          have hne : n ≠ first := fun heq => hfresh (heq ▸ hn)
          rw [if_neg hne]
        simp only [List.map_cons, mergeInput, if_true, List.mem_cons_self, hothers]
        cases combine function first (type first) d <;> rfl
      · have hne : name ≠ first := fun h => heq h.symm
        simp only [List.map_cons, mergeInput, heq, if_false, ih hrest, List.mem_cons, hne,
          false_or]
        split
        · cases combine function name (type name) d <;> rfl
        · rfl

variable {inputs : InputShape}

/-- What one more input makes of merged parameters. -/
private theorem mergeInput_merged (h : Mergeable inputs) {name : String} {d : Descriptor}
    (hd : d.guard ≠ .any) :
    mergeInput function (merged inputs) (name, d) =
      if name ∈ inputs.map Prod.fst then
        (fun ds => (inputs.map Prod.fst).eraseDups.map fun n =>
          (n, if n = name then ofMembers ds else ofMembers (taken inputs n).eraseDups)) <$>
          accept function name (taken inputs name).eraseDups [d]
      else .ok (merged inputs ++ [(name, d)]) := by
  rw [merged, mergeInput_table (nodup_eraseDups _), combine_ofMembers (h.toldApart name) hd]
  simp only [List.mem_eraseDups]
  split
  · cases accept function name (taken inputs name).eraseDups [d] <;> rfl
  · rfl

/-- The parameters with one more input. -/
private theorem merged_concat {name : String} (d : Descriptor) :
    merged (inputs ++ [(name, d)]) =
      if name ∈ inputs.map Prod.fst then
        (inputs.map Prod.fst).eraseDups.map fun n =>
          (n, if n = name then
              ofMembers (if d ∈ (taken inputs name).eraseDups then (taken inputs name).eraseDups
                else (taken inputs name).eraseDups ++ [d])
            else ofMembers (taken inputs n).eraseDups)
      else merged inputs ++ [(name, d)] := by
  rw [merged, List.map_append, List.map_singleton, eraseDups_concat]
  simp only [taken_concat]
  by_cases hmem : name ∈ inputs.map Prod.fst
  · rw [if_pos hmem, if_pos hmem]
    apply List.map_congr_left
    intro n _
    by_cases heq : name = n
    · subst heq
      simp [eraseDups_concat]
    · have hne : n ≠ name := fun h => heq h.symm
      simp [heq, hne]
  · rw [if_neg hmem, if_neg hmem, List.map_append, List.map_singleton]
    have hnone : taken inputs name = [] := by
      apply List.eq_nil_iff_forall_not_mem.mpr
      intro e he
      exact hmem (List.mem_map.mpr ⟨(name, e), mem_taken.mp he, rfl⟩)
    congr 1
    · apply List.map_congr_left
      intro n hn
      have hne : name ≠ n := by
        intro heq
        subst heq
        exact hmem (by simpa using hn)
      simp [hne]
    · simp [hnone, ofMembers, List.eraseDups_cons]

/-- **Step.**  One more input is merged exactly when it is mergeable with the
inputs before it. -/
theorem mergeInput_eq_ok (h : Mergeable inputs) {input : String × Descriptor}
    (hd : input.2.guard ≠ .any) {next : InputShape} :
    mergeInput function (merged inputs) input = .ok next ↔
      Mergeable (inputs ++ [input]) ∧ next = merged (inputs ++ [input]) := by
  obtain ⟨name, d⟩ := input
  rw [mergeInput_merged h hd, merged_concat, h.concat_iff hd]
  by_cases hmem : name ∈ inputs.map Prod.fst
  · simp only [hmem, if_true, map_eq_ok, accept_singleton_eq_ok (h.toldApart name) hd,
      List.mem_eraseDups]
    constructor
    · intro hall
      obtain ⟨ds, ⟨hapart, rfl⟩, rfl⟩ := hall
      exact ⟨hapart, rfl⟩
    · intro hall
      obtain ⟨hapart, rfl⟩ := hall
      exact ⟨_, ⟨hapart, rfl⟩, rfl⟩
  · have hnone : ∀ e ∈ taken inputs name, e ≠ d → e.guard ≠ d.guard := by
      intro e he
      exact absurd (List.mem_map.mpr ⟨(name, e), mem_taken.mp he, rfl⟩) hmem
    simp only [hmem, if_false, Except.ok.injEq, eq_comm (b := next)]
    exact ⟨fun hnext => ⟨hnone, hnext⟩, fun hall => hall.2⟩

/-- **Step.**  An input that is not merged has the guard of another input of
its name. -/
theorem mergeInput_eq_error (h : Mergeable inputs) {input : String × Descriptor}
    (hd : input.2.guard ≠ .any) {fault : Fault}
    (herror : mergeInput function (merged inputs) input = .error fault) :
    ∃ e, (input.1, e) ∈ inputs ∧ e ≠ input.2 ∧ e.guard = input.2.guard ∧
      fault = .typeConflict function input.1 e input.2 := by
  obtain ⟨name, d⟩ := input
  rw [mergeInput_merged h hd] at herror
  split at herror
  · obtain ⟨e, he, hne, hguard, hfault⟩ :=
      accept_singleton_eq_error (h.toldApart name) hd (map_eq_error.mp herror)
    exact ⟨e, mem_taken.mp (by simpa using he), hne, hguard, hfault⟩
  · cases herror

/-- **Run.**  The inputs of one more function are merged exactly when they are
mergeable with the inputs before them. -/
theorem mergeShape_eq_ok (h : Mergeable inputs) {shape next : InputShape}
    (hshape : ∀ p ∈ shape, p.2.guard ≠ .any) :
    mergeShape function (merged inputs) shape = .ok next ↔
      Mergeable (inputs ++ shape) ∧ next = merged (inputs ++ shape) := by
  induction shape generalizing inputs with
  | nil => simp [mergeShape, h, eq_comm]
  | cons input rest ih =>
      obtain ⟨hinput, hrest⟩ := List.forall_mem_cons.mp hshape
      have hsplit : inputs ++ input :: rest = (inputs ++ [input]) ++ rest := by simp
      simp only [mergeShape, bind_eq_ok, mergeInput_eq_ok h hinput, hsplit]
      constructor
      · intro hall
        obtain ⟨middle, ⟨hmiddle, rfl⟩, hnext⟩ := hall
        exact (ih hmiddle hrest).mp hnext
      · intro hall
        have hmiddle := hall.1.of_append
        exact ⟨_, ⟨hmiddle, rfl⟩, (ih hmiddle hrest).mpr hall⟩

/-- **Run.**  Where the inputs of one more function are not merged, two inputs
of one name have one guard and two descriptors. -/
theorem mergeShape_eq_error (h : Mergeable inputs) {shape : InputShape}
    (hshape : ∀ p ∈ shape, p.2.guard ≠ .any) {fault : Fault}
    (herror : mergeShape function (merged inputs) shape = .error fault) :
    ∃ name e d, (name, e) ∈ inputs ++ shape ∧ (name, d) ∈ inputs ++ shape ∧ e ≠ d ∧
      e.guard = d.guard ∧ fault = .typeConflict function name e d := by
  induction shape generalizing inputs with
  | nil => cases herror
  | cons input rest ih =>
      obtain ⟨hinput, hrest⟩ := List.forall_mem_cons.mp hshape
      have hsplit : inputs ++ input :: rest = (inputs ++ [input]) ++ rest := by simp
      rcases bind_eq_error.mp herror with hfirst | ⟨next, hnext, hlater⟩
      · obtain ⟨e, he, hne, hguard, hfault⟩ := mergeInput_eq_error h hinput hfirst
        exact ⟨input.1, e, input.2, List.mem_append_left _ he,
          List.mem_append_right _ List.mem_cons_self, hne, hguard, hfault⟩
      · obtain ⟨hmiddle, rfl⟩ := (mergeInput_eq_ok h hinput).mp hnext
        rw [hsplit]
        exact ih hmiddle hrest hlater

/-- **Run.**  Functions are merged exactly when each of them has a shape and
all inputs of the shapes are mergeable. -/
theorem mergeAll_eq_ok (h : Mergeable inputs) {fs : List Abi.Function} {all : InputShape}
    {shapes : List InputShape} :
    (mergeAll function (merged inputs) fs).result = .ok (all, shapes) ↔
      List.Forall₂ (fun f s => (inputShape function f.inputs).result = .ok s) fs shapes ∧
        Mergeable (inputs ++ shapes.flatten) ∧ all = merged (inputs ++ shapes.flatten) := by
  induction fs generalizing inputs shapes with
  | nil =>
      simp only [mergeAll, Outcome.result_pure, Except.ok.injEq, Prod.mk.injEq,
        List.forall₂_nil_left_iff]
      constructor
      · intro hall
        obtain ⟨rfl, rfl⟩ := hall
        simp [h]
      · intro hall
        obtain ⟨rfl, -, rfl⟩ := hall
        simp
  | cons f rest ih =>
      simp only [mergeAll, Outcome.result_bind, Outcome.result_ofExcept, Outcome.result_pure,
        bind_eq_ok, List.forall₂_cons_left_iff]
      constructor
      · intro hall
        obtain ⟨shape, hshape, next, hnext, ⟨later, others⟩, hrest, heq⟩ := hall
        cases heq
        obtain ⟨hmiddle, rfl⟩ := (mergeShape_eq_ok h (plain_of_inputShape hshape)).mp hnext
        obtain ⟨hothers, hall⟩ := (ih hmiddle).mp hrest
        exact ⟨⟨shape, others, hshape, hothers, rfl⟩, by simpa using hall⟩
      · intro hall
        obtain ⟨⟨shape, others, hshape, hothers, rfl⟩, hmerge⟩ := hall
        have hmerge' : Mergeable ((inputs ++ shape) ++ others.flatten) ∧
            all = merged ((inputs ++ shape) ++ others.flatten) := by simpa using hmerge
        have hmiddle := hmerge'.1.of_append
        exact ⟨shape, hshape, _,
          (mergeShape_eq_ok h (plain_of_inputShape hshape)).mpr ⟨hmiddle, rfl⟩, (all, others),
          (ih hmiddle).mpr ⟨hothers, hmerge'⟩, rfl⟩

/-- The parameters of functions, where nothing was merged before. -/
theorem mergeAll_nil_eq_ok {fs : List Abi.Function} {all : InputShape}
    {shapes : List InputShape} :
    (mergeAll function [] fs).result = .ok (all, shapes) ↔
      List.Forall₂ (fun f s => (inputShape function f.inputs).result = .ok s) fs shapes ∧
        Mergeable shapes.flatten ∧ all = merged shapes.flatten := by
  rw [show ([] : InputShape) = merged [] from rfl, mergeAll_eq_ok Mergeable.nil, List.nil_append]

/-- **Run.**  Where functions are not merged, a named input has no descriptor,
or two inputs of one name have one guard and two descriptors. -/
theorem mergeAll_eq_error (h : Mergeable inputs) {fs : List Abi.Function} {fault : Fault}
    (herror : (mergeAll function (merged inputs) fs).result = .error fault) :
    (∃ f ∈ fs, ∃ p ∈ f.inputs, p.isNamed = true ∧
      (ofParam function p).result = .error fault) ∨
    ∃ name e d, ((name, e) ∈ inputs ∨ Takes function fs name e) ∧
      ((name, d) ∈ inputs ∨ Takes function fs name d) ∧ e ≠ d ∧ e.guard = d.guard ∧
      fault = .typeConflict function name e d := by
  induction fs generalizing inputs with
  | nil => cases herror
  | cons f rest ih =>
      simp only [mergeAll, Outcome.result_bind, Outcome.result_ofExcept, Outcome.result_pure,
        bind_eq_error, reduceCtorEq, and_false, exists_false, or_false] at herror
      rcases herror with hfirst | ⟨shape, hshape, hconflict | ⟨next, hnext, hlater⟩⟩
      · exact .inl ⟨f, List.mem_cons_self, inputShape_eq_error hfirst⟩
      · -- the conflict is between inputs seen before and those of this function
        obtain ⟨name, e, d, he, hd, hne, hguard, hfault⟩ :=
          mergeShape_eq_error h (plain_of_inputShape hshape) hconflict
        have hseen : ∀ {x : Descriptor}, (name, x) ∈ inputs ++ shape →
            (name, x) ∈ inputs ∨ Takes function (f :: rest) name x := fun hx =>
          (List.mem_append.mp hx).imp_right (Takes.of_mem List.mem_cons_self hshape)
        exact .inr ⟨name, e, d, hseen he, hseen hd, hne, hguard, hfault⟩
      · obtain ⟨hmiddle, rfl⟩ := (mergeShape_eq_ok h (plain_of_inputShape hshape)).mp hnext
        rcases ih hmiddle hlater with ⟨f', hf', hall⟩ | hconflict
        · exact .inl ⟨f', List.mem_cons_of_mem _ hf', hall⟩
        · obtain ⟨name, e, d, he, hd, hrest⟩ := hconflict
          have hseen : ∀ {x : Descriptor},
              ((name, x) ∈ inputs ++ shape ∨ Takes function rest name x) →
              (name, x) ∈ inputs ∨ Takes function (f :: rest) name x := by
            intro x hx
            rcases hx with hx | ⟨f', hf', hall⟩
            · exact (List.mem_append.mp hx).imp_right (Takes.of_mem List.mem_cons_self hshape)
            · exact .inr ⟨f', List.mem_cons_of_mem _ hf', hall⟩
          exact .inr ⟨name, e, d, hseen he, hseen hd, hrest⟩

end Merge

end AbiBindings.Interface
