import AbiBindings.Proofs.Interface.Merging
import AbiBindings.Proofs.Interface.Naming

/-!
# The methods of an interface

When a contract has an interface, each method of it stands for the functions
of one plan, under the name that the plan was given, and its parameters have
exactly the names of their named inputs (`shapes_of_memberOf`).  Combined
functions moreover differ in their conditions (`combines_of_mem_methods`), and
they are all named functions of one base name (`overloads_of_combine`).  Read over the
whole interface, the functions behind the methods are the named functions in
grouped order, and the subscriptions the named events (`overloads_ofContract`,
`events_ofContract`).
-/

namespace AbiBindings.Abi

/-- The constructors among the entries. -/
def constructors (entries : List Entry) : List Constructor :=
  entries.filterMap fun
    | .constructor c => some c
    | _ => none

end AbiBindings.Abi

namespace AbiBindings.Interface

/-- The search for the constructor succeeds when there is one at most, what
was seen before it counted. -/
theorem constructorOf_eq_ok {contract : String} {seen found : Option Abi.Constructor}
    {entries : List Abi.Entry} :
    (constructorOf contract seen entries).result = .ok found ↔
      seen.toList ++ Abi.constructors entries = found.toList := by
  induction entries generalizing seen with
  | nil => cases seen <;> cases found <;> simp [constructorOf, Abi.constructors]
  | cons entry rest ih =>
      cases entry with
      | constructor c =>
          cases seen with
          | none => simpa [constructorOf, Abi.constructors] using @ih (some c)
          | some s => cases found <;> simp [constructorOf, Abi.constructors]
      | function f =>
          rw [constructorOf, Outcome.result_bind]
          · exact ih
          · intro c h
            cases h
      | event e =>
          rw [constructorOf, Outcome.result_bind]
          · exact ih
          · intro c h
            cases h

/-- The search for the constructor ends with a fault when there are several. -/
theorem constructorOf_eq_error {contract : String} {seen : Option Abi.Constructor}
    {entries : List Abi.Entry} {fault : Fault}
    (h : (constructorOf contract seen entries).result = .error fault) :
    fault = .duplicateConstructor contract ∧
      1 < (seen.toList ++ Abi.constructors entries).length := by
  induction entries generalizing seen with
  | nil => cases h
  | cons entry rest ih =>
      cases entry with
      | constructor c =>
          cases seen with
          | none => simpa [Abi.constructors] using @ih (some c) h
          | some s =>
              cases h
              simp [Abi.constructors]
      | function f =>
          rw [constructorOf, Outcome.result_bind] at h
          · exact ih h
          · intro c hc
            cases hc
      | event e =>
          rw [constructorOf, Outcome.result_bind] at h
          · exact ih h
          · intro c hc
            cases hc

/-- Combined functions are a member when all of their conditions differ and
their outputs look the same. -/
theorem combined_eq_ok {ident : String} {g : NameGroup Abi.Function} {m : MethodGroup} :
    (combined ident g).result = .ok m ↔
      ∃ params shapes, (mergeAll g.name [] g.items).result = .ok (params, shapes) ∧
        ((g.items.zip shapes).Pairwise fun a b =>
          condition params a.2 ≠ condition params b.2) ∧
        (∀ f ∈ g.others, sameOutputs g.first.outputs f.outputs = true) ∧
        m = { toNameGroup := g, ident, params := params.map (groupParam shapes) } := by
  simp only [combined, Outcome.result_bind, bind_eq_ok, Prod.exists]
  refine exists_congr fun params => exists_congr fun shapes => and_congr_right fun _ => ?_
  cases hclash : firstClash? (fun fs => condition params fs.2) (g.items.zip shapes) with
  | some pair =>
      have hnone : ¬ ((g.items.zip shapes).Pairwise fun a b =>
          condition params a.2 ≠ condition params b.2) := by
        intro hpairwise
        have hclashNone := firstClash?_eq_none_iff.mpr hpairwise
        simp [hclash] at hclashNone
      simp [hnone]
  | none =>
      have hpairwise := firstClash?_eq_none_iff.mp hclash
      cases hfind : g.others.find? fun f => !sameOutputs g.first.outputs f.outputs with
      | some f =>
          have hmem := List.mem_of_find?_eq_some hfind
          have hdiffer : sameOutputs g.first.outputs f.outputs = false := by
            simpa using List.find?_some hfind
          simp only [hpairwise, true_and, Outcome.result_fail, reduceCtorEq, false_iff]
          intro hall
          obtain ⟨hsame, -⟩ := hall
          simp [hsame f hmem] at hdiffer
      | none =>
          have hsame : ∀ f ∈ g.others, sameOutputs g.first.outputs f.outputs = true := by
            intro f hf
            simpa using List.find?_eq_none.mp hfind f hf
          simp only [hpairwise, true_and, Outcome.result_pure, Except.ok.injEq]
          exact ⟨fun h => ⟨hsame, h.symm⟩, fun h => h.2.symm⟩

/-- A method declares its parameters by their identifiers. -/
theorem MethodGroup.names_parameters (g : MethodGroup) :
    g.parameters.map Script.Param.name = g.params.map GroupParam.ident := by
  rw [MethodGroup.parameters, List.map_map]
  rfl

/-- The member that a plan becomes under a policy. -/
def memberOf (policy : Policy) (ident : String) (g : NameGroup Abi.Function) :
    Outcome MethodGroup :=
  match policy with
  | .combine => combined ident g
  | .mangle => alone ident g

/-- Each plan becomes a member. -/
theorem methodGroups_eq_mapM (policy : Policy)
    (plans : List (String × NameGroup Abi.Function)) :
    methodGroups policy plans = plans.mapM fun plan => memberOf policy plan.1 plan.2 := by
  induction plans with
  | nil => rfl
  | cons plan rest ih =>
      obtain ⟨ident, g⟩ := plan
      cases policy <;> simp [methodGroups, memberOf, ih, List.mapM_cons]

/-- The names of the group parameters of merged inputs. -/
theorem names_groupParams (params : InputShape) (shapes : List InputShape) :
    (params.map (groupParam shapes)).map GroupParam.name = params.map Prod.fst := by
  simp [groupParam, Function.comp_def]

/-- A plan that is mangled has one function. -/
def Single (policy : Policy) (g : NameGroup Abi.Function) : Prop :=
  policy = .mangle → g.others = []

/-- **Members.**  A member stands for the functions of its plan; each of them
has a shape, and the parameters have the names of the shapes. -/
theorem shapes_of_memberOf {policy : Policy} {ident : String}
    {g : NameGroup Abi.Function} {m : MethodGroup} (hsingle : Single policy g)
    (h : (memberOf policy ident g).result = .ok m) :
    m.toNameGroup = g ∧ m.ident = ident ∧ ∃ shapes,
      List.Forall₂ (fun f s => (inputShape m.name f.inputs).result = .ok s)
        m.overloads shapes ∧
      ∀ name, name ∈ m.params.map GroupParam.name ↔ ∃ s ∈ shapes, name ∈ s.map Prod.fst := by
  cases policy with
  | combine =>
      obtain ⟨params, shapes, hmerge, -, -, rfl⟩ := combined_eq_ok.mp h
      have hempty : ([] : InputShape).map Prod.fst = ([] : List String).eraseDups := rfl
      obtain ⟨hshapes, hnames⟩ := shapes_of_mergeAll hempty hmerge
      refine ⟨rfl, rfl, shapes, hshapes, ?_⟩
      intro name
      rw [names_groupParams, hnames, List.mem_eraseDups]
      simp only [List.nil_append, List.mem_map, List.mem_flatten]
      grind
  | mangle =>
      simp only [memberOf, alone, Outcome.result_bind, Outcome.result_pure, bind_eq_ok] at h
      obtain ⟨shape, hshape, h⟩ := h
      cases h
      refine ⟨rfl, rfl, [shape], ?_, ?_⟩
      · simpa [MethodGroup.overloads, NameGroup.items, hsingle rfl] using hshape
      · intro name
        rw [names_groupParams]
        simp

/-- What sets the functions behind a combined method apart: each has a shape,
and by the merged parameters no two shapes have the same condition. -/
structure Combines (g : MethodGroup) (params : InputShape) (shapes : List InputShape) :
    Prop where
  shaped : List.Forall₂ (fun f s => (inputShape g.name f.inputs).result = .ok s)
    g.overloads shapes
  differ : shapes.Pairwise fun s s' => condition params s ≠ condition params s'
  params_eq : g.params = params.map (groupParam shapes)

/-- The functions of a combined member are merged into its parameters and set
apart by them. -/
theorem combines_of_combined {ident : String} {g : NameGroup Abi.Function} {m : MethodGroup}
    (h : (combined ident g).result = .ok m) :
    ∃ params shapes, (mergeAll g.name [] g.items).result = .ok (params, shapes) ∧
      Combines m params shapes := by
  obtain ⟨params, shapes, hmerge, hdiffer, -, rfl⟩ := combined_eq_ok.mp h
  have hempty : ([] : InputShape).map Prod.fst = ([] : List String).eraseDups := rfl
  obtain ⟨hshapes, -⟩ := shapes_of_mergeAll hempty hmerge
  refine ⟨params, shapes, hmerge, hshapes, ?_, rfl⟩
  have hlength : shapes.length ≤ g.items.length := Nat.le_of_eq hshapes.length_eq.symm
  rw [← List.map_snd_zip hlength]
  exact List.pairwise_map.mpr hdiffer

section OfContract

variable {contract : Contract} {policy : Policy} {face : Interface}

/-- A contract has an interface when it has one constructor at most and its
plans all become members. -/
theorem ofContract_eq_ok :
    (ofContract contract policy).result = .ok face ↔
      ∃ constructor groups,
        (constructorOf contract.name none contract.abi).result = .ok constructor ∧
        List.Forall₂ (fun plan m => (memberOf policy plan.1 plan.2).result = .ok m)
          (memberNames policy contract.abi).1 groups ∧
        face = {
          contract := contract.name
          constructor
          methods := groups
          events := (memberNames policy contract.abi).2.map fun b => ⟨b.1, b.2⟩
          signatures := contract.abi.filterMap Abi.Entry.signature? } := by
  simp only [ofContract, Outcome.result_bind, Outcome.result_pure, bind_eq_ok,
    methodGroups_eq_mapM, Outcome.result_mapM_eq_ok]
  constructor
  · intro hall
    obtain ⟨constructor, hconstructor, groups, hgroups, h⟩ := hall
    cases h
    exact ⟨constructor, groups, hconstructor, hgroups, rfl⟩
  · intro hall
    obtain ⟨constructor, groups, hconstructor, hgroups, rfl⟩ := hall
    exact ⟨constructor, hconstructor, groups, hgroups, rfl⟩

/-- Each plan of a mangled contract has one function. -/
theorem single_of_mem_memberNames {entries : List Abi.Entry}
    {plan : String × NameGroup Abi.Function} (hplan : plan ∈ (memberNames policy entries).1) :
    Single policy plan.2 := by
  intro heq
  subst heq
  have hsnd : plan.2 ∈ (methodRequests .mangle entries).map Prod.snd := by
    rw [← Registry.snd_serveAll (openRegistry .mangle entries)]
    exact List.mem_map_of_mem hplan
  simp only [methodRequests, List.map_flatMap, List.mem_flatMap] at hsnd
  obtain ⟨g, -, hg⟩ := hsnd
  by_cases hshared : g.isShared
  · simp only [methodPlans, hshared, if_true, List.map_map, List.mem_map] at hg
    obtain ⟨f, -, hf⟩ := hg
    rw [← hf]
    rfl
  · have hplan : plan.2 = g := by simpa [methodPlans, hshared] using hg
    rw [hplan]
    simpa [NameGroup.isShared] using hshared

/-- The plans of a combined contract are its groups. -/
theorem snd_memberNames_combine (entries : List Abi.Entry) :
    (memberNames .combine entries).1.map Prod.snd =
      NameGroup.group Abi.Function.name (Abi.namedFunctions entries) := by
  have hserve : (memberNames .combine entries).1.map Prod.snd =
      (methodRequests .combine entries).map Prod.snd :=
    Registry.snd_serveAll (openRegistry .combine entries) _
  rw [hserve]
  simp [methodRequests, methodPlans, List.map_flatMap]

theorem mem_group_of_mem_memberNames {entries : List Abi.Entry}
    {plan : String × NameGroup Abi.Function}
    (hplan : plan ∈ (memberNames .combine entries).1) :
    plan.2 ∈ NameGroup.group Abi.Function.name (Abi.namedFunctions entries) := by
  rw [← snd_memberNames_combine]
  exact List.mem_map_of_mem hplan

/-- The plans that the methods of an interface were made from. -/
theorem plans_ofContract (h : (ofContract contract policy).result = .ok face) :
    List.Forall₂ (fun plan m => (memberOf policy plan.1 plan.2).result = .ok m ∧
        Single policy plan.2)
      (memberNames policy contract.abi).1 face.methods := by
  obtain ⟨constructor, groups, -, hgroups, rfl⟩ := ofContract_eq_ok.mp h
  refine List.forall₂_iff_zip.mpr ⟨hgroups.length_eq, ?_⟩
  intro plan m hmem
  exact ⟨(List.forall₂_iff_zip.mp hgroups).2 hmem,
    single_of_mem_memberNames (List.of_mem_zip hmem).1⟩

/-- Each method was made from a plan. -/
theorem plan_of_mem_methods (h : (ofContract contract policy).result = .ok face)
    {g : MethodGroup} (hg : g ∈ face.methods) :
    ∃ plan ∈ (memberNames policy contract.abi).1,
      (memberOf policy plan.1 plan.2).result = .ok g ∧ Single policy plan.2 :=
  SideBySide.exists_item (plans_ofContract h) hg

/-- **Methods.**  Each function behind a method has a shape, and the
parameters of the method have the names of the shapes. -/
theorem shapes_of_mem_methods (h : (ofContract contract policy).result = .ok face)
    {g : MethodGroup} (hg : g ∈ face.methods) :
    ∃ shapes, List.Forall₂ (fun f s => (inputShape g.name f.inputs).result = .ok s)
        g.overloads shapes ∧
      ∀ name, name ∈ g.params.map GroupParam.name ↔ ∃ s ∈ shapes, name ∈ s.map Prod.fst := by
  obtain ⟨plan, -, hmember, hsingle⟩ := plan_of_mem_methods h hg
  exact (shapes_of_memberOf hsingle hmember).2.2

/-- A method has a parameter for each named input of the functions behind
it. -/
theorem name_mem_params (h : (ofContract contract policy).result = .ok face)
    {g : MethodGroup} (hg : g ∈ face.methods) {f : Abi.Function} (hf : f ∈ g.overloads)
    {input : Abi.Param} (hinput : input ∈ f.inputs) (hnamed : input.isNamed = true) :
    input.name ∈ g.params.map GroupParam.name := by
  obtain ⟨shapes, hshapes, hnames⟩ := shapes_of_mem_methods h hg
  obtain ⟨shape, hmem, hshape⟩ := SideBySide.exists_value hshapes hf
  refine (hnames input.name).mpr ⟨shape, hmem, ?_⟩
  rw [names_inputShape hshape]
  exact List.mem_map_of_mem (List.mem_filter.mpr ⟨hinput, hnamed⟩)

/-- A combined method stands for all named functions of one base name, in
declared order. -/
theorem overloads_of_combine (h : (ofContract contract .combine).result = .ok face)
    {g : MethodGroup} (hg : g ∈ face.methods) :
    g.overloads = (Abi.namedFunctions contract.abi).filter fun f =>
      baseName f.name = g.name := by
  obtain ⟨plan, hplan, hmember, hsingle⟩ := plan_of_mem_methods h hg
  have heq := (shapes_of_memberOf hsingle hmember).1
  have hitems := NameGroup.items_of_mem_group (mem_group_of_mem_memberNames hplan)
  rw [← heq] at hitems
  exact hitems

/-- **Combined methods.**  No two functions behind a combined method have the
same condition. -/
theorem combines_of_mem_methods (h : (ofContract contract .combine).result = .ok face)
    {g : MethodGroup} (hg : g ∈ face.methods) :
    ∃ params shapes, Combines g params shapes := by
  obtain ⟨plan, -, hmember, -⟩ := plan_of_mem_methods h hg
  obtain ⟨params, shapes, -, hcombines⟩ := combines_of_combined hmember
  exact ⟨params, shapes, hcombines⟩

/-- Callers see the same outputs of all functions behind a method. -/
theorem outputs_of_mem_methods (h : (ofContract contract policy).result = .ok face)
    {g : MethodGroup} (hg : g ∈ face.methods) {f : Abi.Function} (hf : f ∈ g.overloads) :
    f.outputs.map outputKey = g.outputs.map outputKey := by
  obtain ⟨plan, -, hmember, hsingle⟩ := plan_of_mem_methods h hg
  have heq := (shapes_of_memberOf hsingle hmember).1
  rcases List.mem_cons.mp (show f ∈ g.first :: g.others from hf) with rfl | hother
  · rfl
  · cases policy with
    | combine =>
        obtain ⟨params, shapes, -, -, hsame, rfl⟩ := combined_eq_ok.mp hmember
        have hkeys : plan.2.first.outputs.map outputKey = f.outputs.map outputKey := by
          simpa [sameOutputs] using hsame f hother
        exact hkeys.symm
    | mangle => simp [heq, hsingle rfl] at hother

/-- The functions behind the methods are the named functions, in grouped
order. -/
theorem overloads_ofContract (h : (ofContract contract policy).result = .ok face) :
    face.methods.flatMap MethodGroup.overloads =
      groupedBy (fun f => baseName f.name) (Abi.namedFunctions contract.abi) := by
  rw [← memberNames_functions policy]
  have hplans := plans_ofContract h
  generalize (memberNames policy contract.abi).1 = plans at hplans
  generalize face.methods = methods at hplans
  induction hplans with
  | nil => rfl
  | cons hplan _ ih =>
      obtain ⟨hgroup, -, -⟩ := shapes_of_memberOf hplan.2 hplan.1
      simp only [List.flatMap_cons, ih, MethodGroup.overloads, hgroup]

/-- The events behind the subscriptions are the named events, in grouped
order. -/
theorem events_ofContract (h : (ofContract contract policy).result = .ok face) :
    face.events.map EventBinding.event =
      groupedBy (fun e => baseName e.name) (Abi.namedEvents contract.abi) := by
  obtain ⟨constructor, groups, -, -, rfl⟩ := ofContract_eq_ok.mp h
  rw [← memberNames_events policy]
  simp [Function.comp_def]

/-- The methods and subscriptions have the names that were handed out. -/
theorem idents_ofContract (h : (ofContract contract policy).result = .ok face) :
    face.methods.map MethodGroup.ident = (memberNames policy contract.abi).1.map Prod.fst ∧
      face.events.map EventBinding.ident =
        (memberNames policy contract.abi).2.map Prod.fst := by
  constructor
  · apply SideBySide.map_eq_map (plans_ofContract h)
    intro plan g hplan
    exact (shapes_of_memberOf hplan.2 hplan.1).2.1
  · obtain ⟨constructor, groups, -, -, rfl⟩ := ofContract_eq_ok.mp h
    simp [Function.comp_def]

end OfContract

end AbiBindings.Interface
