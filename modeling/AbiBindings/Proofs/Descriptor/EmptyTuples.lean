import AbiBindings.Proofs.Abi.TypeTree
import AbiBindings.Proofs.Descriptor.ArraySuffixes
import AbiBindings.Proofs.Descriptor.Mapping

/-!
# Tuples without components

A parameter has no descriptor exactly when some tuple in it lacks components
(`exists_ofParam_iff`).  What mapping takes for a tuple is a matter of the
word that is left of a type without its array suffixes, and it is more than
the word `tuple` with suffixes behind it (`MapsToTuple`, `IsTuple`).

Of a plain tuple the canonical type tells whether components are missing:
parameters of the same type tree lack them alike (`LacksComponents.of_typeTree`).
So parameters whose canonical types agree need not all be mapped.
-/

namespace AbiBindings.Descriptor

/-- A type that is mapped as a tuple. -/
def MapsToTuple (kind : String) : Prop := Shape.ofWord (peel kind).1 = .tuple

/-- The word `tuple` with array suffixes behind it, of any length or of
none. -/
def IsTuple (kind : String) : Prop :=
  ∃ lengths : List (List Char), (∀ digits ∈ lengths, ∀ c ∈ digits, c.isDigit = true) ∧
    kind.toList = "tuple".toList ++ lengths.flatMap fun digits => '[' :: (digits ++ [']'])

/-- Some tuple in the parameter lacks components: the parameter itself or,
through tuples all the way, a component of it. -/
inductive LacksComponents (isTuple : String → Prop) : Abi.Param → Prop
  | here {p : Abi.Param} (htuple : isTuple p.kind) (hnone : p.components.getD [] = []) :
      LacksComponents isTuple p
  | inside {p c : Abi.Param} {components : List Abi.Param} (htuple : isTuple p.kind)
      (hsome : p.components = some components) (hc : c ∈ components)
      (hlacks : LacksComponents isTuple c) : LacksComponents isTuple p

section Kinds

variable {kind : String}

/-- A plain tuple is mapped as a tuple. -/
theorem mapsToTuple_of_isTuple (h : IsTuple kind) : MapsToTuple kind := by
  obtain ⟨lengths, hdigits, hkind⟩ := h
  have hsuffixed : Suffixed kind.toList "tuple".toList lengths.length :=
    ⟨⟨lengths, rfl, hdigits, hkind⟩, stripArray?_reverse_eq_none_iff.mp rfl⟩
  rw [MapsToTuple, peel_of_suffixed hsuffixed]
  exact show Shape.ofWord "tuple".toList = .tuple by decide

/-- The type of a plain tuple is the word and its suffixes. -/
theorem exists_suffix_of_isTuple (h : IsTuple kind) :
    ∃ suffix, Abi.tupleSuffix? kind = some suffix := by
  obtain ⟨lengths, -, hkind⟩ := h
  exact ⟨_, List.isPrefixOf?_eq_some_iff_append_eq.mpr hkind.symm⟩

end Kinds

section Mapping

variable {scope : String}

theorem ofParams_eq_mapM (scope : String) (ps : List Abi.Param) :
    ofParams scope ps = ps.mapM (ofParam scope) := by
  induction ps with
  | nil => rfl
  | cons p rest ih => simp [ofParams, ih, List.mapM_cons]

/-- A tuple has the descriptor of its components under its array layers. -/
theorem ofParam_of_mapsToTuple {p : Abi.Param} (h : MapsToTuple p.kind) :
    (ofParam scope p).result =
      layered (peel p.kind).2 <$> (ofComponents (pathOf scope p.name) p.components).result := by
  obtain ⟨name, kind, _, components, _⟩ := p
  have hshape : Shape.ofWord (peel kind).1 = .tuple := h
  simp only [ofParam, Outcome.result_map, hshape]

/-- Components have descriptors when there are some and each has one. -/
theorem ofComponents_eq_ok {path : String} {components : Option (List Abi.Param)}
    {d : Descriptor} :
    (ofComponents path components).result = .ok d ↔
      ∃ ps ds, components = some ps ∧ ps ≠ [] ∧
        List.Forall₂ (fun p d => (ofParam path p).result = .ok d) ps ds ∧ d = .tuple ds := by
  rcases components with _ | _ | ⟨c, rest⟩
  case none => simp [ofComponents]
  case some.nil => simp [ofComponents]
  case some.cons =>
    simp only [ofComponents, ofParams_eq_mapM, Outcome.result_bind, Outcome.result_pure,
      bind_eq_ok, Outcome.result_mapM_eq_ok, Except.ok.injEq]
    constructor
    · rintro ⟨first, hfirst, others, hothers, rfl⟩
      exact ⟨_, _, rfl, List.cons_ne_nil _ _, .cons hfirst hothers, rfl⟩
    · rintro ⟨ps, ds, hps, -, hds, rfl⟩
      cases hps
      obtain ⟨first, others, hfirst, hothers, rfl⟩ := List.forall₂_cons_left_iff.mp hds
      exact ⟨first, hfirst, others, hothers, rfl⟩

/-- Components have no descriptors because there are none or because one of
them has none. -/
theorem empty_or_exists_of_ofComponents_eq_error {path : String}
    {components : Option (List Abi.Param)} {fault : Fault}
    (h : (ofComponents path components).result = .error fault) :
    components.getD [] = [] ∨
      ∃ ps, components = some ps ∧ ∃ p ∈ ps, (ofParam path p).result = .error fault := by
  rcases components with _ | _ | ⟨c, rest⟩
  case none => exact .inl rfl
  case some.nil => exact .inl rfl
  case some.cons =>
    simp only [ofComponents, ofParams_eq_mapM, Outcome.result_bind, Outcome.result_pure,
      bind_eq_error, reduceCtorEq, and_false, exists_false, or_false] at h
    refine .inr ⟨_, rfl, ?_⟩
    rcases h with hfirst | ⟨_, -, hothers⟩
    · exact ⟨c, List.mem_cons_self, hfirst⟩
    · obtain ⟨c', hc', herror⟩ := Outcome.exists_of_mapM_eq_error hothers
      exact ⟨c', List.mem_cons_of_mem _ hc', herror⟩

/-- Only tuples lack components. -/
theorem LacksComponents.isTuple {isTuple : String → Prop} {p : Abi.Param}
    (h : LacksComponents isTuple p) : isTuple p.kind := by
  cases h <;> assumption

/-- A parameter in which a tuple lacks components has no descriptor. -/
theorem LacksComponents.not_ok {p : Abi.Param} (h : LacksComponents MapsToTuple p) :
    ∀ (scope : String) (d : Descriptor), (ofParam scope p).result ≠ .ok d := by
  induction h with
  | here htuple hnone =>
      intro scope d hd
      rw [ofParam_of_mapsToTuple htuple, map_eq_ok] at hd
      obtain ⟨base, hbase, -⟩ := hd
      obtain ⟨ps, ds, hsome, hne, -, -⟩ := ofComponents_eq_ok.mp hbase
      rw [hsome] at hnone
      exact hne hnone
  | inside htuple hsome hc _ ih =>
      intro scope d hd
      rw [ofParam_of_mapsToTuple htuple, map_eq_ok] at hd
      obtain ⟨base, hbase, -⟩ := hd
      obtain ⟨ps, ds, heq, -, hds, -⟩ := ofComponents_eq_ok.mp hbase
      obtain rfl := Option.some.inj (hsome.symm.trans heq)
      obtain ⟨d', -, hd'⟩ := SideBySide.exists_value hds hc
      exact ih _ d' hd'

/-- A component is smaller than the parameter that it stands in. -/
theorem sizeOf_component_lt {p c : Abi.Param} (hc : c ∈ p.components.getD []) :
    sizeOf c < sizeOf p := by
  obtain ⟨name, kind, _, components, _⟩ := p
  cases components with
  | none => cases hc
  | some ps =>
      have hmem := List.sizeOf_lt_of_mem (show c ∈ ps from hc)
      simp only [Abi.Param.mk.sizeOf_spec, Option.some.sizeOf_spec]
      omega

/-- **Faults of mapping.**  Where there is no descriptor, some tuple lacks
components. -/
theorem lacks_of_ofParam_eq_error (p : Abi.Param) {scope : String} {fault : Fault}
    (h : (ofParam scope p).result = .error fault) : LacksComponents MapsToTuple p := by
  by_cases htuple : MapsToTuple p.kind
  case neg =>
    obtain ⟨name, kind, _, components, _⟩ := p
    simp only [ofParam, Outcome.result_map, map_eq_error] at h
    split at h
    case h_6 hshape => exact absurd hshape htuple
    all_goals cases h
  case pos =>
    rw [ofParam_of_mapsToTuple htuple, map_eq_error] at h
    rcases empty_or_exists_of_ofComponents_eq_error h with hnone | ⟨ps, hsome, c, hc, herror⟩
    · exact .here htuple hnone
    · exact .inside htuple hsome hc (lacks_of_ofParam_eq_error c herror)
termination_by sizeOf p
decreasing_by exact sizeOf_component_lt (by rwa [hsome])

/-- **What can be mapped.**  A parameter has a descriptor, wherever it stands,
exactly when no tuple in it lacks components. -/
theorem exists_ofParam_iff {p : Abi.Param} :
    (∃ d, (ofParam scope p).result = .ok d) ↔ ¬ LacksComponents MapsToTuple p := by
  constructor
  · rintro ⟨d, hd⟩ hlacks
    exact hlacks.not_ok scope d hd
  · intro hcomplete
    cases hresult : (ofParam scope p).result with
    | ok d => exact ⟨d, rfl⟩
    | error fault => exact absurd (lacks_of_ofParam_eq_error p hresult) hcomplete

end Mapping

section TypeTrees

variable {p q : Abi.Param}

/-- A plain tuple lacks components however tuples are told. -/
theorem LacksComponents.mapsToTuple (h : LacksComponents IsTuple p) :
    LacksComponents MapsToTuple p := by
  induction h with
  | here htuple hnone => exact .here (mapsToTuple_of_isTuple htuple) hnone
  | inside htuple hsome hc _ ih => exact .inside (mapsToTuple_of_isTuple htuple) hsome hc ih

/-- A type tree tells the components where there are some and the type says so,
and the type as it is elsewhere. -/
theorem typeTree_eq (p : Abi.Param) :
    p.typeTree =
      match p.components, Abi.tupleSuffix? p.kind with
      | some components, some suffix => .tuple (components.map Abi.Param.typeTree) suffix
      | _, _ => .word p.kind := by
  obtain ⟨_, kind, _, components, _⟩ := p
  cases components with
  | none => rfl
  | some ps =>
      simp only [Abi.Param.typeTree, Abi.typeTrees_eq_map]
      cases Abi.tupleSuffix? kind <;> rfl

/-- The type tree of a plain tuple tells its type and the type trees of its
components. -/
theorem components_of_typeTree (hp : IsTuple p.kind) (h : q.typeTree = p.typeTree) :
    q.kind = p.kind ∧
      q.components.map (List.map Abi.Param.typeTree) =
        p.components.map (List.map Abi.Param.typeTree) := by
  obtain ⟨suffix, hsuffix⟩ := exists_suffix_of_isTuple hp
  rw [typeTree_eq q, typeTree_eq p, hsuffix] at h
  cases hps : p.components with
  | none =>
      simp only [hps] at h
      cases hqs : q.components with
      | none =>
          simp only [hqs] at h
          exact ⟨Abi.TypeTree.word.inj h, rfl⟩
      | some qs =>
          cases hending : Abi.tupleSuffix? q.kind with
          | none =>
              -- the types would be the same and one of them no tuple
              simp only [hqs, hending] at h
              rw [Abi.TypeTree.word.inj h, hsuffix] at hending
              cases hending
          | some ending =>
              simp only [hqs, hending] at h
              cases h
  | some ps =>
      simp only [hps] at h
      cases hqs : q.components with
      | none =>
          simp only [hqs] at h
          cases h
      | some qs =>
          cases hending : Abi.tupleSuffix? q.kind with
          | none =>
              simp only [hqs, hending] at h
              cases h
          | some ending =>
              simp only [hqs, hending] at h
              obtain ⟨htrees, rfl⟩ := Abi.TypeTree.tuple.inj h
              have hkind := List.isPrefixOf?_eq_some_iff_append_eq.mp hsuffix
              have hother := List.isPrefixOf?_eq_some_iff_append_eq.mp hending
              exact ⟨String.toList_inj.mp (hother.symm.trans hkind), congrArg some htrees⟩

/-- **Type trees.**  Whether plain tuples lack components can be told from the
type tree. -/
theorem LacksComponents.of_typeTree (h : LacksComponents IsTuple p)
    (htree : q.typeTree = p.typeTree) : LacksComponents IsTuple q := by
  induction h generalizing q with
  | @here p htuple hnone =>
      obtain ⟨hkind, hcomponents⟩ := components_of_typeTree htuple htree
      refine .here (hkind ▸ htuple) ?_
      cases hps : p.components with
      | none =>
          rw [hps] at hcomponents
          rw [Option.map_eq_none_iff.mp hcomponents]
          rfl
      | some ps =>
          obtain rfl : ps = [] := by simpa [hps] using hnone
          rw [hps] at hcomponents
          obtain ⟨qs, hqs, htrees⟩ := Option.map_eq_some_iff.mp hcomponents
          rw [hqs]
          exact List.map_eq_nil_iff.mp htrees
  | inside htuple hsome hc _ ih =>
      obtain ⟨hkind, hcomponents⟩ := components_of_typeTree htuple htree
      rw [hsome] at hcomponents
      obtain ⟨qs, hqs, htrees⟩ := Option.map_eq_some_iff.mp hcomponents
      obtain ⟨c', hc', heq⟩ := List.mem_map.mp (htrees ▸ List.mem_map_of_mem hc)
      exact .inside (hkind ▸ htuple) hqs hc' (ih heq)

end TypeTrees

end AbiBindings.Descriptor
