import AbiBindings.Proofs.Descriptor.EmptyTuples
import Mathlib.Logic.Function.Iterate

/-!
# The walk that mapping takes

Mapping a parameter looks at its type, and for a tuple at the components in
their order.  So it goes through the parameter as a walk does that goes down
before it goes on and that enters tuples only (`walk`).  It ends with a fault
exactly when this walk comes to a tuple without components, and the fault
names the first one by the names on the way to it; where there is none, the
descriptor says what the word of the type and its array suffixes say
(`Describes`).

What holds of a walk in sequence is `EndsAtFirst`, which goes through the steps
of the mapping (`EndsAtFirst.bind`).  Which types are tuples is said by their
texts alone (`TupleLike`), and it is what the mapping takes for a tuple
(`tupleLike_iff`).
-/

namespace AbiBindings.Descriptor

/-- Whether the part stands somewhere in the word, in any case of the ASCII
letters of the word. -/
def Names (part : String) (word : List Char) : Prop := part.toList <:+: word.map Char.toLower

instance (part : String) (word : List Char) : Decidable (Names part word) :=
  inferInstanceAs (Decidable (_ <:+: _))

/-- Without its array suffixes the type names `tuple`, and neither `int` nor
`bool`. -/
def TupleLike (kind : String) : Prop :=
  ∃ word layers, Suffixed kind.toList word layers ∧ Names "tuple" word ∧ ¬ Names "int" word ∧
    ¬ Names "bool" word

section Words

theorem holds_iff {needle text : List Char} :
    Text.holds needle text = true ↔ needle <:+: text := by
  induction text with
  | nil => simp [Text.holds]
  | cons c rest ih => simp [Text.holds, List.infix_cons_iff, ih]

/-- What a word stands for. -/
theorem ofWord_eq (word : List Char) :
    Shape.ofWord word =
      if Names "int" word then .integer
      else if Names "bool" word then .boolean
      else if Names "tuple" word then .tuple
      else if Names "bytes" word then .bytes
      else .text (Shape.isKnownOpaque (Text.lowercaseAscii word)) := by
  simp only [Shape.ofWord, holds_iff]
  rfl

theorem tupleLike_iff {kind : String} : TupleLike kind ↔ MapsToTuple kind := by
  rw [MapsToTuple, ofWord_eq]
  constructor
  · rintro ⟨word, layers, hsuffixed, htuple, hint, hbool⟩
    rw [peel_of_suffixed hsuffixed, if_neg hint, if_neg hbool, if_pos htuple]
  · intro h
    refine ⟨(peel kind).1, (peel kind).2, peel_eq_iff.mp rfl, ?_⟩
    by_cases hint : Names "int" (peel kind).1 <;> by_cases hbool : Names "bool" (peel kind).1 <;>
      by_cases htuple : Names "tuple" (peel kind).1 <;>
      by_cases hbytes : Names "bytes" (peel kind).1 <;> simp_all

end Words

instance (kind : String) : Decidable (TupleLike kind) :=
  decidable_of_iff (Shape.ofWord (peel kind).1 = .tuple) tupleLike_iff.symm

/-- A parameter that a walk comes to, and the names on the way from the root
down to it, its own name included. -/
structure Visit where
  names : List String
  param : Abi.Param

namespace Visit

/-- The parameter is a tuple, and it has no components. -/
def Lacks (v : Visit) : Prop := TupleLike v.param.kind ∧ v.param.components.getD [] = []

instance (v : Visit) : Decidable v.Lacks := inferInstanceAs (Decidable (_ ∧ _))

end Visit

/-- The scope and names behind it, each behind a dot; a missing name is
marked. -/
def pathThrough (scope : String) (names : List String) : String :=
  String.ofList (scope.toList ++ names.flatMap fun name =>
    '.' :: (if name = "" then "<unnamed>" else name).toList)

mutual

/-- The walk through a parameter that goes down before it goes on, and enters
the components of tuples only.  The names lead to the parameter. -/
def walk (above : List String) : Abi.Param → List Visit
  | ⟨name, kind, internalType, components, indexed⟩ =>
      ⟨above ++ [name], ⟨name, kind, internalType, components, indexed⟩⟩ ::
        if TupleLike kind then walkComponents (above ++ [name]) components else []

/-- The walk through components, if there are any. -/
def walkComponents (above : List String) : Option (List Abi.Param) → List Visit
  | none => []
  | some ps => walkAll above ps

/-- The walks through parameters, one after the other. -/
def walkAll (above : List String) : List Abi.Param → List Visit
  | [] => []
  | p :: rest => walk above p ++ walkAll above rest

end

theorem walkAll_eq (above : List String) (ps : List Abi.Param) :
    walkAll above ps = ps.flatMap (walk above) := by
  induction ps with
  | nil => rfl
  | cons p rest ih => simp [walkAll, ih]

/-- A walk starts at the parameter itself. -/
theorem walk_eq (above : List String) (p : Abi.Param) :
    walk above p = ⟨above ++ [p.name], p⟩ ::
      if TupleLike p.kind then (p.components.getD []).flatMap (walk (above ++ [p.name]))
      else [] := by
  obtain ⟨name, kind, _, components, _⟩ := p
  cases components <;> simp [walk, walkComponents, walkAll_eq]

theorem pathOf_pathThrough (scope : String) (above : List String) (name : String) :
    pathOf (pathThrough scope above) name = pathThrough scope (above ++ [name]) := by
  apply String.toList_inj.mp
  by_cases hname : name = "" <;> simp [pathOf, pathThrough, hname]

section Ends

variable {α β : Type} {scope : String} {visits others : List Visit}

/-- The result is a fault of the first visit that lacks components, or a value
where no visit does. -/
def EndsAtFirst (scope : String) (visits : List Visit) (result : Except Fault α) : Prop :=
  match visits.find? fun v => decide v.Lacks with
  | some v => result = .error (.emptyTuple (pathThrough scope v.names))
  | none => ∃ a, result = .ok a

/-- What comes behind a value may add visits. -/
theorem EndsAtFirst.bind {x : Except Fault α} {f : α → Except Fault β}
    (hx : EndsAtFirst scope visits x) (hf : ∀ a, x = .ok a → EndsAtFirst scope others (f a)) :
    EndsAtFirst scope (visits ++ others) (x >>= f) := by
  unfold EndsAtFirst at hx ⊢
  rw [List.find?_append]
  cases hfind : visits.find? fun v => decide v.Lacks with
  | some v =>
      rw [hfind] at hx
      rw [Option.some_or, hx]
      rfl
  | none =>
      rw [hfind] at hx
      obtain ⟨a, rfl⟩ := hx
      rw [Option.none_or]
      exact hf a rfl

theorem endsAtFirst_nil (a : α) : EndsAtFirst scope [] (.ok a) := ⟨a, rfl⟩

/-- What is made of a value at the end changes nothing. -/
theorem EndsAtFirst.map {x : Except Fault α} (f : α → β) (hx : EndsAtFirst scope visits x) :
    EndsAtFirst scope visits (f <$> x) := by
  have hbehind := hx.bind fun a _ => endsAtFirst_nil (f a)
  rw [List.append_nil] at hbehind
  rw [map_eq_pure_bind]
  exact hbehind

/-- A visit that does not lack components does not count. -/
theorem EndsAtFirst.cons {v : Visit} {x : Except Fault α} (hv : ¬ v.Lacks)
    (hx : EndsAtFirst scope visits x) : EndsAtFirst scope (v :: visits) x := by
  unfold EndsAtFirst at hx ⊢
  rwa [List.find?_cons_of_neg (by simpa using hv)]

end Ends

section Mapping

variable {scope : String}

/-- **Run.**  Parameters are mapped one after the other. -/
theorem endsAtFirst_ofParams {above : List String} {ps : List Abi.Param}
    (h : ∀ c ∈ ps, EndsAtFirst scope (walk above c) (ofParam (pathThrough scope above) c).result) :
    EndsAtFirst scope (ps.flatMap (walk above)) (ofParams (pathThrough scope above) ps).result := by
  induction ps with
  | nil => exact endsAtFirst_nil []
  | cons c rest ih =>
      obtain ⟨hc, hrest⟩ := List.forall_mem_cons.mp h
      simp only [ofParams, Outcome.result_bind, Outcome.result_pure, List.flatMap_cons]
      exact hc.bind fun d _ => (ih hrest).map (d :: ·)

/-- Components are mapped like other parameters, where there are any. -/
theorem result_ofComponents {path : String} {ps : List Abi.Param} (h : ps ≠ []) :
    (ofComponents path (some ps)).result = Descriptor.tuple <$> (ofParams path ps).result := by
  cases ps with
  | nil => exact absurd rfl h
  | cons c rest =>
      simp only [ofComponents, ofParams, Outcome.result_bind, Outcome.result_pure]
      cases (ofParam path c).result with
      | error fault => rfl
      | ok d => cases (ofParams path rest).result <;> rfl

/-- **Step.**  A tuple is mapped by its components, and it is the first visit
that lacks them when it has none. -/
theorem endsAtFirst_ofComponents {above : List String} {p : Abi.Param}
    (htuple : TupleLike p.kind)
    (h : ∀ c ∈ p.components.getD [],
      EndsAtFirst scope (walk above c) (ofParam (pathThrough scope above) c).result) :
    EndsAtFirst scope (⟨above, p⟩ :: (p.components.getD []).flatMap (walk above))
      (ofComponents (pathThrough scope above) p.components).result := by
  by_cases hnone : p.components.getD [] = []
  · have hlacks : Visit.Lacks ⟨above, p⟩ := ⟨htuple, hnone⟩
    have hfault : (ofComponents (pathThrough scope above) p.components).result =
        .error (.emptyTuple (pathThrough scope above)) := by
      rcases hps : p.components with _ | _ | ⟨c, rest⟩
      case none => rfl
      case some.nil => rfl
      case some.cons => simp [hps] at hnone
    unfold EndsAtFirst
    rw [List.find?_cons_of_pos (by simpa using hlacks)]
    exact hfault
  · obtain ⟨ps, hps⟩ : ∃ ps, p.components = some ps := by
      cases hps : p.components with
      | none => simp [hps] at hnone
      | some ps => exact ⟨ps, rfl⟩
    have hsome : p.components.getD [] = ps := by rw [hps]; rfl
    rw [hsome] at h hnone
    rw [hps, result_ofComponents hnone]
    refine .cons (fun hlacks => hnone (hsome.symm.trans hlacks.2)) ?_
    exact (endsAtFirst_ofParams h).map Descriptor.tuple

/-- **Run.**  A parameter is mapped as the walk goes through it. -/
theorem endsAtFirst_ofParam (above : List String) (p : Abi.Param) :
    EndsAtFirst scope (walk above p) (ofParam (pathThrough scope above) p).result := by
  rw [walk_eq]
  by_cases htuple : TupleLike p.kind
  case pos =>
    rw [if_pos htuple, ofParam_of_mapsToTuple (tupleLike_iff.mp htuple), pathOf_pathThrough]
    refine .map _ (endsAtFirst_ofComponents htuple ?_)
    intro c hc
    exact endsAtFirst_ofParam _ c
  case neg =>
    rw [if_neg htuple]
    -- only tuples lack components, so there is a descriptor
    obtain ⟨d, hd⟩ : ∃ d, (ofParam (pathThrough scope above) p).result = .ok d :=
      exists_ofParam_iff.mpr fun hlacks => htuple (tupleLike_iff.mpr hlacks.isTuple)
    rw [hd]
    exact .cons (fun hlacks => htuple hlacks.1) (endsAtFirst_nil d)
termination_by sizeOf p
decreasing_by exact sizeOf_component_lt hc

end Mapping

/-- What a parameter inside of `scope` is mapped to, the word of its type
given: an integer, a truth value, the components of a tuple in their order,
bytes or else a string, by the first of these that the word names. -/
inductive Describes (scope : String) (p : Abi.Param) (word : List Char) : Descriptor → Prop
  | integer (hint : Names "int" word) : Describes scope p word .integer
  | boolean (hint : ¬ Names "int" word) (hbool : Names "bool" word) :
      Describes scope p word .boolean
  | tuple {ps : List Abi.Param} {ds : List Descriptor} (hint : ¬ Names "int" word)
      (hbool : ¬ Names "bool" word) (htuple : Names "tuple" word)
      (hsome : p.components = some ps)
      (hds : List.Forall₂ (fun c d => (ofParam (pathOf scope p.name) c).result = .ok d) ps ds) :
      Describes scope p word (.tuple ds)
  | bytes (hint : ¬ Names "int" word) (hbool : ¬ Names "bool" word)
      (htuple : ¬ Names "tuple" word) (hbytes : Names "bytes" word) : Describes scope p word .bytes
  | string (hint : ¬ Names "int" word) (hbool : ¬ Names "bool" word)
      (htuple : ¬ Names "tuple" word) (hbytes : ¬ Names "bytes" word) :
      Describes scope p word .string

mutual

/-- A descriptor and everything in it. -/
def parts : Descriptor → List Descriptor
  | .array element => .array element :: parts element
  | .tuple items => .tuple items :: partsOfAll items
  | .union members => .union members :: partsOfAll members
  | d => [d]

/-- Everything in each of the descriptors. -/
def partsOfAll : List Descriptor → List Descriptor
  | [] => []
  | d :: rest => parts d ++ partsOfAll rest

end

theorem partsOfAll_eq (ds : List Descriptor) : partsOfAll ds = ds.flatMap parts := by
  induction ds with
  | nil => rfl
  | cons d rest ih => simp [partsOfAll, ih]

theorem layered_eq_iterate (layers : Nat) (d : Descriptor) :
    layered layers d = Descriptor.array^[layers] d := by
  induction layers with
  | zero => rfl
  | succ n ih => rw [Function.iterate_succ_apply', ← ih, layered]

/-- Array layers add nothing but arrays. -/
theorem mem_parts_layered {layers : Nat} {d e : Descriptor} (h : e ∈ (layered layers d).parts) :
    e.guard = .array ∨ e ∈ d.parts := by
  induction layers with
  | zero => exact .inr h
  | succ n ih =>
      rcases List.mem_cons.mp (show e ∈ _ :: (layered n d).parts by simpa [layered, parts] using h)
        with rfl | hrest
      · exact .inl rfl
      · exact ih hrest

/-- **Descriptors.**  What a descriptor says of the parameter. -/
theorem describes_of_ofParam {scope : String} {p : Abi.Param} {d : Descriptor}
    (h : (ofParam scope p).result = .ok d) :
    ∃ word layers base, Suffixed p.kind.toList word layers ∧ Describes scope p word base ∧
      d = layered layers base := by
  obtain ⟨name, kind, internalType, components, indexed⟩ := p
  simp only [ofParam, Outcome.result_map, map_eq_ok] at h
  obtain ⟨base, hbase, rfl⟩ := h
  refine ⟨(peel kind).1, (peel kind).2, base, peel_eq_iff.mp rfl, ?_, rfl⟩
  rw [ofWord_eq] at hbase
  by_cases hint : Names "int" (peel kind).1
  case pos =>
    obtain rfl : Descriptor.integer = base := by simpa [hint] using hbase
    exact .integer hint
  by_cases hbool : Names "bool" (peel kind).1
  case pos =>
    obtain rfl : Descriptor.boolean = base := by simpa [hint, hbool] using hbase
    exact .boolean hint hbool
  by_cases htuple : Names "tuple" (peel kind).1
  case pos =>
    simp only [hint, hbool, htuple, if_true, if_false] at hbase
    obtain ⟨ps, ds, hsome, -, hds, rfl⟩ := ofComponents_eq_ok.mp hbase
    exact .tuple hint hbool htuple hsome hds
  by_cases hbytes : Names "bytes" (peel kind).1
  case pos =>
    obtain rfl : Descriptor.bytes = base := by simpa [hint, hbool, htuple, hbytes] using hbase
    exact .bytes hint hbool htuple hbytes
  case neg =>
    simp only [hint, hbool, htuple, hbytes, if_false] at hbase
    obtain rfl : Descriptor.string = base := by
      split at hbase <;> simp_all
    exact .string hint hbool htuple hbytes

/-- **Descriptors.**  Nothing in the descriptor of a parameter is a union or a
type parameter. -/
theorem guard_ne_any_of_mem_parts {scope : String} {p : Abi.Param} {d : Descriptor}
    (h : (ofParam scope p).result = .ok d) : ∀ e ∈ d.parts, e.guard ≠ .any := by
  obtain ⟨word, layers, base, -, hbase, rfl⟩ := describes_of_ofParam h
  intro e he
  rcases mem_parts_layered he with harray | he
  · rw [harray]
    decide
  cases hbase with
  | integer | boolean | bytes | string =>
      obtain rfl := List.mem_singleton.mp he
      decide
  | @tuple ps ds _ _ _ hsome hds =>
      rcases List.mem_cons.mp he with rfl | he
      · simp [guard]
      · obtain ⟨d', hd', he'⟩ := List.mem_flatMap.mp (partsOfAll_eq ds ▸ he)
        obtain ⟨c, hc, hd⟩ := SideBySide.exists_item hds hd'
        exact guard_ne_any_of_mem_parts hd e he'
termination_by sizeOf p
decreasing_by exact sizeOf_component_lt (by rwa [hsome])

/-- **Mapping fails at the first tuple without components.**  A parameter has
no descriptor exactly when the walk through it comes to a tuple that lacks
components, and the fault names the first such tuple by the scope and the
names on the way to it.  A descriptor has one array layer for each array suffix
of the type, over what the word behind the suffixes stands for, and nothing in
it is a union or a type parameter. -/
theorem mapping_fails_at_first_lack (scope : String) (p : Abi.Param) :
    ((∃ fault, (ofParam scope p).result = .error fault) ↔ ∃ v ∈ walk [] p, v.Lacks) ∧
    (∀ fault, (ofParam scope p).result = .error fault →
      ∃ before v after, walk [] p = before ++ v :: after ∧ (∀ u ∈ before, ¬ u.Lacks) ∧ v.Lacks ∧
        fault = .emptyTuple (pathThrough scope v.names)) ∧
    ∀ d, (ofParam scope p).result = .ok d →
      (∃ word layers base, Suffixed p.kind.toList word layers ∧ Describes scope p word base ∧
        d = Descriptor.array^[layers] base) ∧
      ∀ e ∈ d.parts, (∀ members, e ≠ .union members) ∧ ∀ name, e ≠ .generic name := by
  have hends : EndsAtFirst scope (walk [] p) (ofParam scope p).result := by
    simpa [pathThrough] using @endsAtFirst_ofParam scope [] p
  have hvalue : ∀ d, (ofParam scope p).result = .ok d →
      (∃ word layers base, Suffixed p.kind.toList word layers ∧ Describes scope p word base ∧
        d = Descriptor.array^[layers] base) ∧
      ∀ e ∈ d.parts, (∀ members, e ≠ .union members) ∧ ∀ name, e ≠ .generic name := by
    intro d hd
    constructor
    · obtain ⟨word, layers, base, hsuffixed, hbase, rfl⟩ := describes_of_ofParam hd
      exact ⟨word, layers, base, hsuffixed, hbase, layered_eq_iterate layers base⟩
    · intro e he
      have hguard := guard_ne_any_of_mem_parts hd e he
      constructor
      · rintro members rfl
        exact hguard rfl
      · rintro name rfl
        exact hguard rfl
  unfold EndsAtFirst at hends
  cases hfind : (walk [] p).find? fun v => decide v.Lacks with
  | none =>
      rw [hfind] at hends
      obtain ⟨d, hd⟩ := hends
      have hnone : ∀ v ∈ walk [] p, ¬ v.Lacks := by simpa using List.find?_eq_none.mp hfind
      refine ⟨⟨?_, ?_⟩, ?_, hvalue⟩
      · rintro ⟨fault, hfault⟩
        simp [hd] at hfault
      · rintro ⟨v, hv, hlacks⟩
        exact absurd hlacks (hnone v hv)
      · intro fault hfault
        simp [hd] at hfault
  | some v =>
      rw [hfind] at hends
      obtain ⟨hlacks, before, after, hwalk, hbefore⟩ := List.find?_eq_some_iff_append.mp hfind
      refine ⟨⟨?_, ?_⟩, ?_, hvalue⟩
      · rintro -
        exact ⟨v, by simp [hwalk], by simpa using hlacks⟩
      · rintro -
        exact ⟨_, hends⟩
      · intro fault hfault
        refine ⟨before, v, after, hwalk, by simpa using hbefore, by simpa using hlacks, ?_⟩
        exact (Except.error.inj (hends.symm.trans hfault)).symm

/-- An order with its legs, each a tuple with these components. -/
def orderOf (legs : List Abi.Param) : Abi.Param :=
  { name := "order", kind := "Tuple[2][]", components := some
      [{ name := "maker", kind := "address" },
        { name := "legs", kind := "(tuple)[]", components := some legs }] }

/-- The first leg has no name and no components; the second one lacks them as
well.  Without legs that are tuples the order has a descriptor. -/
theorem mapping_fails_at_first_lack_order :
    ∃ order : Abi.Param,
      order = orderOf [{ name := "", kind := "tuple[]" }, { name := "late", kind := "tuple" }] ∧
      (ofParam "swap" order).result = .error (.emptyTuple "swap.order.legs.<unnamed>") ∧
      (∃ v ∈ walk [] order, v.Lacks) ∧
      (∃ before v after, walk [] order = before ++ v :: after ∧ (∀ u ∈ before, ¬ u.Lacks) ∧
        v.Lacks ∧ pathThrough "swap" v.names = "swap.order.legs.<unnamed>") ∧
      ∃ word layers base,
        Suffixed "Tuple[2][]".toList word layers ∧
        Describes "swap" (orderOf [{ name := "", kind := "Uint8" }]) word base ∧
        Descriptor.array^[layers] base =
          .array (.array (.tuple [.string, .array (.tuple [.integer])])) := by
  refine ⟨_, rfl, rfl, ?_⟩
  obtain ⟨hfails, hfirst, -⟩ := mapping_fails_at_first_lack "swap"
    (orderOf [{ name := "", kind := "tuple[]" }, { name := "late", kind := "tuple" }])
  obtain ⟨before, v, after, hwalk, hbefore, hlacks, hpath⟩ := hfirst _ rfl
  obtain ⟨-, -, hvalue⟩ := mapping_fails_at_first_lack "swap"
    (orderOf [{ name := "", kind := "Uint8" }])
  obtain ⟨⟨word, layers, base, hsuffixed, hbase, hd⟩, -⟩ := hvalue _ rfl
  exact ⟨hfails.mp ⟨_, rfl⟩, ⟨before, v, after, hwalk, hbefore, hlacks,
    (Fault.emptyTuple.inj hpath).symm⟩, word, layers, base, hsuffixed, hbase, hd.symm⟩

end AbiBindings.Descriptor
