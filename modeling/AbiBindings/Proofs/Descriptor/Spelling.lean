import AbiBindings.Proofs.Abi.Reading
import AbiBindings.Proofs.Descriptor.EmptyTuples

/-!
# What a canonical type tells of a descriptor

Mapping reads the type and the components of a parameter, while functions are
compared by canonical types, which are texts.  The text tells the descriptor
if no type in it holds a delimiter and only tuples have components, with one
exception: a tuple without components is written like a tuple with a single
component of empty type, and only the second one can be mapped.

So trees are compared in a normal form that has no components in both cases
(`TypeTree.normal`).  Trees that are written alike have one normal form
(`TypeTree.normal_eq_of_chars`), and parameters whose trees have one normal
form have one descriptor if they have any (`descriptor_unique`).  Where the
exception is left out the trees themselves are the same, and then one of the
parameters lacks components, and has no descriptor, only if the other one does
(`LacksComponents.of_tuplesOnly`).
-/

namespace AbiBindings.Abi.TypeTree

mutual

/-- The words of the tree hold no delimiter; they may be empty. -/
def Spelled : TypeTree → Prop
  | .word kind => Undelimited kind.toList
  | .tuple items suffix => AllSpelled items ∧ Undelimited suffix

/-- Every one of the trees is spelled without delimiters. -/
def AllSpelled : List TypeTree → Prop
  | [] => True
  | t :: rest => t.Spelled ∧ AllSpelled rest

end

mutual

instance decidableSpelled : (t : TypeTree) → Decidable t.Spelled
  | .word kind => inferInstanceAs (Decidable (Undelimited kind.toList))
  | .tuple items suffix =>
      haveI := decidableAllSpelled items
      inferInstanceAs (Decidable (AllSpelled items ∧ Undelimited suffix))

instance decidableAllSpelled : (ts : List TypeTree) → Decidable (AllSpelled ts)
  | [] => inferInstanceAs (Decidable True)
  | t :: rest =>
      haveI := decidableSpelled t
      haveI := decidableAllSpelled rest
      inferInstanceAs (Decidable (t.Spelled ∧ AllSpelled rest))

end

/-- The trees, but none in place of a single empty word. -/
def trimmed : List TypeTree → List TypeTree
  | [.word kind] => if kind = "" then [] else [.word kind]
  | ts => ts

mutual

/-- The tree with no components in place of a single empty word. -/
def normal : TypeTree → TypeTree
  | .word kind => .word kind
  | .tuple items suffix => .tuple (trimmed (normals items)) suffix

/-- The normal form of each tree. -/
def normals : List TypeTree → List TypeTree
  | [] => []
  | t :: rest => t.normal :: normals rest

end

theorem normals_eq_map (ts : List TypeTree) : normals ts = ts.map normal := by
  induction ts with
  | nil => rfl
  | cons t rest ih => rw [normals, ih, List.map_cons]

theorem trimmed_of_ne {ts : List TypeTree} (h : ts ≠ [.word ""]) : trimmed ts = ts := by
  unfold trimmed
  split
  case h_1 kind =>
    have hkind : kind ≠ "" := fun heq => h (by rw [heq])
    rw [if_neg hkind]
  case h_2 => rfl

theorem trimmed_ne (ts : List TypeTree) : trimmed ts ≠ [.word ""] := by
  by_cases hblank : ts = [.word ""]
  · subst hblank
    exact (List.cons_ne_nil _ _).symm
  · rw [trimmed_of_ne hblank]
    exact hblank

/-- Lists that are not empty and the same when trimmed are the same. -/
theorem eq_of_trimmed {ts us : List TypeTree} (hts : ts ≠ []) (hus : us ≠ [])
    (h : trimmed ts = trimmed us) : ts = us := by
  by_cases hblank : ts = [.word ""]
  · subst hblank
    by_cases hother : us = [.word ""]
    · exact hother.symm
    · rw [trimmed_of_ne hother] at h
      exact absurd h.symm hus
  · rw [trimmed_of_ne hblank] at h
    by_cases hother : us = [.word ""]
    · subst hother
      exact absurd h hts
    · rwa [trimmed_of_ne hother] at h

/-- A single empty word is written like nothing. -/
theorem parameterList_trimmed (ts : List TypeTree) :
    parameterList (parts (trimmed ts)) = parameterList (parts ts) := by
  by_cases hblank : ts = [.word ""]
  · subst hblank
    rfl
  · rw [trimmed_of_ne hblank]

mutual

/-- A tree is written like its normal form. -/
theorem chars_normal : (t : TypeTree) → t.normal.chars = t.chars
  | .word _ => rfl
  | .tuple items suffix => by
      rw [normal, chars, chars, parameterList_trimmed, parts_normals]

theorem parts_normals : (ts : List TypeTree) → parts (normals ts) = parts ts
  | [] => rfl
  | t :: rest => by rw [normals, parts, parts, chars_normal t, parts_normals rest]

end

mutual

/-- The normal form of a tree without delimiters can be read back. -/
theorem readable_normal : (t : TypeTree) → t.Spelled → t.normal.Readable
  | .word _, h => h
  | .tuple items suffix, h => by
      refine ⟨trimmed_ne _, ?_, h.2⟩
      have hitems := allReadable_normals items h.1
      by_cases hblank : normals items = [.word ""]
      · rw [hblank]
        trivial
      · rw [trimmed_of_ne hblank]
        exact hitems

theorem allReadable_normals : (ts : List TypeTree) → AllSpelled ts → AllReadable (normals ts)
  | [], _ => trivial
  | t :: rest, h => ⟨readable_normal t h.1, allReadable_normals rest h.2⟩

end

/-- **Reading back.**  Trees that are written alike have one normal form. -/
theorem normal_eq_of_chars {t u : TypeTree} (ht : t.Spelled) (hu : u.Spelled)
    (h : t.chars = u.chars) : t.normal = u.normal := by
  apply chars_inj (readable_normal t ht) (readable_normal u hu)
  rw [chars_normal, chars_normal, h]

end AbiBindings.Abi.TypeTree

namespace AbiBindings.Abi

/-- Parameters of one canonical type have one normal form, if no type in them
holds a delimiter. -/
theorem normal_eq_of_canonicalType {p q : Param} (hp : p.typeTree.Spelled)
    (hq : q.typeTree.Spelled) (h : p.canonicalType = q.canonicalType) :
    p.typeTree.normal = q.typeTree.normal := by
  apply TypeTree.normal_eq_of_chars hp hq
  rw [← p.canonicalChars_eq, ← q.canonicalChars_eq, String.ofList_injective h]

end AbiBindings.Abi

namespace AbiBindings.Descriptor

open Abi (TypeTree)

/-- Only types that start with the word `tuple` have components, at every
depth. -/
inductive TuplesOnly : Abi.Param → Prop
  | intro {p : Abi.Param}
      (hkind : p.components.getD [] ≠ [] → (Abi.tupleSuffix? p.kind).isSome)
      (hinside : ∀ ps, p.components = some ps → ∀ c ∈ ps, TuplesOnly c) : TuplesOnly p

/-- A parameter without a list of components has none. -/
theorem TuplesOnly.of_none {p : Abi.Param} (h : p.components = none) : TuplesOnly p := by
  refine ⟨fun hsome => absurd (by rw [h]; rfl) hsome, ?_⟩
  intro ps hps
  rw [h] at hps
  cases hps

/-- A tuple may have components. -/
theorem TuplesOnly.of_tuple {p : Abi.Param} (hkind : (Abi.tupleSuffix? p.kind).isSome)
    (hinside : ∀ c ∈ p.components.getD [], TuplesOnly c) : TuplesOnly p := by
  refine ⟨fun _ => hkind, ?_⟩
  intro ps hps
  simpa [hps] using hinside

/-- Components are like the parameter in this. -/
theorem TuplesOnly.inside {p c : Abi.Param} {ps : List Abi.Param} (h : TuplesOnly p)
    (hps : p.components = some ps) (hc : c ∈ ps) : TuplesOnly c := by
  obtain ⟨-, hinside⟩ := h
  exact hinside ps hps c hc

section Mapping

variable {p q : Abi.Param} {scope : String}

/-- What is no tuple is mapped by its type alone. -/
theorem ofParam_of_not_mapsToTuple (h : ¬ MapsToTuple p.kind) (hkind : p.kind = q.kind)
    (other : String) : (ofParam scope p).result = (ofParam other q).result := by
  obtain ⟨name, kind, _, components, _⟩ := p
  obtain ⟨name', kind', _, components', _⟩ := q
  obtain rfl : kind = kind' := hkind
  simp only [ofParam, Outcome.result_map]
  cases hshape : Shape.ofWord (peel kind).1 with
  | tuple => exact absurd hshape h
  | text known => cases known <;> rfl
  | integer | boolean | bytes => rfl

/-- The type tree is the word of the type where there are no components, or
tells the components behind the word `tuple`. -/
theorem TuplesOnly.typeTree_cases (hp : TuplesOnly p) :
    p.typeTree = .word p.kind ∧ p.components.getD [] = [] ∨
    ∃ suffix, p.kind.toList = "tuple".toList ++ suffix ∧
      p.typeTree = .tuple ((p.components.getD []).map Abi.Param.typeTree) suffix := by
  obtain ⟨hkind, -⟩ := hp
  rw [typeTree_eq]
  cases hps : p.components with
  | none => exact .inl ⟨rfl, rfl⟩
  | some ps =>
      cases hsuffix : Abi.tupleSuffix? p.kind with
      | none =>
          have hnone : ps = [] := by simpa [hps, hsuffix] using hkind
          exact .inl ⟨rfl, hnone⟩
      | some suffix =>
          exact .inr ⟨suffix, (List.isPrefixOf?_eq_some_iff_append_eq.mp hsuffix).symm, rfl⟩

/-- The type can be read off the normal form of the tree, and so can the
components except for a single blank one. -/
theorem TuplesOnly.of_normal (hp : TuplesOnly p) (hq : TuplesOnly q)
    (h : p.typeTree.normal = q.typeTree.normal) :
    p.kind = q.kind ∧
      TypeTree.trimmed ((p.components.getD []).map fun c => c.typeTree.normal) =
        TypeTree.trimmed ((q.components.getD []).map fun c => c.typeTree.normal) := by
  rcases hp.typeTree_cases with ⟨hp, hps⟩ | ⟨suffix, hkind, hp⟩
  · rcases hq.typeTree_cases with ⟨hq, hqs⟩ | ⟨ending, -, hq⟩
    · rw [hp, hq] at h
      exact ⟨TypeTree.word.inj h, by rw [hps, hqs]⟩
    · rw [hp, hq] at h
      cases h
  · rcases hq.typeTree_cases with ⟨hq, -⟩ | ⟨ending, hother, hq⟩
    · rw [hp, hq] at h
      cases h
    · rw [hp, hq] at h
      simp only [TypeTree.normal, TypeTree.normals_eq_map, List.map_map] at h
      obtain ⟨hitems, rfl⟩ := TypeTree.tuple.inj h
      exact ⟨String.toList_inj.mp (hkind.trans hother.symm), hitems⟩

/-- The components can be read off the tree. -/
theorem TuplesOnly.components_of_typeTree (hp : TuplesOnly p) (hq : TuplesOnly q)
    (h : q.typeTree = p.typeTree) :
    (q.components.getD []).map Abi.Param.typeTree =
      (p.components.getD []).map Abi.Param.typeTree := by
  rcases hp.typeTree_cases with ⟨hp, hps⟩ | ⟨suffix, -, hp⟩
  · rcases hq.typeTree_cases with ⟨hq, hqs⟩ | ⟨ending, -, hq⟩
    · rw [hps, hqs]
    · rw [hp, hq] at h
      cases h
  · rcases hq.typeTree_cases with ⟨hq, -⟩ | ⟨ending, -, hq⟩
    · rw [hp, hq] at h
      cases h
    · rw [hp, hq] at h
      exact (TypeTree.tuple.inj h).1

/-- **Descriptors.**  Parameters whose trees have one normal form have one
descriptor, if they have any. -/
theorem descriptor_unique (hp : TuplesOnly p) (hq : TuplesOnly q)
    (h : p.typeTree.normal = q.typeTree.normal) {other : String} {d d' : Descriptor}
    (hd : (ofParam scope p).result = .ok d) (hd' : (ofParam other q).result = .ok d') :
    d = d' := by
  induction hp generalizing q scope other d d' with
  | @intro p hkinds hinside ih =>
      obtain ⟨hkind, hcomponents⟩ := TuplesOnly.of_normal ⟨hkinds, hinside⟩ hq h
      by_cases htuple : MapsToTuple p.kind
      case neg =>
        rw [ofParam_of_not_mapsToTuple htuple hkind other, hd'] at hd
        exact (Except.ok.inj hd).symm
      case pos =>
        rw [ofParam_of_mapsToTuple htuple, map_eq_ok] at hd
        rw [ofParam_of_mapsToTuple (hkind ▸ htuple), map_eq_ok] at hd'
        obtain ⟨base, hbase, rfl⟩ := hd
        obtain ⟨base', hbase', rfl⟩ := hd'
        obtain ⟨ps, ds, hps, hsome, hds, rfl⟩ := ofComponents_eq_ok.mp hbase
        obtain ⟨qs, ds', hqs, hother, hds', rfl⟩ := ofComponents_eq_ok.mp hbase'
        rw [hps, hqs] at hcomponents
        -- both tuples are mapped, so neither of the two lists is empty
        have hnormals : ps.map (fun c => c.typeTree.normal) =
            qs.map fun c => c.typeTree.normal :=
          TypeTree.eq_of_trimmed (by simpa using hsome) (by simpa using hother) hcomponents
        have hitems : List.Forall₂
            (fun c c' : Abi.Param => c.typeTree.normal = c'.typeTree.normal) ps qs :=
          List.forall₂_map_left_iff.mp (List.forall₂_map_right_iff.mp
            (List.forall₂_eq_eq_eq ▸ hnormals))
        have hitem : ∀ c ∈ ps, ∀ c' ∈ qs, c.typeTree.normal = c'.typeTree.normal →
            ∀ d d', (ofParam (pathOf scope p.name) c).result = .ok d →
              (ofParam (pathOf other q.name) c').result = .ok d' → d = d' :=
          fun c hc c' hc' htree d d' hd hd' =>
            ih ps hps c hc (hq.inside hqs hc') htree hd hd'
        rw [hkind, SideBySide.values_unique hitems hds hds' hitem]

/-- Parameters of one type tree lack components alike. -/
theorem LacksComponents.of_tuplesOnly (h : LacksComponents MapsToTuple p) (hp : TuplesOnly p)
    (hq : TuplesOnly q) (htree : q.typeTree = p.typeTree) : LacksComponents MapsToTuple q := by
  induction h generalizing q with
  | @here p htuple hnone =>
      have hkind := (hp.of_normal hq (congrArg TypeTree.normal htree.symm)).1
      have hcomponents := hp.components_of_typeTree hq htree
      rw [hnone] at hcomponents
      exact .here (hkind ▸ htuple) (List.map_eq_nil_iff.mp hcomponents)
  | @inside p c ps htuple hps hc _ ih =>
      have hkind := (hp.of_normal hq (congrArg TypeTree.normal htree.symm)).1
      have hcomponents := hp.components_of_typeTree hq htree
      rw [hps] at hcomponents
      cases hqs : q.components with
      | none =>
          rw [hqs] at hcomponents
          exact absurd (List.map_eq_nil_iff.mp hcomponents.symm) (List.ne_nil_of_mem hc)
      | some qs =>
          rw [hqs] at hcomponents
          obtain ⟨c', hc', heq⟩ := List.mem_map.mp
            (show c.typeTree ∈ qs.map Abi.Param.typeTree from
              hcomponents ▸ List.mem_map_of_mem hc)
          exact .inside (hkind ▸ htuple) hqs hc' (ih (hp.inside hps hc) (hq.inside hqs hc') heq)

end Mapping

section Reading

/-- What is proper has components only if it is a tuple. -/
theorem TuplesOnly.of_proper {p : Abi.Param} (h : p.Proper) : TuplesOnly p := by
  induction h with
  | intro hkind _ ih =>
      refine ⟨fun hsome => Abi.isTuple_iff.mpr (hkind.mp ?_), ih⟩
      rw [Option.isSome_iff_ne_none]
      intro hnone
      exact hsome (by rw [hnone]; rfl)

/-- **Reading.**  The outputs of every function that is read from a description
have components only if they are tuples. -/
theorem tuplesOnly_of_ofJson {value : Json} {entries : List Abi.Entry}
    (h : (Abi.ofJson value).result = .ok entries) {f : Abi.Function}
    (hf : .function f ∈ entries) : ∀ p ∈ f.outputs, TuplesOnly p := fun p hp =>
  .of_proper (Abi.proper_of_ofJson h _ hf p (List.mem_append_right _ hp))

end Reading

end AbiBindings.Descriptor
