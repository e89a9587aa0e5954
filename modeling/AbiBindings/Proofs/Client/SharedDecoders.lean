import AbiBindings.Proofs.Client.Results
import AbiBindings.Proofs.Descriptor.Spelling

/-!
# One decoder for all overloads

A combined method has one decoder, made of the outputs of its first function,
and gives the results of every function behind it to this decoder.  The
outputs of the others are only compared with those of the first, by their
names and canonical types; they are never mapped.

Names and canonical types are all that the body of a decoder is made of
(`decodeBody_congr`), so the body is right for every function.  The type is
right too wherever there are two types to compare (`decoder_fits_overloads`),
but there need not be two: of the outputs of two functions that are written
alike, the first may have a type and the second none
(`decoder_misfits_overload`).
-/

namespace AbiBindings.Client

open Script Interface
open Descriptor (ofParam TuplesOnly LacksComponents MapsToTuple)

/-- Outputs that hold no delimiter, with components for tuples only. -/
def PlainOutputs (outputs : List Abi.Param) : Prop :=
  ∀ p ∈ outputs, p.typeTree.Spelled ∧ TuplesOnly p

/-- The outputs have the same type wherever both have one. -/
def SameTypes (scope : String) (outputs others : List Abi.Param) : Prop :=
  ∀ ty ty', (outputType scope outputs).result = .ok ty →
    (outputType scope others).result = .ok ty' → ty = ty'

/-- The outputs have the same type or both have none. -/
def SameResult (scope : String) (outputs others : List Abi.Param) : Prop :=
  ∀ ty, (outputType scope outputs).result = .ok ty ↔ (outputType scope others).result = .ok ty

section Outputs

variable {scope : String} {outputs others : List Abi.Param}

/-- Outputs that callers cannot tell apart have the same names and canonical
types, one by one. -/
theorem forall₂_of_outputKey (h : outputs.map outputKey = others.map outputKey) :
    List.Forall₂ (fun p q : Abi.Param => p.name = q.name ∧ p.canonicalType = q.canonicalType)
      outputs others := by
  have hkeys : List.Forall₂ (fun p q => outputKey p = outputKey q) outputs others :=
    List.forall₂_map_left_iff.mp (List.forall₂_map_right_iff.mp (List.forall₂_eq_eq_eq ▸ h))
  exact hkeys.imp fun p q hkey => Prod.mk.inj hkey

/-- What is made of names is the same for the same names. -/
theorem map_name_congr {α : Type} (hnames : outputs.map Abi.Param.name = others.map Abi.Param.name)
    (k : String → α) : (outputs.map fun p => k p.name) = others.map fun p => k p.name := by
  have hmapped := congrArg (List.map k) hnames
  rwa [List.map_map, List.map_map] at hmapped

theorem isEmpty_congr (hnames : outputs.map Abi.Param.name = others.map Abi.Param.name) :
    outputs.isEmpty = others.isEmpty := by
  rw [← List.isEmpty_map (f := Abi.Param.name), hnames, List.isEmpty_map]

/-- The body of a decoder is made of names and canonical types. -/
theorem decodeBody_congr (hnames : outputs.map Abi.Param.name = others.map Abi.Param.name)
    (htypes : Abi.canonicalTypes outputs = Abi.canonicalTypes others) :
    decodeBody outputs = decodeBody others := by
  have hlocals : outputs.map outputLocal = others.map outputLocal :=
    map_name_congr hnames fun name => Scope.parameterIdent name Scope.memberLocals
  have hentries : (outputs.map fun p => (p.name, Expr.ident (outputLocal p))) =
      others.map fun p => (p.name, Expr.ident (outputLocal p)) :=
    map_name_congr hnames fun name =>
      (name, Expr.ident (Scope.parameterIdent name Scope.memberLocals))
  simp only [decodeBody, isEmpty_congr hnames, allNamed_congr hnames, htypes, hlocals, hentries]

theorem resultTy_congr (hnames : outputs.map Abi.Param.name = others.map Abi.Param.name)
    (tys : List Ty) : resultTy outputs tys = resultTy others tys := by
  simp only [resultTy, isEmpty_congr hnames, allNamed_congr hnames, hnames]

/-- Outputs have a type unless some tuple in them lacks components. -/
theorem exists_outputType_iff :
    (∃ ty, (outputType scope outputs).result = .ok ty) ↔
      ¬ ∃ p ∈ outputs, LacksComponents MapsToTuple p := by
  constructor
  · rintro ⟨ty, hty⟩ ⟨p, hp, hlacks⟩
    obtain ⟨ds, hds, -⟩ := outputType_eq_ok.mp hty
    obtain ⟨d, -, hd⟩ := SideBySide.exists_value hds hp
    exact hlacks.not_ok scope d hd
  · intro hcomplete
    have hsome : ∀ p ∈ outputs, ∃ d, (ofParam scope p).result = .ok d := fun p hp =>
      Descriptor.exists_ofParam_iff.mpr fun hlacks => hcomplete ⟨p, hp, hlacks⟩
    obtain ⟨ds, hds⟩ := SideBySide.exists_values hsome
    exact ⟨_, outputType_eq_ok.mpr ⟨ds, hds, rfl⟩⟩

/-- **Types.**  Plain outputs that callers cannot tell apart have the same type
wherever both have one. -/
theorem sameTypes_of_outputKey (houtputs : PlainOutputs outputs) (hothers : PlainOutputs others)
    (h : outputs.map outputKey = others.map outputKey) : SameTypes scope outputs others := by
  intro ty ty' hty hty'
  obtain ⟨ds, hds, rfl⟩ := outputType_eq_ok.mp hty
  obtain ⟨ds', hds', rfl⟩ := outputType_eq_ok.mp hty'
  have hsides := forall₂_of_outputKey h
  have hnames : outputs.map Abi.Param.name = others.map Abi.Param.name :=
    (SideBySide.map_eq_map hsides fun _ _ hkey => hkey.1.symm).symm
  have hone : ∀ p ∈ outputs, ∀ q ∈ others, p.name = q.name ∧ p.canonicalType = q.canonicalType →
      ∀ d d', (ofParam scope p).result = .ok d → (ofParam scope q).result = .ok d' → d = d' :=
    fun p hp q hq hkey _ _ hd hd' =>
      Descriptor.descriptor_unique (houtputs p hp).2 (hothers q hq).2
        (Abi.normal_eq_of_canonicalType (houtputs p hp).1 (hothers q hq).1 hkey.2) hd hd'
  rw [SideBySide.values_unique hsides hds hds' hone, resultTy_congr hnames]

/-- Outputs of the same type wherever both have one have the same type or both
none exactly when both lack components or neither does. -/
theorem sameResult_iff (h : SameTypes scope outputs others) :
    SameResult scope outputs others ↔
      ((∃ p ∈ outputs, LacksComponents MapsToTuple p) ↔
        ∃ q ∈ others, LacksComponents MapsToTuple q) := by
  have hexists : ((∃ p ∈ outputs, LacksComponents MapsToTuple p) ↔
      ∃ q ∈ others, LacksComponents MapsToTuple q) ↔
        ((∃ ty, (outputType scope outputs).result = .ok ty) ↔
          ∃ ty, (outputType scope others).result = .ok ty) := by
    rw [exists_outputType_iff, exists_outputType_iff, not_iff_not]
  rw [hexists]
  constructor
  · exact fun hsame => exists_congr hsame
  · intro hboth ty
    constructor
    · intro hty
      obtain ⟨ty', hty'⟩ := hboth.mp ⟨ty, hty⟩
      rwa [h ty ty' hty hty']
    · intro hty
      obtain ⟨ty', hty'⟩ := hboth.mpr ⟨ty, hty⟩
      rwa [← h ty' ty hty' hty]

/-- Where no tuple has a single component of empty type, plain outputs that
callers cannot tell apart lack components alike. -/
theorem exists_lacks_of_outputKey (houtputs : PlainOutputs outputs)
    (hothers : PlainOutputs others) (hreadable : ∀ p ∈ outputs, p.typeTree.Readable)
    (hother : ∀ q ∈ others, q.typeTree.Readable)
    (h : outputs.map outputKey = others.map outputKey)
    (hlacks : ∃ p ∈ outputs, LacksComponents MapsToTuple p) :
    ∃ q ∈ others, LacksComponents MapsToTuple q := by
  obtain ⟨p, hp, hlacks⟩ := hlacks
  obtain ⟨q, hq, -, htype⟩ := SideBySide.exists_value (forall₂_of_outputKey h) hp
  have htree := Abi.typeTree_eq_of_readable (hother q hq) (hreadable p hp) htype.symm
  exact ⟨q, hq, hlacks.of_tuplesOnly (houtputs p hp).2 (hothers q hq).2 htree⟩

end Outputs

/-- **One decoder for all overloads.**  In a contract that is accepted and
combined and has plain outputs, the outputs of every function behind a method
have the names, the types to decode and the decoder body of those of the first
function, and the same type wherever both have one.  They have the same type or
both none exactly when both lack components or neither does, and that is always
so when no tuple has a single component of empty type.  This is because plain
parameters of one canonical type have one descriptor if they have any.  Outputs
that are read from a description have components for tuples only. -/
theorem decoder_fits_overloads (contract : Contract) (face : Interface)
    (h : (Interface.ofContract contract .combine).result = .ok face)
    (hplain : ∀ f ∈ Abi.namedFunctions contract.abi, PlainOutputs f.outputs) :
    (∀ g ∈ face.methods, ∀ f ∈ g.overloads,
      Abi.canonicalTypes f.outputs = Abi.canonicalTypes g.outputs ∧
      f.outputs.map Abi.Param.name = g.outputs.map Abi.Param.name ∧
      decodeBody f.outputs = decodeBody g.outputs ∧
      SameTypes g.name f.outputs g.outputs ∧
      (SameResult g.name f.outputs g.outputs ↔
        ((∃ p ∈ f.outputs, LacksComponents MapsToTuple p) ↔
          ∃ q ∈ g.outputs, LacksComponents MapsToTuple q)) ∧
      ((∀ p ∈ f.outputs, p.typeTree.Readable) → (∀ q ∈ g.outputs, q.typeTree.Readable) →
        SameResult g.name f.outputs g.outputs)) ∧
    (∀ (p q : Abi.Param) (scope other : String) (d d' : Descriptor),
      p.typeTree.Spelled → q.typeTree.Spelled → TuplesOnly p → TuplesOnly q →
      p.canonicalType = q.canonicalType → (ofParam scope p).result = .ok d →
      (ofParam other q).result = .ok d' → d = d') ∧
    ∀ (value : Json) (entries : List Abi.Entry), (Abi.ofJson value).result = .ok entries →
      ∀ f ∈ Abi.namedFunctions entries, ∀ p ∈ f.outputs, TuplesOnly p := by
  refine ⟨?_, ?_, ?_⟩
  · intro g hg f hf
    have hkeys := outputs_of_mem_methods h hg hf
    have hmem : ∀ f ∈ g.overloads, f ∈ Abi.namedFunctions contract.abi := by
      intro f hf
      rw [overloads_of_combine h hg] at hf
      exact (List.mem_filter.mp hf).1
    have houtputs : PlainOutputs f.outputs := hplain f (hmem f hf)
    have hfirst : PlainOutputs g.outputs := hplain g.first (hmem g.first List.mem_cons_self)
    have hnames : f.outputs.map Abi.Param.name = g.outputs.map Abi.Param.name := by
      simpa [outputKey, Function.comp_def] using congrArg (List.map Prod.fst) hkeys
    have htypes : Abi.canonicalTypes f.outputs = Abi.canonicalTypes g.outputs := by
      simpa [Abi.canonicalTypes, outputKey, Function.comp_def] using
        congrArg (List.map Prod.snd) hkeys
    have hsame : SameTypes g.name f.outputs g.outputs :=
      sameTypes_of_outputKey houtputs hfirst hkeys
    refine ⟨htypes, hnames, decodeBody_congr hnames htypes, hsame, sameResult_iff hsame, ?_⟩
    intro hreadable hother
    exact (sameResult_iff hsame).mpr
      ⟨exists_lacks_of_outputKey houtputs hfirst hreadable hother hkeys,
        exists_lacks_of_outputKey hfirst houtputs hother hreadable hkeys.symm⟩
  · intro p q scope other d d' hp hq hptuples hqtuples htype hd hd'
    exact Descriptor.descriptor_unique hptuples hqtuples
      (Abi.normal_eq_of_canonicalType hp hq htype) hd hd'
  · intro value entries h f hf
    obtain ⟨e, he, hsome⟩ := List.mem_filterMap.mp hf
    cases e with
    | function f' =>
        obtain ⟨-, rfl⟩ : f'.name.isEmpty = false ∧ f' = f := by simpa using hsome
        exact Descriptor.tuplesOnly_of_ofJson h he
    | event e => cases hsome
    | constructor c => cases hsome

/-- The orders that are found for a maker. -/
def foundByMaker : Abi.Param :=
  { name := "found", kind := "tuple[]",
    components := some [{ name := "amount", kind := "uint256" },
      { name := "memo", kind := "string" }] }

/-- The orders that are found for a memo; the components have other names. -/
def foundByMemo : Abi.Param :=
  { name := "found", kind := "tuple[]",
    components := some [{ name := "value", kind := "uint256" },
      { name := "", kind := "string" }] }

/-- The orders of a maker. -/
def ordersByMaker : Abi.Function :=
  ⟨"orders", [{ name := "maker", kind := "address" }], [foundByMaker], .view⟩

/-- The orders of a memo, from some amount on. -/
def ordersByMemo : Abi.Function :=
  ⟨"orders", [{ name := "memo", kind := "string" }, { name := "least", kind := "uint256" }],
    [foundByMemo], .view⟩

/-- A contract in which orders can be found in two ways. -/
def orderBook : Contract :=
  { name := "OrderBook", bytecode := "",
    abi := [.function ordersByMaker, .function ordersByMemo] }

/-- The two ways have one decoder, which fits both. -/
theorem decoder_fits_overloads_orderBook :
    ∃ face g, (Interface.ofContract orderBook .combine).result = .ok face ∧
      (∀ f ∈ Abi.namedFunctions orderBook.abi, PlainOutputs f.outputs) ∧
      g ∈ face.methods ∧ g.overloads = [ordersByMaker, ordersByMemo] ∧
      decodeBody ordersByMemo.outputs = decodeBody g.outputs ∧
      SameResult g.name ordersByMemo.outputs g.outputs ∧
      (∃ ty, (outputType g.name ordersByMemo.outputs).result = .ok ty) ∧
      ∃ d, (ofParam "maker" foundByMaker).result = .ok d ∧
        (ofParam "memo" foundByMemo).result = .ok d := by
  have hmaker : foundByMaker.typeTree.Spelled ∧ TuplesOnly foundByMaker :=
    ⟨by decide, .of_tuple rfl (by simp [foundByMaker, TuplesOnly.of_none])⟩
  have hmemo : foundByMemo.typeTree.Spelled ∧ TuplesOnly foundByMemo :=
    ⟨by decide, .of_tuple rfl (by simp [foundByMemo, TuplesOnly.of_none])⟩
  have hplain : ∀ f ∈ [ordersByMaker, ordersByMemo], PlainOutputs f.outputs := by
    simp [PlainOutputs, ordersByMaker, ordersByMemo, hmaker, hmemo]
  have hreadable : ∀ p ∈ [foundByMaker, foundByMemo], p.typeTree.WellFormed := by decide
  obtain ⟨face, hface, g, hg, hname, houtputs, hoverloads⟩ :
      ∃ face, (Interface.ofContract orderBook .combine).result = .ok face ∧
        ∃ g ∈ face.methods, g.name = "orders" ∧ g.outputs = [foundByMaker] ∧
          g.overloads = [ordersByMaker, ordersByMemo] :=
    ⟨_, rfl, _, List.mem_cons_self, rfl, rfl, rfl⟩
  obtain ⟨hgroups, hparams, -⟩ := decoder_fits_overloads orderBook face hface hplain
  obtain ⟨-, -, hbody, -, -, hresult⟩ := hgroups g hg ordersByMemo (by simp [hoverloads])
  have hsame : SameResult g.name ordersByMemo.outputs g.outputs := by
    apply hresult
    · simpa [ordersByMemo] using (hreadable foundByMemo (by simp)).readable
    · simpa [houtputs] using (hreadable foundByMaker (by simp)).readable
  obtain ⟨d, hd⟩ : ∃ d, (ofParam "maker" foundByMaker).result = .ok d := ⟨_, rfl⟩
  obtain ⟨d', hd'⟩ : ∃ d', (ofParam "memo" foundByMemo).result = .ok d' := ⟨_, rfl⟩
  obtain rfl := hparams foundByMaker foundByMemo "maker" "memo" d d' hmaker.1 hmemo.1 hmaker.2
    hmemo.2 rfl hd hd'
  exact ⟨face, g, hface, hplain, hg, hoverloads, hbody, hsame, hname ▸ ⟨_, rfl⟩, d, hd, hd'⟩

/-- Readings by number; the value is a tuple whose component has no type. -/
def readNumber : Abi.Function :=
  ⟨"read", [{ name := "number", kind := "uint256" }],
    [{ name := "value", kind := "tuple", components := some [{ name := "", kind := "" }] }],
    .view⟩

/-- Readings by key; the value is a tuple without components. -/
def readKey : Abi.Function :=
  ⟨"read", [{ name := "key", kind := "string" }],
    [{ name := "value", kind := "tuple", components := some [] }], .view⟩

/-- A contract with both readings. -/
def meter : Contract :=
  { name := "Meter", bytecode := "", abi := [.function readNumber, .function readKey] }

/-- One decoder does not always fit all overloads: the outputs of the two
readings are written alike, and those of the first have a type while those of
the second have none. -/
theorem decoder_misfits_overload :
    ¬ ∀ (contract : Contract) (face : Interface),
      (Interface.ofContract contract .combine).result = .ok face →
      (∀ f ∈ Abi.namedFunctions contract.abi, PlainOutputs f.outputs) →
      ∀ g ∈ face.methods, ∀ f ∈ g.overloads, SameResult g.name f.outputs g.outputs := by
  intro hall
  have hplain : ∀ f ∈ Abi.namedFunctions meter.abi, PlainOutputs f.outputs := by
    have hnamed : Abi.namedFunctions meter.abi = [readNumber, readKey] := rfl
    rw [hnamed]
    simp only [List.forall_mem_cons, PlainOutputs, readNumber, readKey]
    refine ⟨⟨⟨by decide, .of_tuple rfl ?_⟩, by simp⟩, ⟨⟨by decide, .of_tuple rfl ?_⟩, by simp⟩,
      by simp⟩
    · simp [TuplesOnly.of_none]
    · simp
  obtain ⟨face, hface, g, hg, hname, houtputs, hoverloads⟩ :
      ∃ face, (Interface.ofContract meter .combine).result = .ok face ∧
        ∃ g ∈ face.methods, g.name = "read" ∧ g.outputs = readNumber.outputs ∧
          g.overloads = [readNumber, readKey] :=
    ⟨_, rfl, _, List.mem_cons_self, rfl, rfl, rfl⟩
  have hsame := hall meter face hface hplain g hg readKey (by simp [hoverloads])
  rw [houtputs, hname] at hsame
  -- the decoder of the first reading has a type, which is none of the second
  have hkey : (outputType "read" readKey.outputs).result =
      .ok (.object [("value", .tuple [.string])]) := (hsame _).mpr rfl
  cases hkey

end AbiBindings.Client
