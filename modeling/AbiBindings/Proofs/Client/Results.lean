import AbiBindings.Proofs.Client.MemberCalls
import AbiBindings.Proofs.Client.ParameterNames
import AbiBindings.Proofs.Descriptor.EmptyTuples

/-!
# Declared results and decoded values

What a method gives back is said three times over: the decoder of its group
has an annotated type and a body that makes the value, and the method has a
type of its own, which is also an argument of the call it makes.  Nothing in
the generated code compares them.

The outputs of the group alone decide all three.  `Decodes` tells the type and
the body side by side, one case for each shape of outputs, and the key fact is
that the type of outputs never comes with another body
(`decodes_of_outputType`).  Where all outputs have names the body takes the
result apart into constants, each named after its output, and makes an object
of them again: the keys get the values in order as long as the constants are
distinct (`takesApart_parameterIdents`).  Whatever group has a decoder and a
method gets the same type on both (`results_as_decoded`).
-/

namespace AbiBindings.Client

open Script Interface

/-- The type of the value of an output that is declared in `scope`. -/
def MappedTo (scope : String) (p : Abi.Param) (ty : Ty) : Prop :=
  ∃ d, (Descriptor.ofParam scope p).result = .ok d ∧ ty = d.ty

/-- The type of a value that outputs of those types decode to. -/
def resultTy (outputs : List Abi.Param) (tys : List Ty) : Ty :=
  if outputs.isEmpty then .void
  else if allNamed outputs then .object ((outputs.map Abi.Param.name).zip tys)
  else .tuple tys

/-- The raw result of a decoder, decoded at those types. -/
def decodedAt (types : List String) : Expr :=
  .method (.ident Scope.client) "decode" [.ident "data", .strings types]

/-- The constants into which a decoder takes a result apart, each of them for
the output of the name at its place.  Their names are identifiers beside those
that the decoder uses.  They are distinct for distinct words that do not clash;
then they are bound to the decoded values by their places, as parameters are to
arguments, and the object that is made of them has these values in order. -/
structure TakesApart (names locals : List String) : Prop where
  identifiers : ∀ x ∈ locals, isIdentifier x = true
  fresh : ∀ x ∈ locals, x ∉ Scope.memberLocals ++ Scope.module
  nodup_iff : DistinctWords names → (locals.Nodup ↔ ¬ Scope.Clash Scope.memberLocals names)
  values : locals.Nodup → ∀ decoded : List Value, decoded.length = names.length →
    ((names.zip (locals.map Expr.ident)).map fun entry =>
      (entry.1, entry.2.eval? (Env.ofArguments locals decoded))) =
        names.zip (decoded.map some)

/-- The type and the body of a decoder of the outputs, in its three shapes:
nothing to decode, one key for each output, or one item for each output.  The
key of an output is bound to the constant that is named after it. -/
inductive Decodes (scope : String) (outputs : List Abi.Param) : Ty → List Stmt → Prop
  | nothing (hnone : outputs = []) : Decodes scope outputs .void [.ret none]
  | keys {tys : List Ty} {locals : List String} (hsome : outputs ≠ [])
      (hnamed : ∀ p ∈ outputs, p.name ≠ "")
      (htys : List.Forall₂ (MappedTo scope) outputs tys)
      (hlocals : locals =
        outputs.map fun p => Scope.parameterIdent p.name Scope.memberLocals)
      (hapart : TakesApart (outputs.map Abi.Param.name) locals) :
      Decodes scope outputs (.object ((outputs.map Abi.Param.name).zip tys))
        [.constArray locals (decodedAt (outputs.map Abi.Param.canonicalType)),
          .returns (.object ((outputs.map Abi.Param.name).zip (locals.map .ident)))]
  | items {tys : List Ty} (hunnamed : ∃ p ∈ outputs, p.name = "")
      (htys : List.Forall₂ (MappedTo scope) outputs tys) :
      Decodes scope outputs (.tuple tys)
        [.returns (decodedAt (outputs.map Abi.Param.canonicalType))]

/-- The decoder and the method of a group give the same result: one type is
annotated on the decoder, promised by the method and passed on to its call,
the body of the decoder makes a value of it, and unless there are no outputs
it decodes once. -/
def ReturnsAsDecoded (g : MethodGroup) (e : Expr) (m : Member) : Prop :=
  ∃ ty body, Decodes g.name g.outputs ty body ∧
    e = .arrow [] [] (some ty) body ∧
    m = .method .open g.ident g.parameters (some (.promise ty))
      [.const "data" (encoded g),
        .returns (.call (.ident Scope.call) [Transport.transaction, ty]
          [.own Scope.client, .own Scope.address, .ident "data", decoded g])] ∧
    transportCalls "decode" e.nodes =
      if g.outputs = [] then []
      else [[.ident "data", .strings (g.outputs.map Abi.Param.canonicalType)]]

section Outputs

variable {scope : String} {outputs : List Abi.Param} {ty : Ty}

/-- All outputs have names when there are some and no name is empty. -/
theorem allNamed_iff : allNamed outputs = true ↔ outputs ≠ [] ∧ ∀ p ∈ outputs, p.name ≠ "" := by
  simp [allNamed, Abi.Param.isNamed]

/-- The body of a decoder whose outputs all have names. -/
theorem decodeBody_of_allNamed (h : allNamed outputs = true) :
    decodeBody outputs =
      [.constArray (outputs.map outputLocal)
          (decodedAt (outputs.map Abi.Param.canonicalType)),
        .returns (.object ((outputs.map Abi.Param.name).zip
          ((outputs.map outputLocal).map .ident)))] := by
  have hsome : outputs.isEmpty = false := List.isEmpty_eq_false_iff.mpr (allNamed_iff.mp h).1
  have hentries : (outputs.map fun p => (p.name, Expr.ident (outputLocal p))) =
      (outputs.map Abi.Param.name).zip ((outputs.map outputLocal).map .ident) := by
    rw [List.map_map, List.zip_map']
    rfl
  simp only [decodeBody, hsome, h, Bool.false_eq_true, if_false, if_true, hentries]
  rfl

/-- The body of a decoder one of whose outputs has no name. -/
theorem decodeBody_of_not_allNamed (hsome : outputs ≠ []) (h : ¬ allNamed outputs = true) :
    decodeBody outputs = [.returns (decodedAt (outputs.map Abi.Param.canonicalType))] := by
  simp only [decodeBody, List.isEmpty_eq_false_iff.mpr hsome, h, Bool.false_eq_true, if_false]
  rfl

/-- An object of distinct constants has under each key the decoded value at
the place of that key. -/
theorem eval_entries {names locals : List String} (hnodup : locals.Nodup)
    {decoded : List Value} (hlength : decoded.length = locals.length) :
    ((names.zip (locals.map Expr.ident)).map fun entry =>
      (entry.1, entry.2.eval? (Env.ofArguments locals decoded))) =
        names.zip (decoded.map some) := by
  rw [← Env.map_ofArguments hnodup hlength, List.zip_map_right, List.zip_map_right,
    List.map_map]
  rfl

/-- **Constants.**  Named after the outputs as parameters are named after the
inputs, the constants of a decoder stand for the outputs in order. -/
theorem takesApart_parameterIdents (names : List String) :
    TakesApart names (names.map fun name => Scope.parameterIdent name Scope.memberLocals) := by
  refine ⟨?_, ?_, ?_, ?_⟩
  · intro x hx
    obtain ⟨name, -, rfl⟩ := List.mem_map.mp hx
    exact Scope.isIdentifier_parameterIdent name _
  · intro x hx
    obtain ⟨name, -, rfl⟩ := List.mem_map.mp hx
    exact avoid_not_mem _ _
  · intro hdistinct
    exact Scope.nodup_parameterIdents_iff Scope.separated_memberLocals hdistinct.nodup
      hdistinct.words
  · intro hnodup decoded hlength
    exact eval_entries hnodup (by simpa using hlength)

/-- The outputs have a type when each of them has a descriptor. -/
theorem outputType_eq_ok :
    (outputType scope outputs).result = .ok ty ↔
      ∃ ds, List.Forall₂ (fun p d => (Descriptor.ofParam scope p).result = .ok d) outputs ds ∧
        ty = resultTy outputs (Descriptor.tys ds) := by
  by_cases hnone : outputs = []
  case pos =>
    subst hnone
    simp [outputType, resultTy, List.forall₂_nil_left_iff, eq_comm (a := ty)]
  case neg =>
    simp only [outputType, resultTy, List.isEmpty_eq_false_iff.mpr hnone, Bool.false_eq_true,
      if_false, Outcome.result_bind, Outcome.result_pure, Descriptor.ofParams_eq_mapM,
      bind_eq_ok, Outcome.result_mapM_eq_ok, Except.ok.injEq, eq_comm (a := ty)]

/-- **Shapes.**  The type of outputs comes with the body that decodes them. -/
theorem decodes_of_outputType (h : (outputType scope outputs).result = .ok ty) :
    Decodes scope outputs ty (decodeBody outputs) := by
  obtain ⟨ds, hds, rfl⟩ := outputType_eq_ok.mp h
  by_cases hnone : outputs = []
  case pos =>
    subst hnone
    exact .nothing rfl
  case neg =>
    have htys : List.Forall₂ (MappedTo scope) outputs (Descriptor.tys ds) := by
      rw [Descriptor.tys_eq_map, List.forall₂_map_right_iff]
      exact hds.imp fun _ d hd => ⟨d, hd, rfl⟩
    rw [resultTy, List.isEmpty_eq_false_iff.mpr hnone, if_neg Bool.false_ne_true]
    by_cases hall : allNamed outputs = true
    case pos =>
      have hapart : TakesApart (outputs.map Abi.Param.name) (outputs.map outputLocal) := by
        have hidents := takesApart_parameterIdents (outputs.map Abi.Param.name)
        rw [List.map_map] at hidents
        exact hidents
      rw [if_pos hall, decodeBody_of_allNamed hall]
      exact .keys hnone (allNamed_iff.mp hall).2 htys rfl hapart
    case neg =>
      have hunnamed : ∃ p ∈ outputs, p.name = "" := by
        simpa [allNamed_iff, hnone] using hall
      rw [if_neg hall, decodeBody_of_not_allNamed hnone hall]
      exact .items hunnamed htys

/-- What a decoded result consists of, the types in it left out. -/
theorem nodes_decodedAt (types : List String) :
    (decodedAt types).nodes =
      [decodedAt types, .prop (.ident Scope.client) "decode", .ident Scope.client,
        .ident "data", .strings types] ++ types.map .str := by
  have htypes : Expr.nodesOfAll (types.map .str) = types.map .str :=
    Expr.nodesOfAll_of_isLeaf (by simp [Expr.isLeaf])
  simp [decodedAt, Expr.method, Expr.apply, Expr.strings, Expr.nodes, Expr.nodesOfAll, htypes]

theorem transportCalls_decodedAt (types : List String) :
    transportCalls "decode" (decodedAt types).nodes = [[.ident "data", .strings types]] := by
  have hleaves : ∀ e ∈ types.map Expr.str, e.isLeaf = true := by simp [Expr.isLeaf]
  rw [nodes_decodedAt, transportCalls_append, transportCalls_of_isLeaf hleaves]
  rfl

/-- A function calls what its body calls. -/
theorem transportCalls_arrow {method : String} (returns : Option Ty) (body : List Stmt) :
    transportCalls method (Expr.arrow [] [] returns body).nodes =
      transportCalls method (Stmt.nodesOfAll body) := by
  rfl

/-- A decoder decodes once, unless there are no outputs. -/
theorem transportCalls_of_decodes {body : List Stmt} (h : Decodes scope outputs ty body) :
    transportCalls "decode" (Expr.arrow [] [] (some ty) body).nodes =
      if outputs = [] then []
      else [[.ident "data", .strings (outputs.map Abi.Param.canonicalType)]] := by
  rw [transportCalls_arrow]
  cases h with
  | nothing hnone =>
      rw [if_pos hnone]
      rfl
  | @keys tys locals hsome hnamed htys hlocals hapart =>
      -- the object behind the decoded result holds locals only
      have hentries : transportCalls "decode" (Expr.nodesOfEntries
          ((outputs.map Abi.Param.name).zip (locals.map .ident))) = [] := by
        rw [Expr.nodesOfEntries_eq, transportCalls_flatMap, List.flatMap_eq_nil_iff]
        intro entry hentry
        obtain ⟨name, -, hname⟩ := List.mem_map.mp (List.of_mem_zip hentry).2
        rw [← hname]
        rfl
      have hobject : transportCalls "decode" (Stmt.nodesOfAll [.returns (.object
          ((outputs.map Abi.Param.name).zip (locals.map .ident)))]) = [] := by
        simp only [Stmt.nodesOfAll, Stmt.returns, Stmt.nodes, Expr.nodesOfOption, Expr.nodes,
          List.append_nil]
        exact hentries
      rw [if_neg hsome, Stmt.nodesOfAll, transportCalls_append, hobject, List.append_nil]
      exact transportCalls_decodedAt _
  | items hunnamed htys =>
      have hsome : outputs ≠ [] := by
        obtain ⟨p, hp, -⟩ := hunnamed
        exact List.ne_nil_of_mem hp
      rw [if_neg hsome, Stmt.nodesOfAll, Stmt.nodesOfAll, List.append_nil]
      exact transportCalls_decodedAt _

end Outputs

/-- A group that has a decoder and a method has one result: the method
promises what the decoder declares, and the decoder makes a value of that
type. -/
theorem returnsAsDecoded {g : MethodGroup} {e : Expr} {m : Member}
    (he : (decoder g).result = .ok e) (hm : (functionMethod g).result = .ok m) :
    ReturnsAsDecoded g e m := by
  obtain ⟨ty, hty, rfl⟩ := decoder_eq_ok.mp he
  obtain ⟨output, houtput, rfl⟩ := functionMethod_eq_ok.mp hm
  obtain rfl : ty = output := Except.ok.inj (hty.symm.trans houtput)
  have hdecodes := decodes_of_outputType hty
  exact ⟨ty, _, hdecodes, rfl, rfl, transportCalls_of_decodes hdecodes⟩

/-- **Results.**  Of every group that has a decoder and a method, the two give
the same result; where all outputs have names, the decoder binds the key of each
to the constant that it takes from the place of that output.  And of every
contract that has a namespace: the table of decoders and the class have one
entry and one method for each method group, in order, and these give the same
result. -/
theorem results_as_decoded :
    (∀ (g : MethodGroup) (e : Expr) (m : Member), (decoder g).result = .ok e →
      (functionMethod g).result = .ok m → ReturnsAsDecoded g e m) ∧
    ∀ (options : Options) (contract : Contract) (d : Decl),
      (contractNamespace options contract).result = .ok d →
      ∃ face parts, (Interface.ofContract contract options.policy).result = .ok face ∧
        d = NamespaceParts.decl parts contract.name ∧
        parts.decoders.length = face.methods.length ∧
        parts.methods.length = face.methods.length ∧
        ∀ (i : Nat) (g : MethodGroup), face.methods[i]? = some g →
          ∃ e m, parts.decoders[i]? = some (g.ident, e) ∧ parts.methods[i]? = some m ∧
            ReturnsAsDecoded g e m := by
  refine ⟨fun g e m he hm => returnsAsDecoded he hm, ?_⟩
  intro options contract d h
  obtain ⟨face, args, parts, hface, -, hparts, rfl⟩ := contractNamespace_eq_ok.mp h
  refine ⟨face, parts, hface, rfl, hparts.decoders.length_eq.symm,
    hparts.methods.length_eq.symm, ?_⟩
  intro i g hg
  obtain ⟨entry, hentry, hkey, he⟩ := SideBySide.getElem?_value hparts.decoders hg
  obtain ⟨m, hmember, hm⟩ := SideBySide.getElem?_value hparts.methods hg
  obtain ⟨key, e⟩ := entry
  cases hkey
  exact ⟨e, m, hentry, hmember, returnsAsDecoded he hm⟩

/-- A price and what it is for; a decoder uses the second name itself. -/
def quoteOutputs : List Abi.Param :=
  [{ name := "price", kind := "uint256" }, { name := "data", kind := "bytes32[]" }]

/-- A contract with a method of each shape of outputs: none, some that all
have names, and some that have not. -/
def exchange : Contract :=
  { name := "Exchange", bytecode := "",
    abi := [.function ⟨"close", [], [], .nonpayable⟩,
      .function ⟨"quote", [], quoteOutputs, .view⟩,
      .function ⟨"pair", [],
        [{ name := "base", kind := "address" }, { name := "", kind := "bool" }], .view⟩] }

/-- What a decoder of a price declares. -/
def quoteTy : Ty := .object [("price", .number), ("data", .array (.ref "Buffer" []))]

/-- What a decoder of a price does. -/
def quoteBody : List Stmt :=
  [.constArray ["price", "data_"]
      (.call (.prop (.ident "client") "decode") []
        [.ident "data", .array [.str "uint256", .str "bytes32[]"]]),
    .ret (some (.object [("price", .ident "price"), ("data", .ident "data_")]))]

private theorem eq_of_decodes_quoteOutputs {scope : String} {ty : Ty} {body : List Stmt}
    (h : Decodes scope quoteOutputs ty body) : ty = quoteTy ∧ body = quoteBody := by
  cases h with
  | nothing hnone => simp [quoteOutputs] at hnone
  | @keys tys locals hsome hnamed htys hlocals hapart =>
      obtain ⟨price, rest, ⟨d, hd, rfl⟩, hrest, rfl⟩ := List.forall₂_cons_left_iff.mp htys
      obtain ⟨data, others, ⟨d', hd', rfl⟩, hothers, rfl⟩ := List.forall₂_cons_left_iff.mp hrest
      obtain rfl := List.forall₂_nil_left_iff.mp hothers
      obtain rfl : .integer = d := Except.ok.inj hd
      obtain rfl : .array .bytes = d' := Except.ok.inj hd'
      rw [hlocals]
      exact ⟨rfl, rfl⟩
  | items hunnamed htys => simp [quoteOutputs] at hunnamed

/-- Its three methods give what their decoders declare, and each key of the
second is bound to a constant of its own. -/
theorem results_as_decoded_exchange :
    ∃ d face parts, (contractNamespace {} exchange).result = .ok d ∧
      (Interface.ofContract exchange .combine).result = .ok face ∧
      d = NamespaceParts.decl parts "Exchange" ∧
      (face.methods.map fun g => (g.ident, g.outputs.map Abi.Param.name)) =
        [("close", []), ("quote", ["price", "data"]), ("pair", ["base", ""])] ∧
      parts.decoders[1]? = some ("quote", .arrow [] [] (some quoteTy) quoteBody) ∧
      ∀ (i : Nat) (g : MethodGroup), face.methods[i]? = some g →
        ∃ e m, parts.decoders[i]? = some (g.ident, e) ∧ parts.methods[i]? = some m ∧
          ReturnsAsDecoded g e m := by
  obtain ⟨d, hd⟩ : ∃ d, (contractNamespace {} exchange).result = .ok d := ⟨_, rfl⟩
  obtain ⟨face, hface, houtputs, quote, hquote, hident, hquoted⟩ :
      ∃ face, (Interface.ofContract exchange .combine).result = .ok face ∧
        (face.methods.map fun g => (g.ident, g.outputs.map Abi.Param.name)) =
          [("close", []), ("quote", ["price", "data"]), ("pair", ["base", ""])] ∧
        ∃ quote, face.methods[1]? = some quote ∧ quote.ident = "quote" ∧
          quote.outputs = quoteOutputs :=
    ⟨_, rfl, rfl, _, rfl, rfl, rfl⟩
  obtain ⟨face', parts, hface', hdecl, -, -, hresults⟩ :=
    results_as_decoded.2 {} exchange d hd
  obtain rfl : face = face' := Except.ok.inj (hface.symm.trans hface')
  obtain ⟨e, m, hentry, -, ty, body, hdecodes, he, -⟩ := hresults 1 quote hquote
  rw [hquoted] at hdecodes
  obtain ⟨rfl, rfl⟩ := eq_of_decodes_quoteOutputs hdecodes
  rw [hident, he] at hentry
  exact ⟨d, face, parts, hd, hface, hdecl, houtputs, hentry, hresults⟩

end AbiBindings.Client
