import AbiBindings.Proofs.Client.Assembly
import AbiBindings.Proofs.Client.Branches
import AbiBindings.Proofs.Client.Deployment
import AbiBindings.Proofs.Client.MemberCalls
import AbiBindings.Proofs.Descriptor.Mapping
import AbiBindings.Proofs.Interface.MemberWords
import AbiBindings.Proofs.Interface.ParameterTypes
import AbiBindings.Proofs.Script.Identifiers
import AbiBindings.Proofs.Script.Printing
import AbiBindings.Proofs.Text.Quoting

/-!
# No text of a contract is code

The texts of a contract (names, types, bytecode, names of libraries) get into
its module by many ways.  Whichever way a text takes, where it ends up as a
name it has become a word, and an identifier where it binds; anything else is
a string literal or the key of an object.  This is `Admissible`, and it is
proved for one building function after the other: constructor arguments and
deployments, the members of the class, the entries of the two tables, the
table of placeholders, and from these for a namespace
(`admissible_contractNamespace`) and a whole module.

With what printing writes (`Module.writtenFrom`) and the meaning of literals
(`Json.parse?_quote`) it follows that a contract has no way to put code into
its module (`no_text_is_code`).
-/

namespace AbiBindings.Client

open Script Interface

/-- The names that generated code uses on its own account. -/
def generatorNames : List String :=
  ["client", "linker", "bytecode", "data", "payload", "Promise", "resolve", "reject", "err", "addr",
    "address", "Buffer", "from", "toString", "toUpperCase", "Contract", "Tx", "Deploy", "Encode",
    "Decode", "Call", "Links", "Readable", "Provider", "exec", "event", "callback", "Uint8Array",
    "Error", "Array", "isBuffer", "isArray", "encode", "decode", "deploy", "listen",
    "withAddress", "getAddress"]

/-- An identifier may stand anywhere. -/
theorem admits_of_isIdentifier {place : Place} {name : String} (h : isIdentifier name = true) :
    place.admits name = true := by
  have hword := (isIdentifier_iff.mp h).1
  cases place <;> first | exact h | exact hword | rfl

theorem admits_of_mem_generatorNames {place : Place} {name : String} (h : name ∈ generatorNames) :
    place.admits name = true := by
  have hall : ∀ name ∈ generatorNames, isIdentifier name = true := by decide +kernel
  exact admits_of_isIdentifier (hall name h)

/-- Names of buffers are admissible. -/
theorem admissible_of_onlyBuffers {texts : List (Place × String)}
    (h : Descriptor.OnlyBuffers texts) : Admissible texts := by
  intro x hx
  rw [h x hx]
  decide

theorem admissible_strings (values : List String) : Admissible (Expr.strings values).texts := by
  simp [Expr.strings, Expr.textsOfAll_eq, List.flatMap_map]

/-- Parameters of methods are named by identifiers. -/
theorem admits_ident (place : Place) (p : GroupParam) : place.admits p.ident = true :=
  admits_of_isIdentifier (Scope.isIdentifier_parameterIdent p.name Scope.memberLocals)

theorem admissible_parameters {g : MethodGroup}
    (htypes : ∀ p ∈ g.params, Admissible p.descriptor.ty.texts) :
    Admissible (Param.textsOfAll g.parameters) := by
  simp only [MethodGroup.parameters, Param.textsOfAll_eq, List.flatMap_map, admissible_flatMap]
  intro p hp
  simp [GroupParam.toParam, admits_ident, htypes p hp]

/-- Joined expressions have the texts of their parts. -/
theorem texts_joined {op : BinaryOp} {es : List Expr} {e : Expr}
    (h : Expr.joined? op es = some e) : e.texts = es.flatMap Expr.texts :=
  Expr.eq_flatMap_of_joined (fun left right => by rw [Expr.texts]) h

/-- Checks have no text but the identifiers of parameters. -/
theorem admissible_check {g : MethodGroup} {e : Expr} (h : IsCheck g e) :
    Admissible e.texts := by
  obtain ⟨p, -, rfl | ⟨guard, rfl⟩⟩ := h
  · simp [Expr.equals, admits_ident]
  · cases guard <;> simp (disch := decide) [Guard.check, Expr.equals, Expr.method, Expr.apply,
      admits_ident, admits_of_mem_generatorNames]

section Deployment

variable {args : ConstructorArgs} {client : Expr} (hclient : Admissible client.texts)
  (hargs : Admissible (Expr.textsOfAll args.args))
include hclient hargs

theorem admissible_deployData : Admissible (deployData args client).texts := by
  unfold deployData
  split
  · decide
  · simp (disch := decide) [Transport.encode, Expr.method, Expr.apply, hclient, hargs,
      admissible_strings, admits_of_mem_generatorNames]

theorem admissible_deployBody (bytecode : String) {target : DeployTarget}
    (htarget : Admissible (target.settle client).texts) :
    Admissible (Stmt.textsOfAll (deployBody bytecode args client target)) := by
  simp (disch := decide) [deployBody, Transport.creation, Transport.deploy, Expr.newPromise,
    Expr.callback, Param.untyped, Place.all, Scope.linker, Stmt.returns, Expr.method, Expr.apply,
    hclient, htarget, admits_of_mem_generatorNames, admissible_deployData hclient hargs]

end Deployment

section Constructors

variable {args : ConstructorArgs} {inputs : List Abi.Param}

/-- Constructor parameters are identifiers of mapped types, and constructor
arguments refer to them. -/
theorem admissible_ofInputs (h : (ConstructorArgs.ofInputs inputs).result = .ok args) :
    Admissible (Param.textsOfAll args.params) ∧ Admissible (Expr.textsOfAll args.args) := by
  obtain ⟨-, hargs, hparams⟩ := ConstructorArgs.ofInputs_eq_ok.mp h
  have hident : ∀ name : String, isIdentifier (deployIdent name) = true := fun name =>
    Scope.isIdentifier_parameterIdent name Scope.deployLocals
  constructor
  · rw [Param.textsOfAll_eq, admissible_flatMap]
    intro q hq
    obtain ⟨p, -, d, hd, rfl⟩ := SideBySide.exists_item hparams hq
    simp [Param.typed, admits_of_isIdentifier (hident p.name),
      admissible_of_onlyBuffers (Descriptor.texts_ty_ofParam p hd)]
  · rw [hargs, Expr.textsOfAll_eq, admissible_flatMap]
    intro e he
    obtain ⟨p, -, rfl⟩ := List.mem_map.mp he
    unfold constructorArgument
    split <;> simp [admits_of_isIdentifier (hident p.name)]

/-- The members that every class has. -/
theorem admissible_ownMembers (bytecode : String)
    (h : (ConstructorArgs.ofInputs inputs).result = .ok args) :
    Admissible ((ownMembers bytecode args).flatMap Member.texts) := by
  obtain ⟨hparams, hargs⟩ := admissible_ofInputs h
  have hbody : Admissible (Stmt.textsOfAll (deployBody bytecode args (.own Scope.client)
      (.rebind Scope.withAddress))) :=
    admissible_deployBody (by decide) hargs bytecode (by decide +kernel)
  have hlinker : Admissible (Param.typed Scope.linker linkerTy).texts := by decide
  have hpromise : Admissible (Ty.promise classTy).texts := by decide
  have hname : Place.member.admits Scope.deployMember = true := by decide
  have hdeploy : Admissible (deployMethod bytecode args).texts := by
    simp only [deployMethod, Member.texts, Param.textsOfAll, Ty.textsOfOption, admissible_cons,
      admissible_append, hname, hlinker, hparams, hpromise, hbody, and_self]
  -- only the last member depends on the contract
  have hothers : Admissible ((ownMembers "" {}).dropLast.flatMap Member.texts) := by
    decide +kernel
  have hmembers : ownMembers bytecode args =
      (ownMembers "" {}).dropLast ++ [deployMethod bytecode args] := rfl
  rw [hmembers, List.flatMap_append, admissible_append]
  exact ⟨hothers, by simpa using hdeploy⟩

end Constructors

/-- The type of outputs has their names as keys only. -/
theorem admissible_outputType {scope : String} {outputs : List Abi.Param} {ty : Ty}
    (h : (outputType scope outputs).result = .ok ty) : Admissible ty.texts := by
  unfold outputType at h
  split at h
  · cases h
    decide
  · simp only [Outcome.result_bind, Outcome.result_pure, bind_eq_ok] at h
    obtain ⟨ds, hds, h⟩ := h
    cases h
    have htys := admissible_of_onlyBuffers (Descriptor.texts_tys_ofParams outputs hds)
    split
    · rw [Ty.texts, Ty.textsOfFields_eq, admissible_flatMap]
      intro field hfield
      have hmem := (List.of_mem_zip hfield).2
      rw [Ty.textsOfAll_eq, admissible_flatMap] at htys
      simp [htys _ hmem]
    · exact htys

section Groups

variable {g : MethodGroup}

theorem admissible_functionMethod {m : Member} (hname : isWord g.ident.toList = true)
    (htypes : ∀ p ∈ g.params, Admissible p.descriptor.ty.texts)
    (h : (functionMethod g).result = .ok m) : Admissible m.texts := by
  obtain ⟨output, houtput, rfl⟩ := functionMethod_eq_ok.mp h
  have hmember : Place.member.admits g.ident = true := hname
  have hoperands : Admissible (Expr.textsOfAll (g.params.map fun p => .ident p.ident)) := by
    simp [Expr.textsOfAll_eq, List.flatMap_map, admits_ident]
  have hencoded : Admissible (encoded g).texts := by
    simp (disch := decide) [encoded, Expr.method, Expr.apply, Expr.own, Scope.encode,
      Scope.client, hmember, hoperands, admits_of_mem_generatorNames]
  have hdecoded : Admissible (decoded g).texts := by
    simp (disch := decide) [decoded, Expr.method, Expr.apply, Expr.own, Scope.decode,
      Scope.client, Place.all, Param.typed, Transport.bytes, Ty.named, Stmt.returns, hmember,
      admits_of_mem_generatorNames]
  simp (disch := decide) [Member.texts, answer, Ty.promise, Transport.transaction, Ty.named,
    Scope.transaction, Scope.call, Scope.client, Scope.address, Expr.own, Stmt.returns, hmember,
    admissible_parameters htypes, admissible_outputType houtput, hencoded, hdecoded,
    admits_of_mem_generatorNames]

theorem admissible_decoder {e : Expr} (h : (decoder g).result = .ok e) :
    Admissible e.texts := by
  simp only [decoder, Outcome.result_bind, Outcome.result_pure, bind_eq_ok] at h
  obtain ⟨ty, hty, h⟩ := h
  cases h
  have hident : ∀ p : Abi.Param, isIdentifier (outputLocal p) = true := fun p =>
    Scope.isIdentifier_parameterIdent p.name Scope.memberLocals
  have hdecoded : Admissible (Transport.decode (.ident Scope.client) (.ident "data")
      (Abi.canonicalTypes g.outputs)).texts := by
    simp (disch := decide) [Transport.decode, Expr.method, Expr.apply, Scope.client,
      admissible_strings, admits_of_mem_generatorNames]
  have hlocals : Admissible (Place.binder.all (g.outputs.map outputLocal)) := by
    simp [Admissible, Place.all, Place.admits, hident]
  have hentries : Admissible (Expr.textsOfEntries
      (g.outputs.map fun p => (p.name, .ident (outputLocal p)))) := by
    simp [Expr.textsOfEntries_eq, List.flatMap_map, admits_of_isIdentifier (hident _)]
  have hbody : Admissible (Stmt.textsOfAll (decodeBody g.outputs)) := by
    unfold decodeBody
    split
    · decide
    split
    · simp [Stmt.returns, hdecoded, hlocals, hentries]
    · simp [Stmt.returns, hdecoded]
  simp [Place.all, admissible_outputType hty, hbody]

theorem admissible_encodeCall (f : Abi.Function) : Admissible (encodeCall g f).texts := by
  have hargs : Admissible (Expr.textsOfAll (f.inputs.map (argument g.params))) := by
    rw [Expr.textsOfAll_eq, List.flatMap_map, admissible_flatMap]
    intro input _
    unfold argument
    split
    · simp [admits_ident]
    · decide
  simp (disch := decide) [encodeCall, Transport.encode, Expr.method, Expr.apply, Scope.client,
    admissible_strings, hargs, admits_of_mem_generatorNames]

theorem admissible_branch {s : Stmt} (h : IsBranch g s) : Admissible s.texts := by
  obtain ⟨f, -, checks, hchecks, rfl⟩ := h
  have hcall : Admissible (Stmt.returns (encodeCall g f)).texts := admissible_encodeCall f
  cases htest : Expr.allOf? checks with
  | none => exact hcall
  | some test =>
      have htexts : Admissible test.texts := by
        rw [texts_joined htest, admissible_flatMap]
        exact fun c hc => admissible_check (hchecks c hc)
      simp [dispatch, htexts, hcall]

theorem admissible_encoder {e : Expr} (htypes : ∀ p ∈ g.params, Admissible p.descriptor.ty.texts)
    (h : (encoder g).result = .ok e) : Admissible e.texts := by
  obtain ⟨body, rfl, hbody⟩ := branches_of_encoder h
  have hstmts : Admissible (Stmt.textsOfAll body) := by
    rw [Stmt.textsOfAll_eq, admissible_flatMap]
    intro s hs
    rcases hbody s hs with hbranch | rfl
    · exact admissible_branch hbranch
    · simp (disch := decide) [noOverload, admits_of_mem_generatorNames]
  simp [Place.all, admissible_parameters htypes, hstmts]

end Groups

/-- A subscription has no other text of its event than its name and its
selector. -/
theorem admissible_eventMethod {e : EventBinding} (hname : isWord e.ident.toList = true) :
    Admissible (eventMethod e).texts := by
  have hmember : Place.member.admits e.ident = true := hname
  simp (disch := decide) [eventMethod, Member.texts, Param.typed, Transport.callbackTy,
    Transport.listen, Ty.named, Scope.readable, Scope.client, Scope.address, Expr.own, Expr.method,
    Expr.apply, Stmt.returns, hmember, admits_of_mem_generatorNames]

/-- The table of placeholders has the names of libraries as keys only. -/
theorem admissible_links {bytecode : String} {links : List LinkReference} {d : Decl}
    (h : linksConst? bytecode links = some d) : Admissible d.texts := by
  unfold linksConst? at h
  split at h
  · cases h
  · cases h
    simp (disch := decide) [Decl.texts, Scope.links, Expr.textsOfEntries_eq, List.flatMap_map,
      admits_of_mem_generatorNames]

/-- The types of the parameters of a method name nothing but buffers. -/
theorem admissible_type_of_mem_params {contract : Contract} {policy : Policy} {face : Interface}
    (h : (Interface.ofContract contract policy).result = .ok face) {g : MethodGroup}
    (hg : g ∈ face.methods) {p : GroupParam} (hp : p ∈ g.params) :
    Admissible p.descriptor.ty.texts := by
  obtain ⟨ds, heq, htakes⟩ := descriptor_of_mem_params h hg hp
  rw [heq]
  apply admissible_of_onlyBuffers
  apply Descriptor.texts_ty_ofMembers
  intro d hd
  obtain ⟨f, -, input, -, -, -, hok⟩ := htakes d hd
  exact Descriptor.texts_ty_ofParam input hok

section Parts

variable {options : Options} {contract : Contract} {face : Interface} {args : ConstructorArgs}
  {parts : NamespaceParts} {inputs : List Abi.Param}
  (hface : (Interface.ofContract contract options.policy).result = .ok face)
  (hargs : (ConstructorArgs.ofInputs inputs).result = .ok args)
  (h : parts.StandFor options contract face args)
include h

theorem admissible_linksOf : Admissible (parts.links.flatMap Decl.texts) := by
  rw [h.links, admissible_flatMap]
  intro d hd
  split at hd
  · exact admissible_links (Option.mem_toList.mp hd)
  · cases hd

include hargs in
theorem admissible_deployOf : Admissible (Param.textsOfAll parts.deployParams) ∧
    Admissible (Stmt.textsOfAll parts.deployBody) := by
  obtain ⟨hparams, hconstructor⟩ := admissible_ofInputs hargs
  constructor
  · have hfirst : Admissible (Param.textsOfAll
        [.typed Scope.client Transport.ty, .typed Scope.linker linkerTy]) := by
      decide +kernel
    have hsplit : Param.textsOfAll parts.deployParams =
        Param.textsOfAll [.typed Scope.client Transport.ty, .typed Scope.linker linkerTy] ++
          Param.textsOfAll args.params := by
      simp [h.deployParams]
    rw [hsplit, admissible_append]
    exact ⟨hfirst, hparams⟩
  · rw [h.deployBody]
    exact admissible_deployBody (by decide) hconstructor _ (by decide +kernel)

include hface hargs in
theorem admissible_membersOf : Admissible (parts.members.flatMap Member.texts) := by
  obtain ⟨hmethodWords, heventWords⟩ := isWord_idents_ofContract hface
  rw [NamespaceParts.members, List.flatMap_append, List.flatMap_append, admissible_append,
    admissible_append, h.own, h.subscriptions]
  refine ⟨⟨admissible_ownMembers _ hargs, ?_⟩, ?_⟩
  · rw [admissible_flatMap]
    intro m hm
    obtain ⟨g, hg, hok⟩ := SideBySide.exists_item h.methods hm
    exact admissible_functionMethod (hmethodWords g hg)
      (fun p hp => admissible_type_of_mem_params hface hg hp) hok
  · rw [List.flatMap_map, admissible_flatMap]
    exact fun e he => admissible_eventMethod (heventWords e he)

include hface in
theorem admissible_tablesOf : Admissible (Expr.textsOfEntries parts.encoders) ∧
    Admissible (Expr.textsOfEntries parts.decoders) := by
  simp only [Expr.textsOfEntries_eq, admissible_flatMap]
  constructor
  · intro entry hentry
    obtain ⟨g, hg, -, hok⟩ := SideBySide.exists_item h.encoders hentry
    simpa using admissible_encoder (fun p hp => admissible_type_of_mem_params hface hg hp) hok
  · intro entry hentry
    obtain ⟨g, -, -, hok⟩ := SideBySide.exists_item h.decoders hentry
    simpa using admissible_decoder hok

end Parts

/-- **Namespaces.**  All texts of a namespace are admissible. -/
theorem admissible_contractNamespace {options : Options} {contract : Contract} {d : Decl}
    (hname : isIdentifier contract.name = true)
    (h : (contractNamespace options contract).result = .ok d) : Admissible d.texts := by
  obtain ⟨face, args, parts, hface, hargs, hparts, rfl⟩ := contractNamespace_eq_ok.mp h
  rw [ConstructorArgs.of_eq_ofInputs] at hargs
  have hlinks := admissible_linksOf hparts
  obtain ⟨hdeployParams, hdeployBody⟩ := admissible_deployOf hargs hparts
  have hmembers := admissible_membersOf hface hargs hparts
  obtain ⟨hencoders, hdecoders⟩ := admissible_tablesOf hface hparts
  have htransport : Admissible (Param.typed Scope.client Transport.ty).texts := by decide
  have hraw : Admissible (Param.typed "data" Transport.bytes).texts := by decide
  have hpromise : Admissible (Ty.promise classTy).texts := by decide
  have hbinder : Place.binder.admits contract.name = true := hname
  simp (disch := decide) [NamespaceParts.decl, Decl.texts, Decl.textsOfAll_eq, Place.all,
    NamespaceParts.encodeTable, NamespaceParts.decodeTable, Stmt.returns, Scope.deploy,
    Scope.contract, Scope.transaction, Scope.encode, Scope.decode, -admissible_flatMap, hbinder,
    hlinks, hdeployParams, hdeployBody, hmembers, hencoders, hdecoders, htransport, hraw,
    hpromise, admits_of_mem_generatorNames]

/-- **Modules.**  All texts of a module are admissible. -/
theorem admissible_moduleOf {options : Options} {contracts : List Contract} {m : Module}
    (h : (moduleOf options contracts).result = .ok m) : Admissible m.texts := by
  obtain ⟨ds, hds, hnames, -, rfl⟩ := moduleOf_eq_ok.mp h
  have hshared : Admissible (sharedDecls.flatMap Decl.texts) := by decide +kernel
  rw [Module.texts, Decl.textsOfAll_eq, List.flatMap_append, admissible_append]
  refine ⟨hshared, ?_⟩
  rw [admissible_flatMap]
  intro d hd
  obtain ⟨c, hc, hok⟩ := SideBySide.exists_item hds hd
  have hname : isIdentifier c.name = true := by
    have hallowed := hnames c hc
    simp only [isContractName, Bool.and_eq_true] at hallowed
    exact hallowed.1
  exact admissible_contractNamespace hname hok

/-- What is written from admissible texts as it is, is a word. -/
theorem isWord_of_writtenFrom {texts : List (Place × String)} (h : Admissible texts) {s : String}
    (hs : (Token.word s).WrittenFrom texts) : isWord s.toList = true := by
  have hkeywords : ∀ word ∈ keywords, isWord word.toList = true := by decide
  have hreserved : ∀ word ∈ reservedWords, isWord word.toList = true := by decide
  rcases hs with hs | hs | hs | hs | ⟨-, hs | hs⟩
  · exact hkeywords s hs
  · exact (isIdentifier_iff.mp (h _ hs)).1
  · exact h _ hs
  · exact h _ hs
  · exact (isIdentifier_iff.mp hs).1
  · exact hreserved s (by simpa [isReserved] using hs)

/-- **No text is code.**  In every module that is made of contracts, names are
words, and identifiers where they bind.  Printing writes keywords, names, and
keys that are identifiers or reserved words as they are, all of them words;
it writes all other texts, which are literals and keys, between quotes, and
what it writes there denotes just that text. -/
theorem no_text_is_code {options : Options} {contracts : List Contract} {m : Module}
    (h : (moduleOf options contracts).result = .ok m) :
    (∀ x ∈ m.texts, x.1.admits x.2 = true) ∧
      (∀ t ∈ m.tokens, t.WrittenFrom m.texts) ∧
      (∀ s, .word s ∈ m.tokens → isWord s.toList = true) ∧
      ∀ s, .quoted s ∈ m.tokens → ∀ width,
        Json.parse? ((Token.quoted s).text width) = some (.string s) := by
  have hadmissible := admissible_moduleOf h
  have hwritten := m.writtenFrom
  exact ⟨hadmissible, hwritten, fun s hs => isWord_of_writtenFrom hadmissible (hwritten _ hs),
    fun s _ _ => Json.parse?_quote s⟩

/-- A contract whose texts look like code. -/
def hostile : Contract :=
  { name := "Hostile", bytecode := "\"; steal(); \"",
    abi := [.constructor ⟨[{ name := "a = steal()", kind := "\"bytes\"" }], .nonpayable⟩,
      .function ⟨"f() \x7d steal(); \x7b", [{ name := "x) \x7d", kind := "uint256 */" }],
        [{ name := "\"]: steal(), [\"", kind := "bool" }], .view⟩,
      .event ⟨"on;steal()", [{ name := "é", kind := "*/" }], false⟩],
    links := [⟨"\" + steal() + \"", "L", []⟩] }

/-- None of it gets out of its quotes. -/
theorem no_text_is_code_hostile :
    ∃ m, (moduleOf {} [hostile]).result = .ok m ∧ Admissible m.texts ∧
      (.key, "\"]: steal(), [\"") ∈ m.texts ∧ (.binder, "a___steal__") ∈ m.texts ∧
      (.member, "f") ∈ m.texts ∧ (.member, "on_steal") ∈ m.texts := by
  have hresult : ∃ m, (moduleOf {} [hostile]).result = .ok m := ⟨_, rfl⟩
  obtain ⟨m, hm⟩ := hresult
  obtain ⟨htexts, -⟩ := no_text_is_code hm
  refine ⟨m, hm, htexts, ?_⟩
  cases hm
  decide +kernel

end AbiBindings.Client
