import AbiBindings.Proofs.Client.Texts
import AbiBindings.Proofs.Script.Lines

/-!
# Layout of client modules

No type of a module holds a default value: the types of contracts are made of
names, arrays, tuples, unions and objects, and function types are the fixed
ones of callbacks and linkers.  So wherever the printer starts a line, the
level that it hands down is the number of open braces, and with words as the
only texts that are written as they are (`isWord_of_writtenFrom`) this shows in
the text of every module (`printed_layout`).
-/

namespace AbiBindings.Client

open Script Interface

mutual

/-- Types of descriptors hold no code. -/
theorem isCodeFree_ty : (d : Descriptor) → d.ty.isCodeFree = true
  | .integer | .boolean | .bytes | .string | .generic _ => rfl
  | .array element => isCodeFree_ty element
  | .tuple items => areCodeFree_tys items
  | .union members => areCodeFree_tys members

theorem areCodeFree_tys : (ds : List Descriptor) → Ty.areCodeFree (Descriptor.tys ds) = true
  | [] => rfl
  | d :: rest => by
      rw [Descriptor.tys, Ty.areCodeFree, isCodeFree_ty d, areCodeFree_tys rest, Bool.and_self]

end

theorem codeFree_strings (values : List String) : CodeFree (Expr.strings values).types := by
  simp [Expr.strings, Expr.typesOfAll_eq, List.flatMap_map]

theorem codeFree_parameters (g : MethodGroup) : CodeFree (Param.typesOfAll g.parameters) := by
  simp [MethodGroup.parameters, Param.typesOfAll_eq, List.flatMap_map, GroupParam.toParam,
    isCodeFree_ty]

section Deployment

variable {args : ConstructorArgs} {client : Expr} (hclient : CodeFree client.types)
  (hargs : CodeFree (Expr.typesOfAll args.args))
include hclient hargs

theorem codeFree_deployData : CodeFree (deployData args client).types := by
  unfold deployData
  split
  · exact codeFree_nil
  · simp [Transport.encode, Expr.method, Expr.apply, hclient, hargs, codeFree_strings]

theorem codeFree_deployBody (bytecode : String) {target : DeployTarget}
    (htarget : CodeFree (target.settle client).types) :
    CodeFree (Stmt.typesOfAll (deployBody bytecode args client target)) := by
  simp [deployBody, Transport.creation, Transport.deploy, Expr.newPromise, Expr.callback,
    Param.untyped, Stmt.returns, Expr.method, Expr.apply, hclient, htarget,
    codeFree_deployData hclient hargs]

end Deployment

section Constructors

variable {args : ConstructorArgs} {inputs : List Abi.Param}

theorem codeFree_ofInputs (h : (ConstructorArgs.ofInputs inputs).result = .ok args) :
    CodeFree (Param.typesOfAll args.params) ∧ CodeFree (Expr.typesOfAll args.args) := by
  obtain ⟨-, hargs, hparams⟩ := ConstructorArgs.ofInputs_eq_ok.mp h
  constructor
  · rw [Param.typesOfAll_eq, codeFree_flatMap]
    intro q hq
    obtain ⟨p, -, d, -, rfl⟩ := SideBySide.exists_item hparams hq
    simp [Param.typed, isCodeFree_ty]
  · rw [hargs, Expr.typesOfAll_eq, codeFree_flatMap]
    intro e he
    obtain ⟨p, -, rfl⟩ := List.mem_map.mp he
    unfold constructorArgument
    split <;> simp

/-- The members that every class has. -/
theorem codeFree_ownMembers (bytecode : String)
    (h : (ConstructorArgs.ofInputs inputs).result = .ok args) :
    CodeFree ((ownMembers bytecode args).flatMap Member.types) := by
  obtain ⟨hparams, hargs⟩ := codeFree_ofInputs h
  have hbody : CodeFree (Stmt.typesOfAll (deployBody bytecode args (.own Scope.client)
      (.rebind Scope.withAddress))) :=
    codeFree_deployBody (by decide) hargs bytecode (by decide)
  have hdeploy : CodeFree (deployMethod bytecode args).types := by
    have hlinker : CodeFree (Param.typed Scope.linker linkerTy).types := by decide
    have hpromise : CodeFree [Ty.promise classTy] := by decide
    simp only [deployMethod, Member.types, Param.typesOfAll, codeFree_append, hlinker, hparams,
      Option.toList_some, hpromise, hbody, and_self]
  -- only the last member depends on the contract
  have hothers : CodeFree ((ownMembers "" {}).dropLast.flatMap Member.types) := by decide
  have hmembers : ownMembers bytecode args =
      (ownMembers "" {}).dropLast ++ [deployMethod bytecode args] := rfl
  rw [hmembers, List.flatMap_append, codeFree_append]
  exact ⟨hothers, by simpa using hdeploy⟩

end Constructors

/-- The type of outputs has their types in it. -/
theorem isCodeFree_outputType {scope : String} {outputs : List Abi.Param} {ty : Ty}
    (h : (outputType scope outputs).result = .ok ty) : ty.isCodeFree = true := by
  unfold outputType at h
  split at h
  · cases h
    rfl
  · simp only [Outcome.result_bind, Outcome.result_pure, bind_eq_ok] at h
    obtain ⟨ds, -, h⟩ := h
    cases h
    split
    · rw [Ty.isCodeFree, Ty.areCodeFreeFields_iff]
      intro ty hty
      obtain ⟨⟨name, ty⟩, hfield, rfl⟩ := List.mem_map.mp hty
      exact Ty.areCodeFree_iff.mp (areCodeFree_tys ds) ty (List.of_mem_zip hfield).2
    · exact areCodeFree_tys ds

section Groups

variable {g : MethodGroup}

theorem codeFree_functionMethod {m : Member} (h : (functionMethod g).result = .ok m) :
    CodeFree m.types := by
  obtain ⟨output, houtput, rfl⟩ := functionMethod_eq_ok.mp h
  have hoperands : CodeFree (Expr.typesOfAll (g.params.map fun p => .ident p.ident)) := by
    simp [Expr.typesOfAll_eq, List.flatMap_map]
  have hencoded : CodeFree (encoded g).types := by
    simp [encoded, Expr.method, Expr.apply, Expr.own, hoperands]
  simp [Member.types, answer, Ty.promise, Transport.transaction, Ty.named, Expr.own, Stmt.returns,
    decoded, Expr.method, Expr.apply, Param.typed, Transport.bytes, codeFree_parameters,
    isCodeFree_outputType houtput, hencoded]

theorem codeFree_decoder {e : Expr} (h : (decoder g).result = .ok e) : CodeFree e.types := by
  simp only [decoder, Outcome.result_bind, Outcome.result_pure, bind_eq_ok] at h
  obtain ⟨ty, hty, h⟩ := h
  cases h
  have hdecoded : CodeFree (Transport.decode (.ident Scope.client) (.ident "data")
      (Abi.canonicalTypes g.outputs)).types := by
    simp [Transport.decode, Expr.method, Expr.apply, codeFree_strings]
  have hbody : CodeFree (Stmt.typesOfAll (decodeBody g.outputs)) := by
    unfold decodeBody
    split
    · exact codeFree_nil
    split
    · simp [Stmt.returns, hdecoded, Expr.typesOfEntries_eq, List.flatMap_map]
    · simp [Stmt.returns, hdecoded]
  simp [isCodeFree_outputType hty, hbody]

theorem codeFree_encodeCall (f : Abi.Function) : CodeFree (encodeCall g f).types := by
  have hargs : CodeFree (Expr.typesOfAll (f.inputs.map (argument g.params))) := by
    rw [Expr.typesOfAll_eq, List.flatMap_map, codeFree_flatMap]
    intro input _
    unfold argument
    split <;> simp
  simp [encodeCall, Transport.encode, Expr.method, Expr.apply, codeFree_strings, hargs]

/-- Joined expressions have the types of their parts. -/
theorem types_joined {op : BinaryOp} {es : List Expr} {e : Expr}
    (h : Expr.joined? op es = some e) : e.types = es.flatMap Expr.types :=
  Expr.eq_flatMap_of_joined (fun left right => by rw [Expr.types]) h

theorem codeFree_branch {s : Stmt} (h : IsBranch g s) : CodeFree s.types := by
  obtain ⟨f, -, checks, hchecks, rfl⟩ := h
  have hcall : CodeFree (Stmt.returns (encodeCall g f)).types := codeFree_encodeCall f
  cases htest : Expr.allOf? checks with
  | none => exact hcall
  | some test =>
      have htypes : CodeFree test.types := by
        rw [types_joined htest, codeFree_flatMap]
        intro c hc
        obtain ⟨p, -, rfl | ⟨guard, rfl⟩⟩ := hchecks c hc
        · exact codeFree_nil
        · cases guard <;> exact codeFree_nil
      simp [dispatch, htypes, hcall]

theorem codeFree_encoder {e : Expr} (h : (encoder g).result = .ok e) : CodeFree e.types := by
  obtain ⟨body, rfl, hbody⟩ := branches_of_encoder h
  have hstmts : CodeFree (Stmt.typesOfAll body) := by
    rw [Stmt.typesOfAll_eq, codeFree_flatMap]
    intro s hs
    rcases hbody s hs with hbranch | rfl
    · exact codeFree_branch hbranch
    · exact codeFree_nil
  simp [codeFree_parameters, hstmts]

end Groups

theorem codeFree_eventMethod (e : EventBinding) : CodeFree (eventMethod e).types := by
  simp [eventMethod, Member.types, Param.typed, Transport.callbackTy, Transport.listen, Ty.named,
    Expr.own, Expr.method, Expr.apply, Stmt.returns]

theorem codeFree_links {bytecode : String} {links : List LinkReference} {d : Decl}
    (h : linksConst? bytecode links = some d) : CodeFree d.types := by
  unfold linksConst? at h
  split at h
  · cases h
  · cases h
    simp [Decl.types, Expr.typesOfEntries_eq, List.flatMap_map]

/-- **Namespaces.**  The types of a namespace hold no default values. -/
theorem codeFree_contractNamespace {options : Options} {contract : Contract} {d : Decl}
    (h : (contractNamespace options contract).result = .ok d) : CodeFree d.types := by
  obtain ⟨face, args, parts, -, hargs, hparts, rfl⟩ := contractNamespace_eq_ok.mp h
  rw [ConstructorArgs.of_eq_ofInputs] at hargs
  obtain ⟨hparams, hconstructor⟩ := codeFree_ofInputs hargs
  have hlinks : CodeFree (parts.links.flatMap Decl.types) := by
    rw [hparts.links, codeFree_flatMap]
    intro d hd
    split at hd
    · exact codeFree_links (Option.mem_toList.mp hd)
    · cases hd
  have hdeployParams : CodeFree (Param.typesOfAll parts.deployParams) := by
    rw [hparts.deployParams]
    simp [Param.typed, Transport.ty, Transport.transaction, Ty.named, linkerTy, hparams]
  have hdeployBody : CodeFree (Stmt.typesOfAll parts.deployBody) := by
    rw [hparts.deployBody]
    exact codeFree_deployBody (by decide) hconstructor _ (by decide)
  have hmembers : CodeFree (parts.members.flatMap Member.types) := by
    rw [NamespaceParts.members, List.flatMap_append, List.flatMap_append, codeFree_append,
      codeFree_append, hparts.own, hparts.subscriptions, List.flatMap_map]
    refine ⟨⟨codeFree_ownMembers _ hargs, ?_⟩,
      codeFree_flatMap.mpr fun e _ => codeFree_eventMethod e⟩
    rw [codeFree_flatMap]
    intro m hm
    obtain ⟨g, -, hok⟩ := SideBySide.exists_item hparts.methods hm
    exact codeFree_functionMethod hok
  have hencoders : CodeFree (Expr.typesOfEntries parts.encoders) := by
    rw [Expr.typesOfEntries_eq, codeFree_flatMap]
    intro entry hentry
    obtain ⟨g, -, -, hok⟩ := SideBySide.exists_item hparts.encoders hentry
    exact codeFree_encoder hok
  have hdecoders : CodeFree (Expr.typesOfEntries parts.decoders) := by
    rw [Expr.typesOfEntries_eq, codeFree_flatMap]
    intro entry hentry
    obtain ⟨g, -, -, hok⟩ := SideBySide.exists_item hparts.decoders hentry
    exact codeFree_decoder hok
  have htransport : CodeFree (Param.typed Scope.client Transport.ty).types := by decide
  have hraw : CodeFree (Param.typed "data" Transport.bytes).types := by decide
  have hpromise : (Ty.promise classTy).isCodeFree = true := rfl
  simp [NamespaceParts.decl, Decl.types, Decl.typesOfAll_eq, NamespaceParts.encodeTable,
    NamespaceParts.decodeTable, Stmt.returns, -codeFree_flatMap, hlinks, hdeployParams, hdeployBody,
    hmembers, hencoders, hdecoders, htransport, hraw, hpromise]

/-- **Modules.**  The types of a module hold no default values. -/
theorem codeFree_moduleOf {options : Options} {contracts : List Contract} {m : Module}
    (h : (moduleOf options contracts).result = .ok m) : CodeFree m.types := by
  obtain ⟨ds, hds, -, -, rfl⟩ := moduleOf_eq_ok.mp h
  have hshared : CodeFree (sharedDecls.flatMap Decl.types) := by decide
  rw [Module.types, Decl.typesOfAll_eq, List.flatMap_append, codeFree_append]
  refine ⟨hshared, ?_⟩
  rw [codeFree_flatMap]
  intro d hd
  obtain ⟨c, -, hok⟩ := SideBySide.exists_item hds hd
  exact codeFree_contractNamespace hok

/-- **Layout.**  In the text of every module, for every width, brackets match
and are closed, literals hold no line breaks, and each line is indented by the
width for each open brace, one less where it starts with a closing one. -/
theorem printed_layout {options : Options} {contracts : List Contract} {m : Module}
    (h : (moduleOf options contracts).result = .ok m) (width : Nat) :
    LaidOut width (m.print width).toList :=
  Module.laidOut (codeFree_moduleOf h)
    (fun _ hs => isWord_of_writtenFrom (admissible_moduleOf h) (m.writtenFrom _ hs)) width

/-- A contract with something in every part of its namespace, and a line break
in one of its texts. -/
def logbook : Contract :=
  { name := "Logbook", bytecode := "60__$aaaaaaaaaaaaaaaaaaaaaaaaaaaaaaaaaa$__"
    abi := [.constructor ⟨[{ name := "owner", kind := "address" }], .nonpayable⟩,
      .function ⟨"entry", [{ name := "id", kind := "uint256" }],
        [{ name := "first\nline", kind := "string" }], .view⟩,
      .function ⟨"entry",
        [{ name := "id", kind := "uint256" }, { name := "page", kind := "string" }],
        [{ name := "first\nline", kind := "string" }], .view⟩,
      .event ⟨"Added", [{ name := "id", kind := "uint256" }], false⟩]
    links := [⟨"lib/Math.sol", "Math", [⟨1, 20⟩]⟩] }

theorem printed_layout_logbook :
    ∃ m, (moduleOf {} [logbook]).result = .ok m ∧ LaidOut 2 (m.print 2).toList ∧
      LaidOut 0 (m.print 0).toList := by
  have hresult : ∃ m, (moduleOf {} [logbook]).result = .ok m := ⟨_, rfl⟩
  obtain ⟨m, hm⟩ := hresult
  exact ⟨m, hm, printed_layout hm 2, printed_layout hm 0⟩

end AbiBindings.Client
