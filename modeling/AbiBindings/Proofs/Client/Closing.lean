import AbiBindings.Proofs.Client.Assembly
import AbiBindings.Proofs.Client.Hygiene

/-!
# Every name of a module means something

A name that a generated function uses is looked up in the function, in the
namespace around it, in the module and among the globals, in this order.  A
module is `Closed` when each name that functions leave free then stands for
what the generated code means by it: a declaration of the same namespace, a
helper of the module, or a global.

Functions of a namespace leave few names free (`free_contractNamespace`), and
their parameters capture none of them, since they are hygienic.  Only a
contract may come between a name and its meaning: a module is closed exactly
when no contract has the name of a global that the module uses
(`closed_and_hygienic`).  The check of contract names misses these names, so
such a contract gets its module, which is not closed (`promise_not_closed`).
-/

namespace AbiBindings.Client

open Script Interface

/-- The globals that generated code uses. -/
def globals : List String := ["Buffer", "Array", "Error", "Promise"]

/-- The values that a namespace may declare. -/
def namespaceNames : List String :=
  [Scope.deploy, Scope.contract, Scope.encode, Scope.decode, Scope.links]

/-- The values that a module declares for all of its contracts. -/
def helperNames : List String := [Scope.call, Scope.replace, Scope.readable]

/-- The names that the functions of a namespace may use from the scope around
them. -/
def usedNames : List String :=
  [Scope.contract, Scope.encode, Scope.decode] ++ Scope.call :: globals

/-- What a name stands for that is left free behind the declarations `inner`
of a module: one of these declarations, else a helper that no contract hides,
else a global that no declaration hides. -/
inductive Resolves (m : Module) (inner : List Decl) (x : String) : Prop
  | member (hinner : x ∈ inner.flatMap Decl.values) (hname : x ∈ namespaceNames)
  | helper (hinner : x ∉ inner.flatMap Decl.values) (hmodule : ∃ d ∈ m.decls, x ∈ d.values)
      (honly : ∀ d ∈ m.decls, x ∈ d.values → d ∈ sharedDecls) (hname : x ∈ helperNames)
  | global (hinner : x ∉ inner.flatMap Decl.values)
      (hmodule : x ∉ m.decls.flatMap Decl.values) (hname : x ∈ globals)

/-- All names that the functions of a declaration of the module leave free
mean something: those of a namespace behind its own declarations. -/
def ResolvesAll (m : Module) : Decl → Prop
  | .namespace _ _ inner => ∀ x ∈ Decl.freeOfAll inner, Resolves m inner x
  | d => ∀ x ∈ d.free, Resolves m [] x

/-- All names of a module mean something. -/
def Closed (m : Module) : Prop := ∀ d ∈ m.decls, ResolvesAll m d

/-- A function that has its derived and its added parameters leaves its own
names free and no others. -/
theorem Hygienic.functionFree {derived added own : List String} {body bare : List Stmt}
    (h : Hygienic derived added own body bare) {params : List Param}
    (hdefault : ∀ p ∈ params, p.default = none)
    (hparams : ∀ x, x ∈ derived ∨ x ∈ added → x ∈ params.map Param.name) :
    ∀ x ∈ functionFree params body, x ∈ own := by
  intro x hx
  simp only [Script.functionFree, blockFree, Param.freeOfAll_eq_nil hdefault, List.nil_append,
    mem_outside] at hx
  obtain ⟨⟨hused, hbound⟩, hparam⟩ := hx
  rcases h.used x hused with hx | hx | hx | hx
  · exact absurd (hparams x (.inl hx)) hparam
  · exact absurd (hparams x (.inr hx)) hparam
  · exact absurd hx hbound
  · exact hx

section Namespaces

variable {options : Options} {contract : Contract} {face : Interface} {args : ConstructorArgs}
  {parts : NamespaceParts}

/-- The declarations inside the namespace of a contract. -/
def NamespaceParts.inner (parts : NamespaceParts) : List Decl :=
  parts.links ++
    [.function true Scope.deploy [Scope.transaction] parts.deployParams
        (some (.promise classTy)) parts.deployBody,
      .class true Scope.contract [Scope.transaction] parts.members,
      .const true Scope.encode parts.encodeTable,
      .const true Scope.decode parts.decodeTable]

theorem links_of_standFor (h : parts.StandFor options contract face args) :
    parts.links = [] ∨ ∃ entries : List (String × String), parts.links =
      [.const true Scope.links (.object (entries.map fun e => (e.1, .str e.2)))] := by
  rw [h.links]
  split
  · unfold linksConst?
    split
    · exact .inl rfl
    · exact .inr ⟨_, rfl⟩
  · exact .inl rfl

/-- A namespace declares a deploying function, a class and two tables, and
perhaps the table of placeholders. -/
theorem values_inner (h : parts.StandFor options contract face args) :
    (∀ x ∈ [Scope.deploy, Scope.contract, Scope.encode, Scope.decode],
      x ∈ parts.inner.flatMap Decl.values) ∧
      ∀ x ∈ parts.inner.flatMap Decl.values, x ∈ namespaceNames := by
  rcases links_of_standFor h with hlinks | ⟨entries, hlinks⟩ <;>
    simp [NamespaceParts.inner, hlinks, Decl.values, namespaceNames]

theorem free_links (h : parts.StandFor options contract face args) :
    Decl.freeOfAll parts.links = [] := by
  rcases links_of_standFor h with hlinks | ⟨entries, hlinks⟩
  · rw [hlinks]
    rfl
  · simp [hlinks, Decl.freeOfAll, Decl.free, Expr.freeOfEntries_eq, List.flatMap_map]

/-- The functions of a namespace are the deploying one, those of the class and
those in the two tables. -/
theorem free_inner (h : parts.StandFor options contract face args) :
    Decl.freeOfAll parts.inner =
      functionFree parts.deployParams parts.deployBody ++ parts.members.flatMap Member.free ++
        parts.encodeTable.free ++ parts.decodeTable.free := by
  have hlinks := free_links h
  rw [Decl.freeOfAll_eq] at hlinks ⊢
  rw [NamespaceParts.inner, List.flatMap_append, hlinks]
  simp only [List.flatMap_cons, List.flatMap_nil, Decl.free, List.nil_append, List.append_nil,
    List.append_assoc]

theorem free_ownMembers {inputs : List Abi.Param}
    (h : (ConstructorArgs.ofInputs inputs).result = .ok args) (bytecode : String) :
    ∀ x ∈ (ownMembers bytecode args).flatMap Member.free, x ∈ ["Promise", "Buffer"] := by
  -- only the last member depends on the contract
  have hothers : ∀ x ∈ (ownMembers "" {}).dropLast.flatMap Member.free,
      x ∈ ["Promise", "Buffer"] := by decide
  have hdeploy : ∀ x ∈ (deployMethod bytecode args).free, x ∈ ["Promise", "Buffer"] := by
    apply (hygienic_deployMethod h bytecode).functionFree
    · exact List.forall_mem_cons.mpr ⟨rfl, ConstructorArgs.default_of_ofInputs h⟩
    · intro x hx
      rw [List.map_cons, List.mem_cons]
      exact hx.symm.imp_left List.mem_singleton.mp
  have hmembers : ownMembers bytecode args =
      (ownMembers "" {}).dropLast ++ [deployMethod bytecode args] := rfl
  rw [hmembers, List.flatMap_append, List.forall_mem_append]
  exact ⟨hothers, by simpa using hdeploy⟩

theorem default_of_parameters (g : MethodGroup) : ∀ p ∈ g.parameters, p.default = none := by
  intro p hp
  obtain ⟨q, -, rfl⟩ := List.mem_map.mp hp
  rfl

theorem free_functionMethod {g : MethodGroup} {m : Member}
    (h : (functionMethod g).result = .ok m) :
    ∀ x ∈ m.free, x ∈ [Scope.encode, Scope.decode, Scope.call] := by
  obtain ⟨output, -, rfl⟩ := functionMethod_eq_ok.mp h
  apply (hygienic_method g output).functionFree (default_of_parameters g)
  simp

theorem free_eventMethod (e : EventBinding) : (eventMethod e).free = [] := rfl

theorem free_encoderEntry {g : MethodGroup} {e : Expr} (h : (encoder g).result = .ok e) :
    ∀ x ∈ e.free, x ∈ [Scope.client, "Buffer", "Array", "Error"] := by
  obtain ⟨body, rfl, -, hbody⟩ := hygienic_encoder h
  apply hbody.functionFree (default_of_parameters g)
  simp

theorem free_decoderEntry {g : MethodGroup} {e : Expr} (h : (decoder g).result = .ok e) :
    ∀ x ∈ e.free, x ∈ [Scope.client, "data"] := by
  obtain ⟨ty, -, rfl⟩ := decoder_eq_ok.mp h
  obtain ⟨-, hused, -⟩ := bound_decodeBody g.outputs
  intro x hx
  simp only [Expr.free, Param.freeOfAll, List.map_nil, List.nil_append, mem_outside] at hx
  exact (hused x hx.1.1).resolve_left hx.1.2

section Parts

variable {inputs : List Abi.Param} (hargs : (ConstructorArgs.ofInputs inputs).result = .ok args)
  (h : parts.StandFor options contract face args)
include h

include hargs in
theorem free_deploy : ∀ x ∈ functionFree parts.deployParams parts.deployBody,
    x ∈ ["Promise", "Buffer", Scope.contract] := by
  rw [h.deployParams, h.deployBody]
  apply (hygienic_deployFunction hargs _).functionFree
  · exact List.forall_mem_cons.mpr ⟨rfl, List.forall_mem_cons.mpr
      ⟨rfl, ConstructorArgs.default_of_ofInputs hargs⟩⟩
  · intro x hx
    simpa [or_assoc, or_comm, Param.typed] using hx

include hargs in
theorem free_members : ∀ x ∈ parts.members.flatMap Member.free,
    x ∈ ["Promise", "Buffer"] ∨ x ∈ [Scope.encode, Scope.decode, Scope.call] := by
  intro x hx
  rw [NamespaceParts.members, List.flatMap_append, List.flatMap_append, List.mem_append,
    List.mem_append, h.own, h.subscriptions] at hx
  rcases hx with (hx | hx) | hx
  · exact .inl (free_ownMembers hargs _ x hx)
  · obtain ⟨m, hm, hx⟩ := List.mem_flatMap.mp hx
    obtain ⟨g, -, hok⟩ := SideBySide.exists_item h.methods hm
    exact .inr (free_functionMethod hok x hx)
  · simp [List.flatMap_map, free_eventMethod] at hx

theorem free_encodeTable : ∀ x ∈ parts.encodeTable.free, x ∈ ["Buffer", "Array", "Error"] := by
  intro x hx
  obtain ⟨hx, hclient⟩ : x ∈ Expr.freeOfEntries parts.encoders ∧ x ≠ Scope.client := by
    simpa [NamespaceParts.encodeTable, Stmt.returns, Param.typed] using hx
  rw [Expr.freeOfEntries_eq, List.mem_flatMap] at hx
  obtain ⟨entry, hentry, hx⟩ := hx
  obtain ⟨g, -, -, hok⟩ := SideBySide.exists_item h.encoders hentry
  exact (List.mem_cons.mp (free_encoderEntry hok x hx)).resolve_left hclient

theorem free_decodeTable : parts.decodeTable.free = [] := by
  rw [List.eq_nil_iff_forall_not_mem]
  intro x hx
  obtain ⟨hx, hlocal⟩ : x ∈ Expr.freeOfEntries parts.decoders ∧
      ¬(x = Scope.client ∨ x = "data") := by
    simpa [NamespaceParts.decodeTable, Stmt.returns, Param.typed] using hx
  rw [Expr.freeOfEntries_eq, List.mem_flatMap] at hx
  obtain ⟨entry, hentry, hx⟩ := hx
  obtain ⟨g, -, -, hok⟩ := SideBySide.exists_item h.decoders hentry
  exact hlocal (by simpa using free_decoderEntry hok x hx)

include hargs in
/-- **Free names.**  The functions of a namespace use its class and its two
tables, the helper for calls, and globals; nothing else is left free. -/
theorem free_contractNamespace : ∀ x ∈ Decl.freeOfAll parts.inner, x ∈ usedNames := by
  intro x hx
  rw [free_inner h, free_decodeTable h, List.append_nil, List.mem_append, List.mem_append] at hx
  rcases hx with (hx | hx) | hx
  · exact (by decide : ["Promise", "Buffer", Scope.contract] ⊆ usedNames) (free_deploy hargs h x hx)
  · rcases free_members hargs h x hx with hx | hx
    · exact (by decide : ["Promise", "Buffer"] ⊆ usedNames) hx
    · exact (by decide : [Scope.encode, Scope.decode, Scope.call] ⊆ usedNames) hx
  · exact (by decide : ["Buffer", "Array", "Error"] ⊆ usedNames) (free_encodeTable h x hx)

end Parts

/-- The parameters of contracts capture nothing in the namespace: neither where
a contract is deployed nor in methods and in the entries of the two tables.
Decoders have constants in place of parameters. -/
structure HygienicNamespace (face : Interface) (args : ConstructorArgs) (parts : NamespaceParts) :
    Prop where
  deploy : Hygienic (args.params.map Param.name) [Scope.client, Scope.linker]
    ["Promise", "Buffer", Scope.contract] parts.deployBody
    (deployBody "" {} (.ident Scope.client) (.instance Scope.contract))
  deployMethod : ∃ body, .method .open Scope.deployMember
      (.typed Scope.linker linkerTy :: args.params) (some (.promise classTy)) body ∈ parts.own ∧
    Hygienic (args.params.map Param.name) [Scope.linker] ["Promise", "Buffer"] body
      (deployBody "" {} (.own Scope.client) (.rebind Scope.withAddress))
  methods : List.Forall₂ (fun g m => ∃ output,
      m = .method .open g.ident g.parameters (some (.promise output)) (methodBody g output) ∧
        Hygienic (g.parameters.map Param.name) [] [Scope.encode, Scope.decode, Scope.call]
          (methodBody g output) (methodBody { g with params := [] } output))
    face.methods parts.methods
  encoders : List.Forall₂ (fun g entry => ∃ body, entry.2 = .arrow [] g.parameters none body ∧
      Hygienic (g.parameters.map Param.name) [] [Scope.client, "Buffer", "Array", "Error"] body [])
    face.methods parts.encoders
  decoders : List.Forall₂ (fun _ entry => ∃ ty body, entry.2 = .arrow [] [] (some ty) body ∧
      (blockBound body).Disjoint (Scope.client :: "data" :: Scope.module) ∧
      (∀ x ∈ Stmt.freeOfAll body, x ∈ blockBound body ∨ x ∈ [Scope.client, "data"]) ∧
      arrows (Stmt.nodesOfAll body) = [])
    face.methods parts.decoders

theorem hygienicNamespace {inputs : List Abi.Param}
    (hargs : (ConstructorArgs.ofInputs inputs).result = .ok args)
    (h : parts.StandFor options contract face args) : HygienicNamespace face args parts where
  deploy := h.deployBody ▸ hygienic_deployFunction hargs contract.bytecode
  deployMethod := by
    refine ⟨_, ?_, hygienic_deployMethod hargs contract.bytecode⟩
    rw [h.own]
    simp [ownMembers, deployMethod]
  methods := h.methods.imp fun g m hm => by
    obtain ⟨output, -, rfl⟩ := functionMethod_eq_ok.mp hm
    exact ⟨output, rfl, hygienic_method g output⟩
  encoders := h.encoders.imp fun g entry hentry => by
    obtain ⟨body, hbody, -, hygienic⟩ := hygienic_encoder hentry.2
    exact ⟨body, hbody, hygienic⟩
  decoders := h.decoders.imp fun g entry hentry => by
    obtain ⟨ty, -, hbody⟩ := decoder_eq_ok.mp hentry.2
    exact ⟨ty, _, hbody, bound_decodeBody g.outputs⟩

end Namespaces

section Modules

variable {options : Options} {contracts : List Contract} {m : Module}
  (h : (moduleOf options contracts).result = .ok m)
include h

/-- What a module declares is shared by all contracts or the namespace of one
of them. -/
theorem decls_cases {d : Decl} (hd : d ∈ m.decls) :
    d ∈ sharedDecls ∨ ∃ c ∈ contracts, (contractNamespace options c).result = .ok d := by
  obtain ⟨ds, hds, -, -, rfl⟩ := moduleOf_eq_ok.mp h
  exact (List.mem_append.mp hd).imp_right fun hmem => by
    obtain ⟨c, hc, hok⟩ := SideBySide.exists_item hds hmem
    exact ⟨c, hc, hok⟩

/-- Each contract has its namespace in the module. -/
theorem exists_namespace {c : Contract} (hc : c ∈ contracts) :
    ∃ d ∈ m.decls, (contractNamespace options c).result = .ok d := by
  obtain ⟨ds, hds, -, -, rfl⟩ := moduleOf_eq_ok.mp h
  obtain ⟨d, hd, hok⟩ := SideBySide.exists_value hds hc
  exact ⟨d, List.mem_append_right _ hd, hok⟩

omit h in
theorem values_contractNamespace {c : Contract} {d : Decl}
    (hok : (contractNamespace options c).result = .ok d) : d.values = [c.name] := by
  obtain ⟨_, _, parts, -, -, -, rfl⟩ := contractNamespace_eq_ok.mp hok
  rfl

/-- A name that a function leaves free has its meaning, if no contract has the
name of a global that is used. -/
theorem resolves_of_mem_free
    (hnames : ∀ c ∈ contracts, c.name ∈ globals → c.name ∉ Decl.freeOfAll m.decls)
    {d : Decl} (hd : d ∈ m.decls) {x : String} (hx : x ∈ d.free) {inner : List Decl}
    (hinner : x ∉ inner.flatMap Decl.values) (hused : x = Scope.call ∨ x ∈ globals) :
    Resolves m inner x := by
  have hfree : x ∈ Decl.freeOfAll m.decls := by
    rw [Decl.freeOfAll_eq]
    exact List.mem_flatMap.mpr ⟨d, hd, hx⟩
  obtain ⟨ds, -, hallowed, -, hm⟩ := moduleOf_eq_ok.mp h
  rcases hused with rfl | hglobal
  case inl =>
    refine .helper hinner ⟨callHelper, ?_, List.mem_singleton_self _⟩ ?_ (by decide)
    · rw [hm]
      exact List.mem_append_left _ (by simp [sharedDecls])
    · intro e he hvalue
      refine (decls_cases h he).resolve_right fun hnamespace => ?_
      obtain ⟨c, hc, hok⟩ := hnamespace
      rw [values_contractNamespace hok, List.mem_singleton] at hvalue
      exact absurd (hallowed c hc) (by simp [isContractName, moduleNames, ← hvalue])
  case inr =>
    refine .global hinner (fun hvalue => ?_) hglobal
    obtain ⟨e, he, hvalue⟩ := List.mem_flatMap.mp hvalue
    rcases decls_cases h he with hshared | ⟨c, hc, hok⟩
    · have hapart : ∀ x ∈ sharedDecls.flatMap Decl.values, x ∉ globals := by decide
      exact hapart x (List.mem_flatMap.mpr ⟨e, hshared, hvalue⟩) hglobal
    · rw [values_contractNamespace hok, List.mem_singleton] at hvalue
      exact hnames c hc (hvalue ▸ hglobal) (hvalue ▸ hfree)

omit h in
/-- Where all free names of a declaration have a meaning, so does each that is
not bound inside of it. -/
theorem resolves_of_resolvesAll {d : Decl} (hall : ResolvesAll m d) {x : String}
    (hx : x ∈ d.free) : ∃ inner, x ∉ inner.flatMap Decl.values ∧ Resolves m inner x := by
  cases d with
  | «namespace» exported name inner =>
      rw [Decl.free, mem_outside] at hx
      exact ⟨inner, hx.2, hall x hx.1⟩
  | _ => exact ⟨[], List.not_mem_nil, hall x hx⟩

/-- No contract of a closed module hides a global that the module uses. -/
theorem names_of_closed (hclosed : Closed m) {c : Contract} (hc : c ∈ contracts)
    (hglobal : c.name ∈ globals) : c.name ∉ Decl.freeOfAll m.decls := by
  intro hfree
  rw [Decl.freeOfAll_eq] at hfree
  obtain ⟨d, hd, hx⟩ := List.mem_flatMap.mp hfree
  obtain ⟨inner, hinner, hresolves⟩ := resolves_of_resolvesAll (hclosed d hd) hx
  cases hresolves with
  | member hmem _ => exact hinner hmem
  | helper _ _ _ hname =>
      exact (by decide : ∀ x ∈ globals, x ∉ helperNames) _ hglobal hname
  | global _ hmodule _ =>
      obtain ⟨e, he, hok⟩ := exists_namespace h hc
      exact hmodule (List.mem_flatMap.mpr ⟨e, he, by simp [values_contractNamespace hok]⟩)

/-- A module is closed when no contract hides a global that the module uses. -/
theorem closed_of_names
    (hnames : ∀ c ∈ contracts, c.name ∈ globals → c.name ∉ Decl.freeOfAll m.decls) :
    Closed m := by
  intro d hd
  rcases decls_cases h hd with hshared | ⟨c, hc, hok⟩
  · have hglobal : ∀ d ∈ sharedDecls, ∀ x ∈ d.free, x ∈ globals := by decide
    have hresolves : ∀ x ∈ d.free, Resolves m [] x := fun x hx =>
      resolves_of_mem_free h hnames hd hx List.not_mem_nil (.inr (hglobal d hshared x hx))
    simp only [sharedDecls, List.mem_cons, List.not_mem_nil, or_false] at hshared
    rcases hshared with rfl | rfl | rfl | rfl <;> exact hresolves
  · obtain ⟨face, args, parts, -, hargs, hparts, rfl⟩ := contractNamespace_eq_ok.mp hok
    rw [ConstructorArgs.of_eq_ofInputs] at hargs
    intro x hx
    by_cases hinner : x ∈ parts.inner.flatMap Decl.values
    · exact .member hinner ((values_inner hparts).2 x hinner)
    · have hused := free_contractNamespace hargs hparts x hx
      have hbound : ∀ y ∈ [Scope.contract, Scope.encode, Scope.decode],
          y ∈ parts.inner.flatMap Decl.values := fun y hy =>
        (values_inner hparts).1 y (List.mem_cons_of_mem _ hy)
      have hunbound := (List.mem_append.mp hused).resolve_left fun hmem => hinner (hbound x hmem)
      exact resolves_of_mem_free h hnames hd (mem_outside.mpr ⟨hx, hinner⟩) hinner
        (List.mem_cons.mp hunbound)

/-- **Modules.**  A module is closed exactly when no contract has the name of a
global that the module uses, and every namespace in it is hygienic. -/
theorem closed_and_hygienic :
    (Closed m ↔ ∀ c ∈ contracts, c.name ∈ globals → c.name ∉ Decl.freeOfAll m.decls) ∧
      ∀ c ∈ contracts, ∃ face args parts,
        (Interface.ofContract c options.policy).result = .ok face ∧
        (ConstructorArgs.of face.constructor).result = .ok args ∧
        NamespaceParts.StandFor parts options c face args ∧
        parts.decl c.name ∈ m.decls ∧ HygienicNamespace face args parts := by
  refine ⟨⟨fun hclosed c hc => names_of_closed h hclosed hc, closed_of_names h⟩, ?_⟩
  intro c hc
  obtain ⟨d, hd, hok⟩ := exists_namespace h hc
  obtain ⟨face, args, parts, hface, hargs, hparts, rfl⟩ := contractNamespace_eq_ok.mp hok
  have hinputs := hargs
  rw [ConstructorArgs.of_eq_ofInputs] at hinputs
  exact ⟨face, args, parts, hface, hargs, hparts, hd, hygienicNamespace hinputs hparts⟩

end Modules

/-- A contract whose inputs are named like what generated functions use. -/
def broker : Contract :=
  { name := "Broker", bytecode := "60",
    abi := [.constructor ⟨[{ name := "client", kind := "address" },
        { name := "Promise", kind := "string" }], .nonpayable⟩,
      .function ⟨"call",
        [{ name := "exec", kind := "bytes" }, { name := "Buffer", kind := "uint8" }],
        [{ name := "data", kind := "bool" }], .view⟩] }

/-- They are renamed, or hidden in callbacks that do not use them. -/
theorem closed_and_hygienic_broker :
    ∃ m, (moduleOf {} [broker]).result = .ok m ∧ Closed m ∧
      ∃ face args parts, NamespaceParts.StandFor parts {} broker face args ∧
        args.params.map Param.name = ["client_", "Promise_"] ∧
        face.methods.map (fun g => g.parameters.map Param.name) = [["exec", "Buffer_"]] ∧
        HygienicNamespace face args parts := by
  obtain ⟨m, hm⟩ : ∃ m, (moduleOf {} [broker]).result = .ok m := ⟨_, rfl⟩
  obtain ⟨hclosed, hall⟩ := closed_and_hygienic hm
  obtain ⟨face, args, parts, hface, hargs, hparts, -, hygienic⟩ := hall broker List.mem_cons_self
  refine ⟨m, hm, hclosed.mpr ?_, face, args, parts, hparts, ?_, ?_, hygienic⟩
  · exact fun c hc hglobal =>
      absurd hglobal (List.mem_singleton.mp hc ▸ (by decide : broker.name ∉ globals))
  · cases hface
    cases hargs
    rfl
  · cases hface
    rfl

/-- A contract with the name of a global. -/
def promiseContract : Contract := { name := "Promise", bytecode := "", abi := [] }

/-- A module need not be closed: the namespace of a contract may have the name
of a global, and then the helper for calls makes no promise any more. -/
theorem promise_not_closed :
    ¬ ∀ (options : Options) (contracts : List Contract) (m : Module),
      (moduleOf options contracts).result = .ok m → Closed m := by
  intro hall
  obtain ⟨m, hm⟩ : ∃ m, (moduleOf {} [promiseContract]).result = .ok m := ⟨_, rfl⟩
  have hclosed := hall {} [promiseContract] m hm
  cases hm
  have hresolves := hclosed callHelper (by simp [sharedDecls]) "Promise" (by decide)
  cases hresolves with
  | member hmem _ => exact List.not_mem_nil hmem
  | helper _ _ _ hname => exact absurd hname (by decide)
  | global _ hfree _ => exact hfree (by decide)

end AbiBindings.Client
