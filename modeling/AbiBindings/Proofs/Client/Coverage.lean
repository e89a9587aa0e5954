import AbiBindings.Proofs.Client.Deployment
import AbiBindings.Proofs.Client.MemberCalls
import AbiBindings.Proofs.Client.Namespace

/-!
# No entry is lost or repeated

The functions behind the method groups are the named functions in grouped
order (`overloads_ofContract`), and every encoder calls the transport once
for each of its functions, so the table of encoders has one call for each
named function (`encodeCalls_encodeTable`).  Subscriptions are made of the
named events in the same way and nothing else listens.  What the namespace is
made of never mentions an entry without a name: it is the same when all of
these are left out (`contractNamespace_filter`).
-/

namespace AbiBindings.Abi

/-- Whether the entry has a member or is the constructor. -/
def Entry.isNamed : Entry → Bool
  | .function f => !f.name.isEmpty
  | .event e => !e.name.isEmpty
  | .constructor _ => true

/-- Whether the entry is a function or event with a name or with inputs. -/
def Entry.hasSelector : Entry → Bool
  | .constructor _ => false
  | entry => !entry.name.isEmpty || !entry.inputs.isEmpty

/-- The signature of the declared name and the inputs. -/
def Entry.signature (entry : Entry) : Signature := .of entry.name entry.inputs

theorem Entry.signature?_eq (entry : Entry) :
    entry.signature? = if entry.hasSelector then some entry.signature else none := by
  have hblank : ∀ (unnamed bare : Bool) (s : Signature),
      (if unnamed && bare then none else some s) =
        if !unnamed || !bare then some s else none := by
    intro unnamed bare s
    cases unnamed <;> cases bare <;> rfl
  cases entry with
  | constructor c => rfl
  | function f => exact hblank f.name.isEmpty f.inputs.isEmpty f.signature
  | event e => exact hblank e.name.isEmpty e.inputs.isEmpty e.signature

/-- The signatures are those of the entries with selectors, in declared
order. -/
theorem filterMap_signature (entries : List Entry) :
    entries.filterMap Entry.signature? =
      (entries.filter Entry.hasSelector).map Entry.signature := by
  induction entries with
  | nil => rfl
  | cons entry rest ih =>
      rw [List.filterMap_cons, Entry.signature?_eq, ih]
      by_cases hselector : entry.hasSelector <;> simp [hselector]

/-- What finds nothing in entries without names finds as much without them. -/
private theorem filterMap_filter_isNamed {α : Type} {f : Entry → Option α}
    (hf : ∀ entry, entry.isNamed = false → f entry = none) (entries : List Entry) :
    (entries.filter Entry.isNamed).filterMap f = entries.filterMap f := by
  rw [List.filterMap_filter]
  apply List.filterMap_congr
  intro entry _
  by_cases hnamed : entry.isNamed
  · rw [if_pos hnamed]
  · rw [if_neg hnamed, hf entry (by simpa using hnamed)]

theorem namedFunctions_filter (entries : List Entry) :
    namedFunctions (entries.filter Entry.isNamed) = namedFunctions entries := by
  apply filterMap_filter_isNamed
  intro entry hnamed
  cases entry <;> simp_all [Entry.isNamed]

theorem namedEvents_filter (entries : List Entry) :
    namedEvents (entries.filter Entry.isNamed) = namedEvents entries := by
  apply filterMap_filter_isNamed
  intro entry hnamed
  cases entry <;> simp_all [Entry.isNamed]

theorem constructors_filter (entries : List Entry) :
    constructors (entries.filter Entry.isNamed) = constructors entries := by
  apply filterMap_filter_isNamed
  intro entry hnamed
  cases entry <;> simp_all [Entry.isNamed]

end AbiBindings.Abi

namespace AbiBindings.Interface

/-- Entries without names leave an interface as it is, but for the
signatures. -/
theorem ofContract_filter {contract : Contract} {policy : Policy} {face : Interface}
    (h : (ofContract contract policy).result = .ok face) :
    (ofContract { contract with abi := contract.abi.filter Abi.Entry.isNamed } policy).result =
      .ok { face with
        signatures := (contract.abi.filter Abi.Entry.isNamed).filterMap Abi.Entry.signature? } := by
  obtain ⟨constructor, groups, hconstructor, hgroups, rfl⟩ := ofContract_eq_ok.mp h
  have hnames : memberNames policy (contract.abi.filter Abi.Entry.isNamed) =
      memberNames policy contract.abi := by
    rw [memberNames, Abi.namedFunctions_filter, Abi.namedEvents_filter]
    rfl
  refine ofContract_eq_ok.mpr ⟨constructor, groups, ?_, ?_, ?_⟩
  · rw [constructorOf_eq_ok, Abi.constructors_filter]
    exact constructorOf_eq_ok.mp hconstructor
  · rw [hnames]
    exact hgroups
  · rw [hnames]

end AbiBindings.Interface

namespace AbiBindings.Client

open Script Interface

/-- **Entries without names.**  Nothing is generated for functions and events
without names: the namespace is the same without them. -/
theorem contractNamespace_filter {options : Options} {contract : Contract} {d : Decl}
    (h : (contractNamespace options contract).result = .ok d) :
    (contractNamespace options
      { contract with abi := contract.abi.filter Abi.Entry.isNamed }).result = .ok d := by
  obtain ⟨face, args, parts, hface, hargs, hparts, hd⟩ := contractNamespace_eq_ok.mp h
  refine contractNamespace_eq_ok.mpr ⟨_, args, parts, ofContract_filter hface, hargs, ?_, hd⟩
  exact ⟨hparts.links, hparts.deployParams, hparts.deployBody, hparts.own, hparts.methods,
    hparts.subscriptions, hparts.encoders, hparts.decoders⟩

/-- The members that every class has do not listen. -/
theorem listenCalls_ownMembers {bytecode : String} {args : ConstructorArgs}
    {inputs : List Abi.Param} (hargs : (ConstructorArgs.ofInputs inputs).result = .ok args) :
    ∀ m ∈ ownMembers bytecode args, transportCalls "listen" m.nodes = [] := by
  have hdeploy : transportCalls "listen" (deployMethod bytecode args).nodes = [] := by
    have hparams : Param.nodesOfAll (.typed Scope.linker linkerTy :: args.params) = [] :=
      Param.nodesOfAll_eq_nil
        (List.forall_mem_cons.mpr ⟨rfl, ConstructorArgs.default_of_ofInputs hargs⟩)
    rw [deployMethod, Member.nodes, hparams]
    exact listenCalls_deployBody (.inr rfl) (ConstructorArgs.isLeaf_of_ofInputs hargs) _ _
  simp only [ownMembers, List.forall_mem_cons, hdeploy]
  exact ⟨rfl, rfl, rfl, rfl, rfl, trivial, by simp⟩

section StandFor

variable {parts : NamespaceParts} {options : Options} {contract : Contract}
  {face : Interface} {args : ConstructorArgs}

/-- **The table of encoders.**  Read in order, the table calls the transport
once for each function behind the method groups. -/
theorem encodeCalls_encodeTable (h : parts.StandFor options contract face args) :
    transportCalls "encode" parts.encodeTable.nodes =
      face.methods.flatMap fun g => g.overloads.map (encodeArgs g) := by
  have htable : transportCalls "encode" parts.encodeTable.nodes =
      parts.encoders.flatMap fun entry => transportCalls "encode" entry.2.nodes := by
    rw [← transportCalls_flatMap, ← Expr.nodesOfEntries_eq, ← List.append_nil
      (Expr.nodesOfEntries parts.encoders)]
    rfl
  rw [htable]
  have hencoders := h.encoders
  generalize parts.encoders = entries at hencoders
  generalize face.methods = groups at hencoders
  induction hencoders with
  | nil => rfl
  | cons hentry _ ih =>
      obtain ⟨body, -, hcalls⟩ := transportCalls_encoder hentry.2
      rw [List.flatMap_cons, List.flatMap_cons, hcalls, ih]

/-- Neither the members that every class has nor the methods listen. -/
theorem listenCalls_eq_nil (h : parts.StandFor options contract face args)
    (hargs : (ConstructorArgs.of face.constructor).result = .ok args) :
    ∀ m ∈ parts.own ++ parts.methods, transportCalls "listen" m.nodes = [] := by
  intro m hm
  rcases List.mem_append.mp hm with hown | hmethod
  · rw [ConstructorArgs.of_eq_ofInputs] at hargs
    rw [h.own] at hown
    exact listenCalls_ownMembers hargs m hown
  · obtain ⟨g, -, hresult⟩ := SideBySide.exists_item h.methods hmethod
    exact transportCalls_functionMethod hresult

end StandFor

/-- The namespace covers the named functions and events of the contract: the
calls of the table of encoders are those of the functions and the
subscriptions listen for the events, both once each and in grouped order.  A
call carries the selector of the canonical signature of its function and the
canonical types of the inputs, a subscription the selector of its event. -/
structure NamespaceParts.Covers (parts : NamespaceParts) (entries : List Abi.Entry) : Prop where
  encodes : (transportCalls "encode" parts.encodeTable.nodes).map (·.take 2) =
    (groupedBy (fun f => baseName f.name) (Abi.namedFunctions entries)).map fun f =>
      [.str (selector (Abi.canonicalSignature f.name f.inputs)),
        .array (f.inputs.map fun input => .str input.canonicalType)]
  functions_once :
    (groupedBy (fun f => baseName f.name) (Abi.namedFunctions entries)).Perm
      (Abi.namedFunctions entries)
  listens : (parts.subscriptions.map fun m => transportCalls "listen" m.nodes) =
    (groupedBy (fun e => baseName e.name) (Abi.namedEvents entries)).map fun e =>
      [[.str (selector (Abi.canonicalSignature e.name e.inputs)),
        .prop .this "address", .ident "callback"]]
  events_once :
    (groupedBy (fun e => baseName e.name) (Abi.namedEvents entries)).Perm
      (Abi.namedEvents entries)
  others_silent : ∀ m ∈ parts.own ++ parts.methods, transportCalls "listen" m.nodes = []

/-- **No entry is lost or repeated.**  In the namespace of a contract, under
either policy, every named function has one call in the table of encoders and
every named event one subscription, each with its own selector and in grouped
order; functions and events without names leave no trace; and the interface
lists the signatures of all entries with selectors in declared order. -/
theorem entries_covered_once {options : Options} {contract : Contract} {d : Decl}
    (h : (contractNamespace options contract).result = .ok d) :
    (∃ face parts, (Interface.ofContract contract options.policy).result = .ok face ∧
      d = NamespaceParts.decl parts contract.name ∧ parts.Covers contract.abi ∧
      face.signatures = (contract.abi.filter Abi.Entry.hasSelector).map fun entry =>
        ⟨Abi.canonicalSignature entry.name entry.inputs,
          selector (Abi.canonicalSignature entry.name entry.inputs)⟩) ∧
    (contractNamespace options
      { contract with abi := contract.abi.filter Abi.Entry.isNamed }).result = .ok d := by
  refine ⟨?_, contractNamespace_filter h⟩
  obtain ⟨face, args, parts, hface, hargs, hparts, hd⟩ := contractNamespace_eq_ok.mp h
  have hencodes : (transportCalls "encode" parts.encodeTable.nodes).map (·.take 2) =
      (face.methods.flatMap MethodGroup.overloads).map fun f =>
        [.str (selector (Abi.canonicalSignature f.name f.inputs)),
          .array (f.inputs.map fun input => .str input.canonicalType)] := by
    rw [encodeCalls_encodeTable hparts, List.map_flatMap, List.map_flatMap]
    apply List.flatMap_congr
    intro g _
    rw [List.map_map]
    apply List.map_congr_left
    intro f _
    rw [Function.comp_apply, encodeArgs_eq]
    rfl
  have hlistens : (parts.subscriptions.map fun m => transportCalls "listen" m.nodes) =
      (face.events.map EventBinding.event).map fun e =>
        [[.str (selector (Abi.canonicalSignature e.name e.inputs)),
          .prop .this "address", .ident "callback"]] := by
    rw [hparts.subscriptions, List.map_map, List.map_map]
    apply List.map_congr_left
    intro e _
    exact transportCalls_eventMethod e
  rw [overloads_ofContract hface] at hencodes
  rw [events_ofContract hface] at hlistens
  have hsignatures : face.signatures = contract.abi.filterMap Abi.Entry.signature? := by
    obtain ⟨constructor, groups, -, -, rfl⟩ := ofContract_eq_ok.mp hface
    rfl
  refine ⟨face, parts, hface, hd, ?_, hsignatures.trans (Abi.filterMap_signature _)⟩
  exact ⟨hencodes, groupedBy_perm _ _, hlistens, groupedBy_perm _ _,
    listenCalls_eq_nil hparts hargs⟩

/-- A function between two others that share a name. -/
def getTotal : Abi.Function := ⟨"total", [], [{ name := "", kind := "uint256" }], .view⟩

/-- A deposit to a numbered account. -/
def depositTo : Abi.Function :=
  ⟨"deposit", [{ name := "account", kind := "uint32" }], [], .payable⟩

/-- A deposit to the sender's own account. -/
def depositOwn : Abi.Function := ⟨"deposit", [], [], .payable⟩

/-- What is told of a deposit. -/
def deposited : Abi.Event := ⟨"Deposited", [{ name := "amount", kind := "uint256" }], false⟩

/-- A contract with entries without names among the others. -/
def ledger : Contract :=
  { name := "Ledger", bytecode := "",
    abi := [.function depositTo, .function ⟨"", [], [], .payable⟩, .function getTotal,
      .event ⟨"", [{ name := "by", kind := "address" }], true⟩, .function depositOwn,
      .event deposited] }

/-- The selector of a deposit to the sender's own account. -/
private theorem selector_depositOwn : selector "deposit()" = "D0E30DB0" := by
  decide +kernel

/-- Both deposits come first, and the entries without names nowhere but in the
signatures. -/
theorem entries_covered_once_ledger :
    ∃ d, (contractNamespace {} ledger).result = .ok d ∧
      ∃ face parts, (Interface.ofContract ledger .combine).result = .ok face ∧
        d = NamespaceParts.decl parts "Ledger" ∧
        (transportCalls "encode" parts.encodeTable.nodes).map (·.take 2) =
          [[.str (selector "deposit(uint32)"), .array [.str "uint32"]],
            [.str "D0E30DB0", .array []], [.str (selector "total()"), .array []]] ∧
        (parts.subscriptions.map fun m => transportCalls "listen" m.nodes) =
          [[[.str (selector "Deposited(uint256)"), .prop .this "address",
            .ident "callback"]]] ∧
        face.signatures.map Signature.canonical =
          ["deposit(uint32)", "total()", "(address)", "deposit()", "Deposited(uint256)"] := by
  have hresult : ∃ d, (contractNamespace {} ledger).result = .ok d := ⟨_, rfl⟩
  obtain ⟨d, hd⟩ := hresult
  obtain ⟨⟨face, parts, hface, hdecl, hcovers, hsignatures⟩, -⟩ := entries_covered_once hd
  refine ⟨d, hd, face, parts, hface, hdecl, ?_, hcovers.listens, ?_⟩
  · rw [← selector_depositOwn]
    exact hcovers.encodes
  · rw [hsignatures]
    rfl

end AbiBindings.Client
