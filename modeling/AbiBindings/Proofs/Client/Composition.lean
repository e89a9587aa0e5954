import AbiBindings.Proofs.Client.Assembly

/-!
# Modules are put together contract by contract

Making a module carries only the names of the contracts from one contract to
the next.  So whether contracts have a module is decided contract by contract
(`Assembles`), each of them has the namespace that it has in a module of its
own, and where there is no module the fault is that of the first contract that
does not fit behind those in front of it (`namespaces_eq_error`).

The printer works likewise: the text of a module is that of its declarations
with a blank line between two of them (`Module.print_eq`), so the text of the
contracts together is made of the texts that they have one by one
(`module_of_each_contract`).
-/

namespace AbiBindings.Script

/-- The text of tokens is that of the first ones and then of the others. -/
theorem Token.render_append (width : Nat) (ts us : List Token) :
    Token.render width (ts ++ us) = Token.render width ts ++ Token.render width us := by
  simp [Token.render, List.flatMap_append]

/-- The text of parts with tokens between them has their text between the
texts of the parts. -/
theorem Token.render_intercalate (width : Nat) (sep : List Token) (parts : List (List Token)) :
    Token.render width (List.intercalate sep parts) =
      (Token.render width sep).intercalate (parts.map (Token.render width)) := by
  match parts with
  | [] => simp [Token.render]
  | [part] => simp
  | part :: next :: rest =>
      rw [List.intercalate_cons_cons, Token.render_append, Token.render_append,
        Token.render_intercalate width sep (next :: rest), List.map_cons (l := next :: rest),
        List.map_cons, String.intercalate_cons_cons]

/-- The text of a declaration that stands in a module. -/
def Decl.print (width : Nat) (d : Decl) : String := Token.render width (d.tokens 0)

/-- **Text of modules.** -/
theorem Module.print_eq (m : Module) (width : Nat) :
    m.print width = "\n\n".intercalate (m.decls.map (Decl.print width)) ++ "\n" := by
  have hparts : ∀ ds : List Decl, declParts 0 ds = ds.map (Decl.tokens 0) := by
    intro ds
    induction ds with
    | nil => rfl
    | cons d rest ih => rw [declParts, ih, List.map_cons]
  have hblank : Token.render width [.newline, .newline] = "\n\n" := by
    apply String.toList_injective
    simp [Token.render, Token.text]
  have hend : Token.render width [.newline] = "\n" := by
    apply String.toList_injective
    simp [Token.render, Token.text]
  rw [Module.print, Module.tokens, Token.render_append, Token.render_intercalate, hblank, hend,
    hparts, List.map_map]
  rfl

end AbiBindings.Script

namespace AbiBindings.Client

open Script

/-- What contracts have to satisfy to have a module: each has a name that no
declaration of the module has, none of them twice, and a namespace. -/
structure Assembles (options : Options) (contracts : List Contract) : Prop where
  identifiers : ∀ c ∈ contracts, isIdentifier c.name = true
  apart : ∀ c ∈ contracts, c.name ∉ ["Provider", "Readable", "Call", "Replace"]
  distinct : (contracts.map Contract.name).Nodup
  namespaces : ∀ c ∈ contracts, ∃ d, (contractNamespace options c).result = .ok d

/-- What a fault reports to be wrong with a contract behind contracts of the
given names. -/
inductive Offends (options : Options) (before : List String) (c : Contract) : Fault → Prop
  | name (hname : isContractName c.name = false) :
      Offends options before c (.invalidIdentifier c.name)
  | repeated (hname : isContractName c.name = true) (hseen : c.name ∈ before) :
      Offends options before c (.duplicateContract c.name)
  | inside {fault : Fault} (hname : isContractName c.name = true) (hfresh : c.name ∉ before)
      (hresult : (contractNamespace options c).result = .error fault) :
      Offends options before c fault

/-- The fault is that of the first contract that does not fit behind those in
front of it. -/
def FirstOffence (options : Options) (contracts : List Contract) (fault : Fault) : Prop :=
  ∃ before c after, contracts = before ++ c :: after ∧ Assembles options before ∧
    Offends options (before.map Contract.name) c fault

theorem isContractName_iff {name : String} :
    isContractName name = true ↔
      isIdentifier name = true ∧ name ∉ ["Provider", "Readable", "Call", "Replace"] := by
  rw [isContractName, Bool.and_eq_true, Bool.not_eq_true', List.contains_eq_mem,
    decide_eq_false_iff_not]
  rfl

/-- Contracts that have namespaces beside contracts of no name assemble. -/
theorem exists_namespaces_iff {options : Options} {contracts : List Contract} :
    (∃ ds, (namespaces options [] contracts).result = .ok ds) ↔
      Assembles options contracts := by
  simp only [namespaces_eq_ok, isContractName_iff]
  constructor
  · intro hall
    obtain ⟨ds, hds, hnames, hdistinct⟩ := hall
    refine ⟨fun c hc => (hnames c hc).1.1, fun c hc => (hnames c hc).1.2, hdistinct, ?_⟩
    intro c hc
    obtain ⟨d, -, hd⟩ := SideBySide.exists_value hds hc
    exact ⟨d, hd⟩
  · intro hall
    obtain ⟨ds, hds⟩ := SideBySide.exists_values hall.namespaces
    exact ⟨ds, hds, fun c hc => ⟨⟨hall.identifiers c hc, hall.apart c hc⟩, List.not_mem_nil⟩,
      hall.distinct⟩

section Faults

variable {options : Options} {seen : List String} {c : Contract} {fault : Fault}

/-- Only the names in front of a contract matter to it. -/
theorem Offends.congr {others : List String} (h : ∀ name, name ∈ seen ↔ name ∈ others)
    (hoffends : Offends options seen c fault) : Offends options others c fault := by
  cases hoffends with
  | name hname => exact .name hname
  | repeated hname hseen => exact .repeated hname ((h _).mp hseen)
  | inside hname hfresh hresult => exact .inside hname (fun hmem => hfresh ((h _).mpr hmem)) hresult

/-- A contract that offends ends the search; behind one that fits, it goes on
with its name. -/
theorem namespaces_cons_eq_error {rest : List Contract} :
    (namespaces options seen (c :: rest)).result = .error fault ↔
      Offends options seen c fault ∨
        (isContractName c.name = true ∧ c.name ∉ seen ∧
          ∃ d, (contractNamespace options c).result = .ok d) ∧
            (namespaces options (c.name :: seen) rest).result = .error fault := by
  by_cases hname : isContractName c.name = true
  case neg =>
    have hinvalid : isContractName c.name = false := by simpa using hname
    simp only [namespaces, hinvalid, Bool.not_false, if_true, Outcome.result_fail,
      Except.error.injEq, Bool.false_eq_true, false_and, or_false]
    constructor
    · rintro rfl
      exact .name hinvalid
    · intro h
      cases h with
      | name => rfl
      | repeated hvalid | inside hvalid => exact absurd hvalid hname
  by_cases hseen : c.name ∈ seen
  case pos =>
    simp only [namespaces, hname, hseen, Bool.not_true, Bool.false_eq_true, if_false,
      List.contains_eq_mem, decide_true, if_true, Outcome.result_fail, Except.error.injEq,
      not_true_eq_false, false_and, and_false, or_false]
    constructor
    · rintro rfl
      exact .repeated hname hseen
    · intro h
      cases h with
      | repeated => rfl
      | name hinvalid => simp [hinvalid] at hname
      | inside _ hfresh => exact absurd hseen hfresh
  simp only [namespaces, hname, hseen, Bool.not_true, Bool.false_eq_true, if_false,
    List.contains_eq_mem, decide_false, Outcome.result_bind, Outcome.result_pure, bind_eq_error,
    reduceCtorEq, and_false, exists_false, or_false, not_false_eq_true, true_and]
  refine or_congr ⟨.inside hname hseen, ?_⟩ exists_and_right
  intro h
  cases h with
  | inside _ _ hresult => exact hresult
  | name hinvalid => simp [hinvalid] at hname
  | repeated _ hmem => exact absurd hmem hseen

/-- **Faults of modules.**  Contracts have no namespaces beside others because
of the first of them that offends. -/
theorem namespaces_eq_error {contracts : List Contract} :
    (namespaces options seen contracts).result = .error fault ↔
      ∃ before c after ds, contracts = before ++ c :: after ∧
        (namespaces options seen before).result = .ok ds ∧
        Offends options (seen ++ before.map Contract.name) c fault := by
  induction contracts generalizing seen with
  | nil => simp [namespaces]
  | cons c rest ih =>
      rw [namespaces_cons_eq_error, ih]
      -- behind the first contract, its name is one of those in front
      have hnames : ∀ (before : List Contract) (name : String),
          name ∈ c.name :: seen ++ before.map Contract.name ↔
            name ∈ seen ++ (c :: before).map Contract.name := by
        intro before name
        simp only [List.cons_append, List.mem_cons, List.mem_append, List.map_cons]
        exact or_left_comm
      have hhead : ∀ {before : List Contract} {ds : List Decl},
          (namespaces options seen (c :: before)).result = .ok ds ↔
            isContractName c.name = true ∧ c.name ∉ seen ∧
              ∃ d others, (contractNamespace options c).result = .ok d ∧
                (namespaces options (c.name :: seen) before).result = .ok others ∧
                d :: others = ds := by
        intro before ds
        by_cases hname : isContractName c.name = true
        case neg => simp [namespaces, hname]
        by_cases hseen : c.name ∈ seen
        case pos => simp [namespaces, hseen, hname]
        simp [namespaces, hname, hseen, bind_eq_ok, map_eq_ok]
      constructor
      · rintro (hoffends | ⟨⟨hname, hfresh, d, hd⟩, before, b, after, ds, rfl, hds, hb⟩)
        · exact ⟨[], c, rest, [], rfl, rfl, by simpa using hoffends⟩
        · exact ⟨c :: before, b, after, d :: ds, rfl,
            hhead.mpr ⟨hname, hfresh, d, ds, hd, hds, rfl⟩, hb.congr (hnames before)⟩
      · rintro ⟨before, b, after, ds, heq, hds, hb⟩
        cases before with
        | nil =>
            obtain ⟨rfl, rfl⟩ := List.cons.inj heq
            exact .inl (by simpa using hb)
        | cons a before =>
            obtain ⟨rfl, rfl⟩ := List.cons.inj heq
            obtain ⟨hname, hfresh, d, others, hd, hothers, -⟩ := hhead.mp hds
            exact .inr ⟨⟨hname, hfresh, d, hd⟩, before, b, after, others, rfl, hothers,
              hb.congr fun name => (hnames before name).symm⟩

end Faults

section Modules

variable {options : Options} {contracts : List Contract}

/-- The text of the declarations that all modules start with. -/
def sharedText : String := "\n\n".intercalate (sharedDecls.map (Decl.print defaultIndent))

/-- The text of a module: the shared declarations and behind them the given
texts, a blank line in front of each. -/
def moduleText (texts : List String) : String := "\n\n".intercalate (sharedText :: texts) ++ "\n"

theorem print_sharedDecls_append (ds : List Decl) :
    Module.print ⟨sharedDecls ++ ds⟩ defaultIndent =
      moduleText (ds.map (Decl.print defaultIndent)) := by
  have hshared : sharedDecls.map (Decl.print defaultIndent) ≠ [] := List.cons_ne_nil _ _
  rw [Module.print_eq, List.map_append, moduleText, sharedText]
  generalize sharedDecls.map (Decl.print defaultIndent) = shared at hshared
  cases ds with
  | nil => simp
  | cons d rest =>
      rw [String.intercalate_append_of_ne_nil hshared (by simp), List.map_cons,
        String.intercalate_cons_cons]

/-- A contract alone has a module that consists of its namespace. -/
theorem moduleOf_singleton {c : Contract} {d : Decl} (hname : isContractName c.name = true)
    (hd : (contractNamespace options c).result = .ok d) :
    (moduleOf options [c]).result = .ok ⟨sharedDecls ++ [d]⟩ :=
  moduleOf_eq_ok.mpr ⟨[d], .cons hd .nil, by simpa using hname, by simp, rfl⟩

theorem result_generate (options : Options) (contracts : List Contract) :
    (generate options contracts).result =
      (·.print defaultIndent) <$> (moduleOf options contracts).result :=
  Outcome.result_map _ _

theorem moduleOf_eq_error {fault : Fault} :
    (moduleOf options contracts).result = .error fault ↔
      FirstOffence options contracts fault := by
  simp only [moduleOf, Outcome.result_bind, Outcome.result_pure, bind_eq_error, reduceCtorEq,
    and_false, exists_false, or_false, namespaces_eq_error, List.nil_append, FirstOffence,
    ← exists_namespaces_iff]
  refine exists_congr fun before => exists_congr fun c => exists_congr fun after => ?_
  constructor
  · rintro ⟨ds, heq, hds, hoffends⟩
    exact ⟨heq, ⟨ds, hds⟩, hoffends⟩
  · rintro ⟨heq, ⟨ds, hds⟩, hoffends⟩
    exact ⟨ds, heq, hds, hoffends⟩

/-- A contract alone has no module because of what is wrong with itself. -/
theorem moduleOf_singleton_eq_error {c : Contract} {fault : Fault} :
    (moduleOf options [c]).result = .error fault ↔ Offends options [] c fault := by
  rw [moduleOf_eq_error]
  constructor
  · rintro ⟨before, b, after, heq, -, hoffends⟩
    obtain ⟨rfl, hrest⟩ | ⟨_, -, hrest⟩ := List.cons_eq_append_iff.mp heq
    · cases hrest
      exact hoffends
    · simp at hrest
  · intro hoffends
    exact ⟨[], c, [], rfl, ⟨by simp, by simp, by simp, by simp⟩, hoffends⟩

/-- **Modules contract by contract.**  Four declarations are shared by all
modules: an import, the interface of transports and two helpers.  Contracts
have a module when each has a name of its own and a namespace.  The module holds
the shared declarations and the namespace that each contract has in a module
alone, in order, and so does the text.  Where there is no module, the fault is
that of the first contract that does not fit. -/
theorem module_of_each_contract (options : Options) (contracts : List Contract) :
    (∃ methods callParams callTy callBody replaceParams replaceTy replaceBody,
      sharedDecls = [.imports ["Readable"] "stream",
        .interface true "Provider" ["Tx"] methods,
        .function true "Call" ["Tx", "Output"] callParams callTy callBody,
        .function true "Replace" [] replaceParams replaceTy replaceBody]) ∧
    ((∃ m, (moduleOf options contracts).result = .ok m) ↔ Assembles options contracts) ∧
    (Assembles options contracts → ∃ ds,
      List.Forall₂ (fun c d => (contractNamespace options c).result = .ok d ∧
          (moduleOf options [c]).result = .ok ⟨sharedDecls ++ [d]⟩ ∧
          (generate options [c]).result = .ok (moduleText [d.print defaultIndent]))
        contracts ds ∧
      (moduleOf options contracts).result = .ok ⟨sharedDecls ++ ds⟩ ∧
      (generate options contracts).result =
        .ok (moduleText (ds.map (Decl.print defaultIndent)))) ∧
    ∀ fault,
      ((moduleOf options contracts).result = .error fault ↔
        FirstOffence options contracts fault) ∧
      ((generate options contracts).result = .error fault ↔
        FirstOffence options contracts fault) := by
  have hprinted : ∀ {contracts : List Contract} {ds : List Decl},
      (moduleOf options contracts).result = .ok ⟨sharedDecls ++ ds⟩ →
        (generate options contracts).result =
          .ok (moduleText (ds.map (Decl.print defaultIndent))) := by
    intro contracts ds h
    rw [result_generate, h, ← print_sharedDecls_append]
    rfl
  refine ⟨⟨_, _, _, _, _, _, _, rfl⟩, ⟨?_, ?_⟩, ?_, fun fault => ⟨moduleOf_eq_error, ?_⟩⟩
  · rintro ⟨m, hm⟩
    obtain ⟨ds, hds, hnames, hdistinct, -⟩ := moduleOf_eq_ok.mp hm
    exact exists_namespaces_iff.mp ⟨ds, namespaces_eq_ok.mpr
      ⟨hds, fun c hc => ⟨hnames c hc, List.not_mem_nil⟩, hdistinct⟩⟩
  · intro hall
    obtain ⟨ds, hds⟩ := exists_namespaces_iff.mpr hall
    exact ⟨⟨sharedDecls ++ ds⟩, by simp [moduleOf, hds]⟩
  · intro hall
    obtain ⟨ds, hok⟩ := exists_namespaces_iff.mpr hall
    obtain ⟨hds, hnames, hdistinct⟩ := namespaces_eq_ok.mp hok
    have hmodule : (moduleOf options contracts).result = .ok ⟨sharedDecls ++ ds⟩ :=
      moduleOf_eq_ok.mpr ⟨ds, hds, fun c hc => (hnames c hc).1, hdistinct, rfl⟩
    refine ⟨ds, ?_, hmodule, hprinted hmodule⟩
    rw [List.forall₂_iff_zip] at hds ⊢
    refine ⟨hds.1, fun {c d} hcd => ?_⟩
    have hd := hds.2 hcd
    have halone := moduleOf_singleton (hnames c (List.of_mem_zip hcd).1).1 hd
    have htext := hprinted halone
    rw [List.map_singleton] at htext
    exact ⟨hd, halone, htext⟩
  · rw [result_generate, map_eq_error, moduleOf_eq_error]

end Modules

/-- A contract that pays. -/
def wallet : Contract :=
  { name := "Wallet", bytecode := "6080",
    abi := [.constructor ⟨[{ name := "owner", kind := "address" }], .nonpayable⟩,
      .function ⟨"pay", [{ name := "to", kind := "address" }], [], .payable⟩] }

/-- A contract that tells of bids. -/
def auction : Contract :=
  { name := "Auction", bytecode := "60",
    abi := [.event ⟨"Bid", [{ name := "amount", kind := "uint256" }], false⟩] }

/-- Two contracts have one module made of the two texts; the second of two
wallets offends, whatever comes behind it. -/
theorem module_of_each_contract_wallet :
    Assembles {} [wallet, auction] ∧
      (∃ pays bids, (generate {} [wallet]).result = .ok (moduleText [pays]) ∧
        (generate {} [auction]).result = .ok (moduleText [bids]) ∧
        (generate {} [wallet, auction]).result = .ok (moduleText [pays, bids])) ∧
      FirstOffence {} [wallet, wallet, { auction with name := "Call" }]
        (.duplicateContract "Wallet") := by
  obtain ⟨-, hiff, hmodule, -⟩ := module_of_each_contract {} [wallet, auction]
  have hall : Assembles {} [wallet, auction] := hiff.mp ⟨_, rfl⟩
  obtain ⟨ds, hds, -, htext⟩ := hmodule hall
  obtain ⟨pays, rest, ⟨-, -, hpays⟩, hrest, rfl⟩ := List.forall₂_cons_left_iff.mp hds
  obtain ⟨bids, others, ⟨-, -, hbids⟩, hothers, rfl⟩ := List.forall₂_cons_left_iff.mp hrest
  obtain rfl := List.forall₂_nil_left_iff.mp hothers
  exact ⟨hall, ⟨_, _, hpays, hbids, htext⟩,
    ((module_of_each_contract {} [wallet, wallet, { auction with name := "Call" }]).2.2.2
      (.duplicateContract "Wallet")).1.mp rfl⟩

end AbiBindings.Client
