import AbiBindings.Proofs.Client.Composition
import AbiBindings.Proofs.Client.Closing
import AbiBindings.Proofs.Script.Texts

/-!
# Names at the top of a module

The transport interface, the helpers and the stream type that a module starts
with, and the namespaces of its contracts behind them, have names that differ
from each other (`topNames_moduleOf`).  The check of contract names sees to
nothing more.  Beside what it declares itself a module refers to five names of
the language around it (`ambientNames`), in its bodies and in its signatures,
and a contract may have each of them: its namespace then `Shadows` the name.

Four of the five are referred to by every module of some contract, for the
transport interface, the helper for calls and each deployment use them
(`refersTo_of_mem_shared`, `refersTo_buffer`); the fifth only where arguments
are told from arrays.  So it depends on the names of the contracts alone, and
on that one use, what a module shadows (`top_level_names`).
-/

namespace AbiBindings.Script

/-- The names that a declaration binds around it, as values or as types. -/
def Decl.binds : Decl → List String
  | .imports names _ => names
  | d => [d.name]

/-- The names that are bound at the top of a module. -/
def Module.topNames (m : Module) : List String := m.decls.flatMap Decl.binds

/-- Some type or expression of the module is this name. -/
def Module.RefersTo (m : Module) (name : String) : Prop :=
  (Place.reference, name) ∈ m.texts

instance (m : Module) (name : String) : Decidable (m.RefersTo name) :=
  inferInstanceAs (Decidable (_ ∈ m.texts))

/-- The module binds a name at its top and refers to it. -/
def Module.Shadows (m : Module) (name : String) : Prop :=
  name ∈ m.topNames ∧ m.RefersTo name

end AbiBindings.Script

namespace AbiBindings.Client

open Script Interface

/-- The names that the generated code means as those of the language. -/
def ambientNames : List String := ["Buffer", "Array", "Error", "Promise", "Uint8Array"]

section Modules

variable {options : Options} {contracts : List Contract} {m : Module}

/-- The names of a module are those that all modules have and the names of its
contracts. -/
theorem topNames_moduleOf (h : (moduleOf options contracts).result = .ok m) :
    m.topNames = ["Readable", "Provider", "Call", "Replace"] ++ contracts.map Contract.name := by
  obtain ⟨ds, hds, -, -, rfl⟩ := moduleOf_eq_ok.mp h
  have hbinds : ds.map Decl.binds = contracts.map fun c => [c.name] := by
    apply SideBySide.map_eq_map hds
    intro c d hd
    obtain ⟨_, _, parts, -, -, -, rfl⟩ := contractNamespace_eq_ok.mp hd
    rfl
  have hshared : sharedDecls.flatMap Decl.binds = ["Readable", "Provider", "Call", "Replace"] :=
    rfl
  rw [Module.topNames, List.flatMap_append, hshared, List.flatMap_def (l := ds), hbinds,
    ← List.flatMap_def, List.map_eq_flatMap]

/-- A module refers to what one of its declarations refers to. -/
theorem refersTo_of_mem_decls {d : Decl} (hd : d ∈ m.decls) {name : String}
    (hname : (Place.reference, name) ∈ d.texts) : m.RefersTo name := by
  rw [Module.RefersTo, Module.texts, Decl.textsOfAll_eq]
  exact List.mem_flatMap.mpr ⟨d, hd, hname⟩

/-- Every module refers to the types of the transport interface and makes a
promise. -/
theorem refersTo_of_mem_shared (h : (moduleOf options contracts).result = .ok m) {name : String}
    (hname : name ∈ ["Error", "Promise", "Uint8Array"]) : m.RefersTo name := by
  obtain ⟨ds, -, -, -, rfl⟩ := moduleOf_eq_ok.mp h
  have hshared : ∀ name ∈ ["Error", "Promise", "Uint8Array"],
      (Place.reference, name) ∈ sharedDecls.flatMap Decl.texts := by decide
  obtain ⟨d, hd, htext⟩ := List.mem_flatMap.mp (hshared name hname)
  exact refersTo_of_mem_decls (List.mem_append_left _ hd) htext

/-- A module of some contract refers to the buffer that its deployment makes of
an address. -/
theorem refersTo_buffer (h : (moduleOf options contracts).result = .ok m) {c : Contract}
    (hc : c ∈ contracts) : m.RefersTo "Buffer" := by
  obtain ⟨d, hd, hok⟩ := exists_namespace h hc
  obtain ⟨face, args, parts, -, -, hparts, rfl⟩ := contractNamespace_eq_ok.mp hok
  refine refersTo_of_mem_decls hd ?_
  have hbody : (Place.reference, "Buffer") ∈ Stmt.textsOfAll parts.deployBody := by
    rw [hparts.deployBody]
    simp only [deployBody, Stmt.textsOfAll, List.mem_append]
    exact .inr (.inr (.inr (.inl (by decide))))
  simp [NamespaceParts.decl, Decl.texts, Decl.textsOfAll_eq, hbody]

/-- A contract may have any name that a contract may have, and has its
namespace under it. -/
theorem exists_contractNamespace_rename {contract : Contract} {d : Decl}
    (h : (contractNamespace options contract).result = .ok d) (name : String) :
    ∃ d, (contractNamespace options { contract with name }).result = .ok d := by
  obtain ⟨face, args, parts, hface, hargs, hparts, -⟩ := contractNamespace_eq_ok.mp h
  obtain ⟨constructor, groups, hconstructor, hgroups, rfl⟩ := ofContract_eq_ok.mp hface
  -- the name of the contract only stands in the interface and in faults
  have hrenamed := (@ofContract_eq_ok { contract with name } options.policy _).mpr
    ⟨constructor, groups, constructorOf_eq_ok.mpr (constructorOf_eq_ok.mp hconstructor),
      hgroups, rfl⟩
  exact ⟨_, contractNamespace_eq_ok.mpr ⟨_, args, parts, hrenamed, hargs,
    ⟨hparts.links, hparts.deployParams, hparts.deployBody, hparts.own, hparts.methods,
      hparts.subscriptions, hparts.encoders, hparts.decoders⟩, rfl⟩⟩

/-- No two names at the top of a module are the same. -/
theorem nodup_topNames (h : (moduleOf options contracts).result = .ok m) :
    m.topNames.Nodup := by
  obtain ⟨ds, -, hnames, hdistinct, -⟩ := moduleOf_eq_ok.mp h
  have hfresh : ∀ c ∈ contracts, c.name ∉ ["Readable", "Provider", "Call", "Replace"] := by
    intro c hc hmem
    refine (isContractName_iff.mp (hnames c hc)).2 ?_
    exact (by decide : ["Readable", "Provider", "Call", "Replace"] ⊆
      ["Provider", "Readable", "Call", "Replace"]) hmem
  rw [topNames_moduleOf h]
  refine List.Nodup.append (by decide) hdistinct ?_
  intro name hshared hname
  obtain ⟨c, hc, rfl⟩ := List.mem_map.mp hname
  exact hfresh c hc hshared

/-- A module shadows the names of the language that its contracts have. -/
theorem shadows_iff (h : (moduleOf options contracts).result = .ok m) {name : String}
    (hname : name ∈ ambientNames) :
    m.Shadows name ↔
      name ∈ contracts.map Contract.name ∧ (name = "Array" → m.RefersTo name) := by
  have hapart : ∀ x ∈ ambientNames, x ∉ ["Readable", "Provider", "Call", "Replace"] := by decide
  rw [Module.Shadows, topNames_moduleOf h, List.mem_append, or_iff_right (hapart name hname)]
  apply and_congr_right
  intro hbound
  obtain ⟨c, hc, -⟩ := List.mem_map.mp hbound
  simp only [ambientNames, List.mem_cons, List.not_mem_nil, or_false] at hname
  rcases hname with rfl | rfl | hshared
  · exact iff_of_true (refersTo_buffer h hc) fun _ => refersTo_buffer h hc
  · exact ⟨fun hrefers _ => hrefers, fun harray => harray rfl⟩
  · have hrefers : m.RefersTo name := refersTo_of_mem_shared h (by simpa using hshared)
    exact iff_of_true hrefers fun _ => hrefers

/-- **Names at the top.**  The names that a module binds at its top are those
of its contracts and four others, all different.  A name of the language is
shadowed exactly when a contract has it, arrays being referred to now and then
only; and each contract of a module has a module under each of these names. -/
theorem top_level_names (h : (moduleOf options contracts).result = .ok m) :
    m.topNames = ["Readable", "Provider", "Call", "Replace"] ++ contracts.map Contract.name ∧
    m.topNames.Nodup ∧
    (∀ name ∈ ambientNames, m.Shadows name ↔
      name ∈ contracts.map Contract.name ∧ (name = "Array" → m.RefersTo name)) ∧
    ∀ c ∈ contracts, ∀ name ∈ ambientNames, ∃ m',
      (moduleOf options [{ c with name }]).result = .ok m' ∧
        (name ≠ "Array" → m'.Shadows name) := by
  refine ⟨topNames_moduleOf h, nodup_topNames h, fun name => shadows_iff h, ?_⟩
  intro c hc name hname
  obtain ⟨d, -, hd⟩ := exists_namespace h hc
  obtain ⟨d', hd'⟩ := exists_contractNamespace_rename hd name
  have hallowed : ∀ x ∈ ambientNames, isContractName x = true := by decide
  have hmodule := moduleOf_singleton (c := { c with name }) (hallowed name hname) hd'
  have hshadows := shadows_iff hmodule hname
  refine ⟨⟨sharedDecls ++ [d']⟩, hmodule, ?_⟩
  intro harray
  exact hshadows.mpr ⟨List.mem_singleton_self name, fun heq => absurd heq harray⟩

end Modules

/-- A contract that has the name of a global. -/
def bufferContract : Contract := { name := "Buffer", bytecode := "60", abi := [] }

/-- A contract that tells arrays from numbers. -/
def sums : Contract :=
  { name := "Array", bytecode := "60",
    abi := [.function ⟨"add", [{ name := "item", kind := "uint256" }], [], .nonpayable⟩,
      .function ⟨"add", [{ name := "item", kind := "uint256[]" }], [], .nonpayable⟩] }

/-- Two contracts whose namespaces shadow two of the names, and whose module
does not bind the others. -/
theorem top_level_names_shadowed :
    ∃ m, (moduleOf {} [bufferContract, sums]).result = .ok m ∧ m.topNames.Nodup ∧
      ∀ name ∈ ambientNames, m.Shadows name ↔ name ∈ ["Buffer", "Array"] := by
  obtain ⟨m, hm⟩ : ∃ m, (moduleOf {} [bufferContract, sums]).result = .ok m := ⟨_, rfl⟩
  obtain ⟨-, hdistinct, hshadows, -⟩ := top_level_names hm
  have harrays : m.RefersTo "Array" := by
    cases hm
    decide
  refine ⟨m, hm, hdistinct, ?_⟩
  intro name hname
  rw [hshadows name hname]
  exact and_iff_left (fun harray => harray ▸ harrays)

/-- Contracts may have the names of globals: the module of a contract `Buffer`
binds this name at its top and refers to it where it makes a buffer. -/
theorem contract_named_buffer :
    ¬ ∀ (options : Options) (contracts : List Contract) (m : Module),
      (moduleOf options contracts).result = .ok m →
      ∀ c ∈ contracts, c.name ∈ ambientNames → ¬ m.RefersTo c.name := by
  intro hall
  obtain ⟨m, hm⟩ : ∃ m, (moduleOf {} [bufferContract]).result = .ok m := ⟨_, rfl⟩
  have hfree := hall {} [bufferContract] m hm bufferContract List.mem_cons_self (by decide)
  exact hfree (refersTo_buffer hm List.mem_cons_self)

end AbiBindings.Client
