import AbiBindings.Proofs.Client.MemberCalls
import AbiBindings.Proofs.Client.Namespace

/-!
# The names of a class and the keys of its tables

Every name that a class gets from an interface description was handed out by
one registry, which knows the class's own members, so all members have
different names.  The tables are keyed by the same identifiers as the methods
and in the same order, and the method of an identifier calls the entries of
this identifier and no others (`member_names_and_table_keys`).
-/

namespace AbiBindings.Client

open Script Interface

/-- The names of the members that every class has, in order. -/
def ownNames : List String :=
  [Scope.client, Scope.address, "constructor", Scope.withAddress, Scope.getAddress,
    Scope.deployMember]

theorem names_ownMembers (bytecode : String) (args : ConstructorArgs) :
    (ownMembers bytecode args).map Member.name = ownNames := by
  rfl

/-- The names of a class and of its tables fit together: there is a method
for each method group and a subscription for each event, no two members have
the same name, the keys of both tables are the names of the methods, and each
method calls the entries under its own name. -/
structure NamespaceParts.WellNamed (parts : NamespaceParts) (face : Interface) : Prop where
  own : parts.own.map Member.name = ownNames
  methods : parts.methods.map Member.name = face.methods.map MethodGroup.ident
  subscriptions : parts.subscriptions.map Member.name = face.events.map EventBinding.ident
  distinct : (parts.members.map Member.name).Nodup
  encoders : parts.encoders.map Prod.fst = parts.methods.map Member.name
  decoders : parts.decoders.map Prod.fst = parts.methods.map Member.name
  keys_distinct : (parts.encoders.map Prod.fst).Nodup
  calls : ∀ m ∈ parts.methods,
    (tableCalls Scope.encode m.nodes).map Prod.fst = [m.name] ∧
      (tableCalls Scope.decode m.nodes).map Prod.fst = [m.name] ∧
      mentions Scope.encode m.nodes = 1 ∧ mentions Scope.decode m.nodes = 1

theorem name_functionMethod {g : MethodGroup} {m : Member}
    (h : (functionMethod g).result = .ok m) : m.name = g.ident := by
  obtain ⟨output, -, hm⟩ := functionMethod_eq_ok.mp h
  rw [hm]
  rfl

section StandFor

variable {parts : NamespaceParts} {options : Options} {contract : Contract}
  {face : Interface} {args : ConstructorArgs}

/-- There is a method for each method group, under its identifier. -/
theorem NamespaceParts.StandFor.names_methods
    (h : parts.StandFor options contract face args) :
    parts.methods.map Member.name = face.methods.map MethodGroup.ident :=
  SideBySide.map_eq_map h.methods fun _ _ => name_functionMethod

/-- There is a subscription for each event, under its identifier. -/
theorem NamespaceParts.StandFor.names_subscriptions
    (h : parts.StandFor options contract face args) :
    parts.subscriptions.map Member.name = face.events.map EventBinding.ident := by
  rw [h.subscriptions, List.map_map]
  rfl

/-- The identifiers of an interface differ from each other and from the names
that every class has. -/
theorem idents_nodup {policy : Policy}
    (h : (Interface.ofContract contract policy).result = .ok face) :
    (ownNames ++
      (face.methods.map MethodGroup.ident ++ face.events.map EventBinding.ident)).Nodup := by
  obtain ⟨hmethods, hevents⟩ := idents_ofContract h
  obtain ⟨hnodup, hfresh⟩ := memberNames_nodup policy contract.abi
  rw [hmethods, hevents]
  refine List.nodup_append.mpr ⟨by decide, hnodup, ?_⟩
  intro own hown name hname heq
  have hmember : own ∈ Scope.ownMembers := by
    have hall : ∀ n ∈ ownNames, n ∈ Scope.ownMembers := by decide
    exact hall own hown
  exact hfresh name hname (heq ▸ hmember)

end StandFor

/-- **Members and tables never mix up names.**  In the namespace of a
contract, under either policy and with any options, the members of the class
have pairwise different names, the two tables have the names of the methods
as their keys, and a method calls the two entries under its own name. -/
theorem member_names_and_table_keys {options : Options} {contract : Contract} {d : Decl}
    (h : (contractNamespace options contract).result = .ok d) :
    ∃ face parts, (Interface.ofContract contract options.policy).result = .ok face ∧
      d = NamespaceParts.decl parts contract.name ∧ parts.WellNamed face := by
  obtain ⟨face, args, parts, hface, -, hparts, hd⟩ := contractNamespace_eq_ok.mp h
  have hown : parts.own.map Member.name = ownNames := by rw [hparts.own, names_ownMembers]
  have hmethods := hparts.names_methods
  have hevents := hparts.names_subscriptions
  have hencoders : parts.encoders.map Prod.fst = face.methods.map MethodGroup.ident :=
    SideBySide.map_eq_map hparts.encoders fun _ _ he => he.1.symm
  have hdecoders : parts.decoders.map Prod.fst = face.methods.map MethodGroup.ident :=
    SideBySide.map_eq_map hparts.decoders fun _ _ he => he.1.symm
  have hdistinct := idents_nodup hface
  have hkeys := (List.nodup_append.mp (List.nodup_append.mp hdistinct).2.1).1
  have hmembers : parts.members.map Member.name =
      ownNames ++ (face.methods.map MethodGroup.ident ++
        face.events.map EventBinding.ident) := by
    rw [NamespaceParts.members, List.map_append, List.map_append, hown, hmethods, hevents,
      List.append_assoc]
  refine ⟨face, parts, hface, hd, hown, hmethods, hevents, hmembers ▸ hdistinct,
    hencoders.trans hmethods.symm, hdecoders.trans hmethods.symm, hencoders ▸ hkeys, ?_⟩
  intro m hm
  obtain ⟨g, -, hmethod⟩ := SideBySide.exists_item hparts.methods hm
  obtain ⟨hencode, hdecode, honce⟩ := tableCalls_functionMethod hmethod
  rw [hencode, hdecode, name_functionMethod hmethod]
  exact ⟨rfl, rfl, honce⟩

/-- A contract with a function named like a field and an event named like
two functions. -/
def clashing : Contract :=
  { name := "Clashing", bytecode := "",
    abi := [.function ⟨"client", [], [], .view⟩,
      .function ⟨"send", [{ name := "to", kind := "address" }], [], .nonpayable⟩,
      .function ⟨"send", [{ name := "t-o", kind := "string" }], [], .nonpayable⟩,
      .event ⟨"send", [{ name := "to", kind := "address" }], false⟩] }

/-- None of these names is given to two members. -/
theorem member_names_and_table_keys_clashing :
    ∃ d, (contractNamespace { policy := .mangle } clashing).result = .ok d ∧
      ∃ parts, d = NamespaceParts.decl parts "Clashing" ∧
        parts.encoders.map Prod.fst = ["client2", "sendto", "sendto2"] ∧
        parts.subscriptions.map Member.name = ["sendto3"] ∧
        (parts.members.map Member.name).Nodup := by
  have hresult : ∃ d, (contractNamespace { policy := .mangle } clashing).result = .ok d :=
    ⟨_, rfl⟩
  obtain ⟨d, hd⟩ := hresult
  obtain ⟨face, parts, hface, hdecl, hnamed⟩ := member_names_and_table_keys hd
  obtain ⟨hmethods, hevents⟩ := idents_ofContract hface
  refine ⟨d, hd, parts, hdecl, ?_, ?_, hnamed.distinct⟩
  · rw [hnamed.encoders, hnamed.methods, hmethods]
    rfl
  · rw [hnamed.subscriptions, hevents]
    rfl

end AbiBindings.Client
