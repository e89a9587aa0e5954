import AbiBindings.Client.Module
import AbiBindings.Proofs.Interface.Members

/-!
# What a contract namespace is made of

The namespace of a contract holds the table of placeholders if there is one,
the deploying function, the class and the two tables.  The class has its own
members first, then one method per method group and one subscription per
event, and both tables have one entry per method group under the identifier
of the group.  `contractNamespace_eq_ok` says so for every contract that has
a namespace; the files on its members, on its coverage of the interface and
on the arguments start from there.
-/

namespace AbiBindings.Client

open Script Interface

/-- What the namespace of a contract is put together from. -/
structure NamespaceParts where
  links : List Decl
  deployParams : List Param
  deployBody : List Stmt
  own : List Member
  methods : List Member
  subscriptions : List Member
  encoders : List (String × Expr)
  decoders : List (String × Expr)

namespace NamespaceParts

/-- The members of the class. -/
def members (parts : NamespaceParts) : List Member :=
  parts.own ++ parts.methods ++ parts.subscriptions

/-- The table of encoders over a transport. -/
def encodeTable (parts : NamespaceParts) : Expr :=
  .arrow [Scope.transaction] [.typed Scope.client Transport.ty] none
    [.returns (.object parts.encoders)]

/-- The table of decoders over a transport and a raw result. -/
def decodeTable (parts : NamespaceParts) : Expr :=
  .arrow [Scope.transaction] [.typed Scope.client Transport.ty, .typed "data" Transport.bytes]
    none [.returns (.object parts.decoders)]

/-- The namespace of that name that the parts make. -/
def decl (parts : NamespaceParts) (name : String) : Decl :=
  .namespace true name (parts.links ++
    [.function true Scope.deploy [Scope.transaction] parts.deployParams
        (some (.promise classTy)) parts.deployBody,
      .class true Scope.contract [Scope.transaction] parts.members,
      .const true Scope.encode parts.encodeTable,
      .const true Scope.decode parts.decodeTable])

/-- The parts stand for a contract of that interface, whose constructor takes
those arguments. -/
structure StandFor (parts : NamespaceParts) (options : Options) (contract : Contract)
    (face : Interface) (args : ConstructorArgs) : Prop where
  links : parts.links =
    if options.emitLinks then (linksConst? contract.bytecode contract.links).toList else []
  deployParams : parts.deployParams =
    .typed Scope.client Transport.ty :: .typed Scope.linker linkerTy :: args.params
  deployBody : parts.deployBody =
    Client.deployBody contract.bytecode args (.ident Scope.client) (.instance Scope.contract)
  own : parts.own = ownMembers contract.bytecode args
  methods : List.Forall₂ (fun g m => (functionMethod g).result = .ok m)
    face.methods parts.methods
  subscriptions : parts.subscriptions = face.events.map eventMethod
  encoders : List.Forall₂ (fun g e => g.ident = e.1 ∧ (encoder g).result = .ok e.2)
    face.methods parts.encoders
  decoders : List.Forall₂ (fun g e => g.ident = e.1 ∧ (decoder g).result = .ok e.2)
    face.methods parts.decoders

end NamespaceParts

/-- The methods of the groups, one by one. -/
theorem functionMethods_eq_mapM (groups : List MethodGroup) :
    functionMethods groups = groups.mapM functionMethod := by
  induction groups with
  | nil => rfl
  | cons g rest ih => simp [functionMethods, ih, List.mapM_cons]

/-- A table has one entry per group, under the identifier of the group. -/
private theorem result_mapM_entries {f : MethodGroup → Outcome Expr}
    {groups : List MethodGroup} {entries : List (String × Expr)} :
    (groups.mapM fun g => (g.ident, ·) <$> f g).result = .ok entries ↔
      List.Forall₂ (fun g e => g.ident = e.1 ∧ (f g).result = .ok e.2) groups entries := by
  rw [Outcome.result_mapM_eq_ok]
  have hentry : ∀ g (entry : String × Expr),
      ((g.ident, ·) <$> f g).result = .ok entry ↔
        g.ident = entry.1 ∧ (f g).result = .ok entry.2 := by
    intro g entry
    obtain ⟨key, e⟩ := entry
    rw [Outcome.result_map, map_eq_ok]
    constructor
    · intro hall
      obtain ⟨_, he, heq⟩ := hall
      cases heq
      exact ⟨rfl, he⟩
    · intro hall
      obtain ⟨rfl, he⟩ := hall
      exact ⟨e, he, rfl⟩
  simp only [hentry]

/-- Whatever builds a table entry by entry builds it of the entries of the
groups. -/
theorem result_table_eq_ok {table : List MethodGroup → Outcome (List (String × Expr))}
    {f : MethodGroup → Outcome Expr} (hnil : table [] = pure [])
    (hcons : ∀ g rest, table (g :: rest) = do
      let e ← f g
      let others ← table rest
      pure ((g.ident, e) :: others))
    {groups : List MethodGroup} {entries : List (String × Expr)} :
    (table groups).result = .ok entries ↔
      List.Forall₂ (fun g e => g.ident = e.1 ∧ (f g).result = .ok e.2) groups entries := by
  have hmapM : table groups = groups.mapM fun g => (g.ident, ·) <$> f g := by
    induction groups with
    | nil => rw [hnil, List.mapM_nil]
    | cons g rest ih => simp [hcons, ih, List.mapM_cons]
  rw [hmapM, result_mapM_entries]

theorem result_encoders_eq_ok {groups : List MethodGroup} {entries : List (String × Expr)} :
    (encoders groups).result = .ok entries ↔
      List.Forall₂ (fun g e => g.ident = e.1 ∧ (encoder g).result = .ok e.2) groups entries :=
  result_table_eq_ok rfl fun _ _ => rfl

theorem result_decoders_eq_ok {groups : List MethodGroup} {entries : List (String × Expr)} :
    (decoders groups).result = .ok entries ↔
      List.Forall₂ (fun g e => g.ident = e.1 ∧ (decoder g).result = .ok e.2) groups entries :=
  result_table_eq_ok rfl fun _ _ => rfl

/-- **Namespaces.**  A contract has a namespace when it has an interface, its
constructor has arguments, and every method group has a method, an encoder
and a decoder; the namespace is made of just these. -/
theorem contractNamespace_eq_ok {options : Options} {contract : Contract} {d : Decl} :
    (contractNamespace options contract).result = .ok d ↔
      ∃ face args parts,
        (Interface.ofContract contract options.policy).result = .ok face ∧
        (ConstructorArgs.of face.constructor).result = .ok args ∧
        NamespaceParts.StandFor parts options contract face args ∧
        d = parts.decl contract.name := by
  simp only [contractNamespace, contractClass, Client.encodeTable, Client.decodeTable,
    Outcome.result_bind, Outcome.result_pure, bind_eq_ok, functionMethods_eq_mapM,
    Outcome.result_mapM_eq_ok, result_encoders_eq_ok, result_decoders_eq_ok]
  constructor
  · intro hall
    obtain ⟨face, hface, args, hargs, _, ⟨methods, hmethods, hclass⟩,
      _, ⟨encoders, hencoders, hencode⟩, _, ⟨decoders, hdecoders, hdecode⟩, h⟩ := hall
    cases hclass
    cases hencode
    cases hdecode
    cases h
    exact ⟨face, args, ⟨_, _, _, _, methods, _, encoders, decoders⟩, hface, hargs,
      ⟨rfl, rfl, rfl, rfl, hmethods, rfl, hencoders, hdecoders⟩, rfl⟩
  · intro hall
    obtain ⟨face, args, parts, hface, hargs, hparts, rfl⟩ := hall
    refine ⟨face, hface, args, hargs, _, ⟨_, hparts.methods, rfl⟩, _,
      ⟨_, hparts.encoders, rfl⟩, _, ⟨_, hparts.decoders, rfl⟩, ?_⟩
    rw [NamespaceParts.decl, NamespaceParts.members, hparts.links, hparts.deployParams,
      hparts.deployBody, hparts.own, hparts.subscriptions]
    rfl

end AbiBindings.Client
