import AbiBindings.Client.Encode
import AbiBindings.Proofs.Script.Nodes
import AbiBindings.Proofs.Sequencing

/-!
# What generated code calls

Two kinds of calls matter: those of a method of the transport
(`transportCalls`) and those of an entry of the two tables (`tableCalls`).
The tests that pick a function call neither, so an encoder calls the
transport once for each of its functions, in declared order
(`transportCalls_encoder`), and nothing between or behind.
-/

namespace AbiBindings.Client

open Script Interface

/-- Whether the expression is the transport: the parameter of that name, or
the field of an instance. -/
def isTransport : Expr → Bool
  | .ident name => name == Scope.client
  | .prop .this name => name == Scope.client
  | _ => false

/-- The arguments, where that method of the transport is called. -/
def transportCall? (method : String) : Expr → Option (List Expr)
  | .call (.prop receiver name) _ args =>
      if isTransport receiver && name == method then some args else none
  | _ => none

/-- The key and the arguments, where an entry of that table is called. -/
def tableCall? (table : String) : Expr → Option (String × List Expr)
  | .call (.prop (.call (.ident name) _ _) key) _ args =>
      if name == table then some (key, args) else none
  | _ => none

/-- The calls of that method of the transport. -/
def transportCalls (method : String) (nodes : List Expr) : List (List Expr) :=
  nodes.filterMap (transportCall? method)

/-- The calls of entries of that table. -/
def tableCalls (table : String) (nodes : List Expr) : List (String × List Expr) :=
  nodes.filterMap (tableCall? table)

/-- How often the name is mentioned. -/
def mentions (name : String) (nodes : List Expr) : Nat :=
  nodes.countP fun
    | .ident n => n == name
    | _ => false

section Collecting

variable {method : String}

theorem transportCalls_append (xs ys : List Expr) :
    transportCalls method (xs ++ ys) = transportCalls method xs ++ transportCalls method ys :=
  List.filterMap_append ..

theorem transportCalls_flatMap {α : Type} (f : α → List Expr) (xs : List α) :
    transportCalls method (xs.flatMap f) = xs.flatMap fun x => transportCalls method (f x) := by
  induction xs with
  | nil => rfl
  | cons x rest ih => simp [transportCalls_append, ih]

theorem tableCalls_append {table : String} (xs ys : List Expr) :
    tableCalls table (xs ++ ys) = tableCalls table xs ++ tableCalls table ys :=
  List.filterMap_append ..

/-- An expression without others inside calls no entry of a table. -/
theorem tableCalls_of_isLeaf {table : String} {es : List Expr}
    (h : ∀ e ∈ es, e.isLeaf = true) : tableCalls table es = [] := by
  apply List.filterMap_eq_nil_iff.mpr
  intro e he
  have hleaf := h e he
  cases e <;> simp_all [Expr.isLeaf, tableCall?]

/-- An expression without others inside calls nothing of the transport. -/
theorem transportCalls_of_isLeaf {es : List Expr} (h : ∀ e ∈ es, e.isLeaf = true) :
    transportCalls method es = [] := by
  apply List.filterMap_eq_nil_iff.mpr
  intro e he
  have hleaf := h e he
  cases e <;> simp_all [Expr.isLeaf, transportCall?]

/-- An operator calls what its operands call. -/
theorem transportCalls_binary (left : Expr) (op : BinaryOp) (right : Expr) :
    transportCalls method (Expr.binary left op right).nodes =
      transportCalls method left.nodes ++ transportCalls method right.nodes := by
  rw [Expr.nodes, ← transportCalls_append]
  rfl

/-- Expressions that call nothing call nothing when they are joined. -/
theorem transportCalls_joined {op : BinaryOp} {es : List Expr} {e : Expr}
    (h : ∀ e ∈ es, transportCalls method e.nodes = [])
    (hjoined : Expr.joined? op es = some e) : transportCalls method e.nodes = [] := by
  have hbinary : ∀ left right : Expr, transportCalls method (Expr.binary left op right).nodes =
      transportCalls method left.nodes ++ transportCalls method right.nodes :=
    fun left right => transportCalls_binary left op right
  rw [Expr.eq_flatMap_of_joined (f := fun e => transportCalls method e.nodes) hbinary hjoined,
    List.flatMap_eq_nil_iff]
  exact h

end Collecting

end AbiBindings.Client

namespace AbiBindings

open Script Client

variable {method : String}

theorem Guard.transportCalls_check (name : String) (g : Guard) :
    transportCalls method (g.check (.ident name)).nodes = [] := by
  cases g <;> rfl

namespace Descriptor

mutual

/-- The check of an argument does not call the transport. -/
theorem transportCalls_check (name : String) (d : Descriptor) :
    transportCalls method (d.check (.ident name)).nodes = [] := by
  cases d with
  | union members =>
      cases hjoined : Expr.anyOf? (checks (.ident name) members) with
      | none => simpa [check, hjoined] using Guard.transportCalls_check name .any
      | some e =>
          simpa [check, hjoined] using
            transportCalls_joined (transportCalls_checks name members) hjoined
  | integer | boolean | bytes | string | array _ | tuple _ | generic _ =>
      simpa [check] using Guard.transportCalls_check name _

theorem transportCalls_checks (name : String) (ds : List Descriptor) :
    ∀ e ∈ checks (.ident name) ds, transportCalls method e.nodes = [] := by
  cases ds with
  | nil => simp [checks]
  | cons d rest =>
      rw [checks, List.forall_mem_cons]
      exact ⟨transportCalls_check name d, transportCalls_checks name rest⟩

end

end Descriptor

end AbiBindings

namespace AbiBindings.Client

open Script Interface

/-- A call of the transport that encodes plain arguments is the only call in
it. -/
theorem transportCalls_encode {client : Expr}
    (hclient : client = .ident Scope.client ∨ client = .own Scope.client)
    (method selector : String) (types : List String) {args : List Expr}
    (hargs : ∀ e ∈ args, e.isLeaf = true) :
    transportCalls method (Transport.encode client selector types args).nodes =
      if "encode" == method then [.str selector :: .strings types :: args] else [] := by
  have htypes : Expr.nodesOfAll (types.map .str) = types.map .str :=
    Expr.nodesOfAll_of_isLeaf (by simp [Expr.isLeaf])
  have hnone : transportCalls method (types.map .str ++ args) = [] := by
    apply transportCalls_of_isLeaf
    simpa [or_imp, forall_and, Expr.isLeaf] using hargs
  have hinside : (Transport.encode client selector types args).nodes =
      Transport.encode client selector types args :: .prop client "encode" ::
        (client.nodes ++ .str selector :: .strings types :: (types.map .str ++ args)) := by
    simp [Transport.encode, Expr.method, Expr.apply, Expr.nodes, Expr.nodesOfAll, Expr.strings,
      htypes, Expr.nodesOfAll_of_isLeaf hargs]
  have hbehind : transportCalls method (.prop client "encode" ::
      (client.nodes ++ .str selector :: .strings types :: (types.map .str ++ args))) = [] := by
    rcases hclient with rfl | rfl <;> exact hnone
  have hcall : transportCall? method (Transport.encode client selector types args) =
      if "encode" == method then some (.str selector :: .strings types :: args) else none := by
    rcases hclient with rfl | rfl <;> rfl
  rw [hinside, transportCalls, List.filterMap_cons, hcall, ← transportCalls, hbehind]
  split <;> simp_all

section Encoders

variable {g : MethodGroup}

/-- The parameters of a group have no default values. -/
theorem nodesOfAll_parameters (g : MethodGroup) : Param.nodesOfAll g.parameters = [] := by
  apply Param.nodesOfAll_eq_nil
  intro p hp
  obtain ⟨q, -, rfl⟩ := List.mem_map.mp hp
  rfl

theorem isLeaf_argument (params : List GroupParam) (input : Abi.Param) :
    (argument params input).isLeaf = true := by
  unfold argument
  split <;> rfl

/-- What the transport is given to encode the inputs of a function. -/
def encodeArgs (g : MethodGroup) (f : Abi.Function) : List Expr :=
  .str f.signature.selector :: .strings (Abi.canonicalTypes f.inputs) ::
    f.inputs.map (argument g.params)

/-- The inputs of a function are encoded behind the selector of its canonical
signature and their canonical types. -/
theorem encodeArgs_eq (g : MethodGroup) (f : Abi.Function) :
    encodeArgs g f =
      .str (selector (Abi.canonicalSignature f.name f.inputs)) ::
        .array (f.inputs.map fun input => .str input.canonicalType) ::
          f.inputs.map (argument g.params) := by
  have htypes : (Abi.canonicalTypes f.inputs).map Expr.str =
      f.inputs.map fun input => .str input.canonicalType := by
    rw [Abi.canonicalTypes, List.map_map]
    rfl
  rw [← htypes]
  rfl

theorem transportCalls_encodeCall (f : Abi.Function) :
    transportCalls "encode" (encodeCall g f).nodes = [encodeArgs g f] := by
  refine transportCalls_encode (.inl rfl) "encode" _ _ ?_
  intro e he
  obtain ⟨input, -, rfl⟩ := List.mem_map.mp he
  exact isLeaf_argument g.params input

/-- The checks of a function do not call the transport. -/
theorem transportCalls_paramChecks {method : String} {f : Abi.Function}
    {ps : List GroupParam} {checks : List Expr}
    (h : (paramChecks g f ps).result = .ok checks) :
    ∀ e ∈ checks, transportCalls method e.nodes = [] := by
  induction ps generalizing checks with
  | nil =>
      obtain rfl : [] = checks := by simpa [paramChecks] using h
      simp
  | cons p rest ih =>
      simp only [paramChecks, Outcome.result_bind, Outcome.result_pure, bind_eq_ok] at h
      obtain ⟨d, -, others, hothers, h⟩ := h
      cases h
      rw [List.forall_mem_cons]
      refine ⟨?_, ih hothers⟩
      cases d with
      | none => rfl
      | some d => exact Descriptor.transportCalls_check p.ident d

/-- The branch of a function calls the transport once, for that function. -/
theorem transportCalls_dispatch {f : Abi.Function} {test : Option Expr}
    (h : (dispatchCondition g f).result = .ok test) :
    transportCalls "encode" (dispatch g f test).nodes = [encodeArgs g f] := by
  simp only [dispatchCondition, Outcome.result_map, map_eq_ok] at h
  obtain ⟨checks, hchecks, rfl⟩ := h
  cases htest : Expr.allOf? checks with
  | none => exact transportCalls_encodeCall f
  | some test =>
      have hnone : transportCalls "encode" test.nodes = [] :=
        transportCalls_joined (transportCalls_paramChecks hchecks) htest
      simp [dispatch, Stmt.nodes, Stmt.nodesOfAll, Stmt.returns, Expr.nodesOfOption,
        transportCalls_append, hnone, transportCalls_encodeCall]

/-- The branches call the transport once each. -/
theorem transportCalls_dispatchAll {fs : List Abi.Function} {branches : List Stmt}
    (h : (dispatchAll g fs).result = .ok branches) :
    transportCalls "encode" (Stmt.nodesOfAll branches) = fs.map (encodeArgs g) := by
  induction fs generalizing branches with
  | nil =>
      obtain rfl : [] = branches := by simpa [dispatchAll] using h
      rfl
  | cons f rest ih =>
      simp only [dispatchAll, Outcome.result_bind, Outcome.result_pure, bind_eq_ok] at h
      obtain ⟨test, htest, others, hothers, h⟩ := h
      cases h
      rw [Stmt.nodesOfAll, transportCalls_append, transportCalls_dispatch htest, ih hothers]
      rfl

/-- **Encoders.**  An encoder takes the parameters of its group and calls the
transport once for each function, in declared order. -/
theorem transportCalls_encoder {e : Expr} (h : (encoder g).result = .ok e) :
    ∃ body, e = .arrow [] g.parameters none body ∧
      transportCalls "encode" e.nodes = g.overloads.map (encodeArgs g) := by
  have hbody : ∀ body, transportCalls "encode" (Expr.arrow [] g.parameters none body).nodes =
      transportCalls "encode" (Stmt.nodesOfAll body) := by
    intro body
    rw [Expr.nodes, nodesOfAll_parameters]
    rfl
  by_cases hover : g.isOverloaded
  · simp only [encoder, hover, if_true, Outcome.result_bind, Outcome.result_pure,
      bind_eq_ok] at h
    obtain ⟨branches, hbranches, h⟩ := h
    cases h
    refine ⟨_, rfl, ?_⟩
    rw [hbody, Stmt.nodesOfAll_eq, List.flatMap_append, ← Stmt.nodesOfAll_eq,
      transportCalls_append, transportCalls_dispatchAll hbranches]
    exact List.append_nil _
  · simp only [encoder, hover, Bool.false_eq_true, if_false, Outcome.result_pure] at h
    cases h
    refine ⟨_, rfl, ?_⟩
    have halone : g.others = [] := by
      simpa [MethodGroup.isOverloaded, NameGroup.isShared] using hover
    rw [hbody]
    simp [Stmt.nodesOfAll, Stmt.nodes, Stmt.returns, Expr.nodesOfOption,
      transportCalls_encodeCall, MethodGroup.overloads, NameGroup.items, halone]

end Encoders

end AbiBindings.Client
