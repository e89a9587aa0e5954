import AbiBindings.Client.Class
import AbiBindings.Proofs.Client.Calls
import AbiBindings.Proofs.Freshness

/-!
# What the members of a class call

The method of a group calls one entry of each table, both under the name of
the method itself, and passes all of its parameters to the encoder
(`functionMethod_eq_ok`, `tableCalls_functionMethod`); it never reaches the
transport itself (`transportCalls_functionMethod`).  A subscription does, and
listens once (`transportCalls_eventMethod`).
-/

namespace AbiBindings.Client

open Script Interface

section Methods

variable {g : MethodGroup} {m : Member}

/-- What a method resolves to: the answer of the call, decoded. -/
def answer (g : MethodGroup) (output : Ty) : Expr :=
  .call (.ident Scope.call) [Transport.transaction, output]
    [.own Scope.client, .own Scope.address, .ident "data", decoded g]

/-- A group has a method when its outputs have a type. -/
theorem functionMethod_eq_ok :
    (functionMethod g).result = .ok m ↔
      ∃ output, (outputType g.name g.outputs).result = .ok output ∧
        m = .method .open g.ident g.parameters (some (.promise output))
          [.const "data" (encoded g), .returns (answer g output)] := by
  simp only [functionMethod, Outcome.result_bind, Outcome.result_pure, bind_eq_ok]
  constructor
  · intro hall
    obtain ⟨output, houtput, h⟩ := hall
    cases h
    exact ⟨output, houtput, rfl⟩
  · intro hall
    obtain ⟨output, houtput, rfl⟩ := hall
    exact ⟨output, houtput, rfl⟩

/-- What a method passes to its encoder: all of its parameters, in order. -/
def passed (g : MethodGroup) : List Expr := g.params.map fun p => .ident p.ident

theorem isLeaf_passed : ∀ e ∈ passed g, e.isLeaf = true := by
  simp [passed, Expr.isLeaf]

/-- No parameter of a method hides one of the tables. -/
theorem mentions_passed {name : String} (hname : name ∈ Scope.module) :
    mentions name (passed g) = 0 := by
  apply List.countP_eq_zero.mpr
  intro e he
  obtain ⟨p, -, rfl⟩ := List.mem_map.mp he
  simp only [beq_iff_eq]
  intro heq
  subst heq
  exact Scope.parameterIdent_not_mem_module _ _ hname

theorem nodes_encoded :
    (encoded g).nodes =
      [encoded g, .prop (.apply (.ident Scope.encode) [.own Scope.client]) g.ident,
        .apply (.ident Scope.encode) [.own Scope.client], .ident Scope.encode,
        .own Scope.client, .this] ++ passed g := by
  have hpassed : Expr.nodesOfAll (g.params.map fun p => .ident p.ident) = passed g :=
    Expr.nodesOfAll_of_isLeaf isLeaf_passed
  simp [encoded, Expr.method, Expr.apply, Expr.own, Expr.nodes, Expr.nodesOfAll, hpassed]

theorem nodes_functionMethod (h : (functionMethod g).result = .ok m) :
    ∃ output, m.nodes = (encoded g).nodes ++ (answer g output).nodes := by
  obtain ⟨output, -, rfl⟩ := functionMethod_eq_ok.mp h
  exact ⟨output, by simp [Member.nodes, nodesOfAll_parameters, Stmt.nodesOfAll, Stmt.nodes,
    Stmt.returns, Expr.nodesOfOption]⟩

/-- **Methods.**  A method calls one entry of each table, that of its group,
and mentions each table once. -/
theorem tableCalls_functionMethod (h : (functionMethod g).result = .ok m) :
    tableCalls Scope.encode m.nodes = [(g.ident, passed g)] ∧
      tableCalls Scope.decode m.nodes = [(g.ident, [])] ∧
      mentions Scope.encode m.nodes = 1 ∧ mentions Scope.decode m.nodes = 1 := by
  obtain ⟨output, hnodes⟩ := nodes_functionMethod h
  have hnone : ∀ table, tableCalls table (passed g) = [] := fun _ =>
    tableCalls_of_isLeaf isLeaf_passed
  rw [hnodes, nodes_encoded]
  refine ⟨?_, ?_, ?_, ?_⟩
  · rw [tableCalls_append, tableCalls_append, hnone]
    rfl
  · rw [tableCalls_append, tableCalls_append, hnone]
    rfl
  · rw [mentions, List.countP_append, List.countP_append, ← mentions, ← mentions, ← mentions,
      mentions_passed (by decide)]
    rfl
  · rw [mentions, List.countP_append, List.countP_append, ← mentions, ← mentions, ← mentions,
      mentions_passed (by decide)]
    rfl

/-- A method reaches the transport through the tables only. -/
theorem transportCalls_functionMethod {method : String}
    (h : (functionMethod g).result = .ok m) : transportCalls method m.nodes = [] := by
  obtain ⟨output, hnodes⟩ := nodes_functionMethod h
  rw [hnodes, nodes_encoded, transportCalls_append, transportCalls_append,
    transportCalls_of_isLeaf isLeaf_passed]
  rfl

end Methods

/-- **Subscriptions.**  The member of an event listens once, for the selector
of the event. -/
theorem transportCalls_eventMethod (e : EventBinding) :
    transportCalls "listen" (eventMethod e).nodes =
      [[.str e.event.signature.selector, .own Scope.address, .ident "callback"]] := by
  rfl

end AbiBindings.Client
