import AbiBindings.Proofs.Client.Namespace

/-!
# What a module is made of

A module has the declarations that all contracts share and behind them one
namespace per contract, in order.  The contracts have to have names that a
contract may have, none of them twice (`moduleOf_eq_ok`); nothing else ties
them to each other.
-/

namespace AbiBindings.Client

open Script

/-- Contracts have namespaces beside others when each has one, under a name
that it may have and that neither the others nor one of them have. -/
theorem namespaces_eq_ok {options : Options} {seen : List String} {contracts : List Contract}
    {ds : List Decl} :
    (namespaces options seen contracts).result = .ok ds ↔
      List.Forall₂ (fun c d => (contractNamespace options c).result = .ok d) contracts ds ∧
        (∀ c ∈ contracts, isContractName c.name = true ∧ c.name ∉ seen) ∧
        (contracts.map Contract.name).Nodup := by
  induction contracts generalizing seen ds with
  | nil => cases ds <;> simp [namespaces]
  | cons c rest ih =>
      by_cases hname : isContractName c.name = true
      case neg => simp [namespaces, hname]
      by_cases hseen : c.name ∈ seen
      case pos => simp [namespaces, hname, hseen]
      simp only [namespaces, hname, hseen, List.contains_eq_mem, decide_false, Bool.not_true,
        Bool.false_eq_true, if_false, Outcome.result_bind, Outcome.result_pure, bind_eq_ok, ih,
        List.forall₂_cons_left_iff, List.forall_mem_cons, List.map_cons, List.nodup_cons,
        List.mem_map, not_exists, not_and, true_and, not_false_eq_true]
      constructor
      · intro hall
        obtain ⟨d, hd, others, ⟨hothers, hfresh, hnodup⟩, h⟩ := hall
        cases h
        refine ⟨⟨d, others, hd, hothers, rfl⟩, ?_, ?_, hnodup⟩
        · exact fun b hb => ⟨(hfresh b hb).1, fun hmem =>
            (hfresh b hb).2 (List.mem_cons_of_mem _ hmem)⟩
        · exact fun b hb heq => (hfresh b hb).2 (heq ▸ List.mem_cons_self)
      · intro hall
        obtain ⟨⟨d, others, hd, hothers, rfl⟩, hfresh, hdistinct, hnodup⟩ := hall
        refine ⟨d, hd, others, ⟨hothers, ?_, hnodup⟩, rfl⟩
        intro b hb
        refine ⟨(hfresh b hb).1, ?_⟩
        rw [List.mem_cons, not_or]
        exact ⟨hdistinct b hb, (hfresh b hb).2⟩

/-- **Modules.**  Contracts have a module when each of them has a namespace
and their names may be names of contracts and differ from each other. -/
theorem moduleOf_eq_ok {options : Options} {contracts : List Contract} {m : Module} :
    (moduleOf options contracts).result = .ok m ↔
      ∃ ds, List.Forall₂ (fun c d => (contractNamespace options c).result = .ok d) contracts ds ∧
        (∀ c ∈ contracts, isContractName c.name = true) ∧
        (contracts.map Contract.name).Nodup ∧ m = ⟨sharedDecls ++ ds⟩ := by
  simp only [moduleOf, Outcome.result_bind, Outcome.result_pure, bind_eq_ok, namespaces_eq_ok,
    Except.ok.injEq, List.not_mem_nil, not_false_eq_true, and_true, and_assoc]
  exact exists_congr fun ds => by simp only [eq_comm]

end AbiBindings.Client
