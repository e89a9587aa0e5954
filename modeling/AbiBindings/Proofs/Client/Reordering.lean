import AbiBindings.Proofs.Client.Dispatch
import AbiBindings.Proofs.Interface.Reordering

/-!
# Encoders do not depend on the order of the entries

Dispatch takes the first test that is true, and the tests stand in declared
order.  But whether a function is let through says nothing about the other
functions (`Accepts`), and no two functions are let through at once, so what an
encoder does can be told without an order: it encodes the call of the function
that it picks, and fails when it picks none (`run_encoder`).

Reordered groups pick the same functions from the same values
(`Reordered.picks_iff`), and a call looks its arguments up by name
(`Reordered.encodeCall_eq`).  What is left is to give both encoders the same
values: `callEnv` hands each parameter the value of its declared name, whatever
its position is.  With that, contracts that list the same entries are combined
alike (`combine_ignores_order`).
-/

namespace AbiBindings.Client

open Script Interface

/-- The call of an encoder that gives each parameter the value of its declared
name. -/
def callEnv (g : MethodGroup) (value : String → Value) : Env :=
  Env.ofArguments (boundNames g) (g.params.map fun p => value p.name)

/-- The values that the parameters are bound to pass for what the function
makes of the parameters. -/
def Accepts (g : MethodGroup) (f : Abi.Function) (env : Env) : Prop :=
  ∀ p ∈ g.params, ∀ d, (g.overloadType f p).result = .ok d →
    passes d ((env p.ident).getD .undefined) = true

/-- The encoder picks the function: one that stands alone is never tested, and
of several it is the one that accepts the values. -/
def Picks (g : MethodGroup) (f : Abi.Function) (env : Env) : Prop :=
  2 ≤ g.overloads.length → Accepts g f env

section Calls

variable {g : MethodGroup}

/-- The argument for an input is determined by the names of the parameters. -/
theorem argument_eq (params : List GroupParam) (input : Abi.Param) :
    argument params input =
      if input.isNamed = true ∧ input.name ∈ params.map GroupParam.name then
        .ident (Scope.parameterIdent input.name Scope.memberLocals)
      else .undefined := by
  unfold argument
  cases hfind : params.find? fun p => input.isNamed && p.name == input.name with
  | some p =>
      have hmem : p ∈ params := List.mem_of_find?_eq_some hfind
      obtain ⟨hnamed, hname⟩ : input.isNamed = true ∧ p.name = input.name := by
        simpa using List.find?_some hfind
      rw [if_pos ⟨hnamed, hname ▸ List.mem_map_of_mem hmem⟩, ← hname]
      rfl
  | none =>
      rw [if_neg]
      intro hall
      obtain ⟨hnamed, hmem⟩ := hall
      obtain ⟨p, hp, hname⟩ := List.mem_map.mp hmem
      simpa [hnamed, hname] using List.find?_eq_none.mp hfind p hp

/-- A call binds each parameter to the value of its name. -/
theorem callEnv_ident (hnodup : (boundNames g).Nodup) (value : String → Value)
    {p : GroupParam} (hp : p ∈ g.params) : callEnv g value p.ident = some (value p.name) := by
  obtain ⟨i, hi⟩ := List.mem_iff_getElem?.mp hp
  have hname : (boundNames g)[i]? = some p.ident := by simp [boundNames_eq, hi]
  rw [callEnv, Env.ofArguments_getElem? hnodup hname]
  simp [hi]

end Calls

section Runs

variable {g : MethodGroup} {params : InputShape} {shapes : List InputShape}

/-- A function accepts values exactly when its test is true. -/
theorem holds_iff_accepts (h : Combines g params shapes) (hover : 2 ≤ g.overloads.length)
    {env : Env} (henv : env.Binds (boundNames g)) {f : Abi.Function} {s : InputShape}
    (hs : s ∈ shapes) (hshape : (inputShape g.name f.inputs).result = .ok s) :
    env.Holds (shapeTest g s) ↔ Accepts g f env := by
  rw [Env.Holds, h.eval_shapeTest hover henv hs]
  simp [Accepts, result_overloadType hshape]

/-- **Runs.**  An encoder takes the parameters of its group.  It encodes the
call of a function that it picks, and it fails when it picks none. -/
theorem run_encoder (h : Combines g params shapes) :
    ∃ body, (encoder g).result = .ok (.arrow [] g.parameters none body) ∧
      ∀ env : Env, env.Binds (boundNames g) →
        (∀ f ∈ g.overloads, Picks g f env →
          Stmt.runAll? env body = some (.returned (some (encodeCall g f)))) ∧
        ((∀ f ∈ g.overloads, ¬ Picks g f env) →
          Stmt.runAll? env body = some (.thrown (mismatch g))) := by
  by_cases hover : 2 ≤ g.overloads.length
  case neg =>
    have hshared : g.isOverloaded = false := by
      rw [← Bool.not_eq_true]
      exact mt NameGroup.isShared_iff.mp hover
    have halone : g.overloads = [g.first] := NameGroup.items_of_not_shared hshared
    refine ⟨[.returns (encodeCall g g.first)], ?_, ?_⟩
    · simp [encoder, hshared]
    · intro env _
      refine ⟨?_, ?_⟩
      · intro f hf _
        obtain rfl : f = g.first := by simpa [halone] using hf
        simp [Stmt.runAll?, Stmt.run?, Stmt.returns]
      · intro hnone
        exact absurd (fun hmany => absurd hmany hover) (hnone g.first List.mem_cons_self)
  case pos =>
    refine ⟨guardedBody g (shapes.map (shapeTest g)),
      result_encoder (h.params_ne_nil hover) hover h.shaped, ?_⟩
    intro env henv
    obtain ⟨hvalues, hexclude⟩ := h.tests_exclude hover henv
    refine ⟨?_, ?_⟩
    · intro f hf hpicks
      -- the test of the function stands at its place
      have hitems : (g.overloads.zip shapes).map Prod.fst = g.overloads :=
        List.map_fst_zip (Nat.le_of_eq h.shaped.length_eq)
      rw [← hitems] at hf
      obtain ⟨⟨f, s⟩, hfs, rfl⟩ := List.mem_map.mp hf
      have hshape := (List.forall₂_iff_zip.mp h.shaped).2 hfs
      have hholds : env.Holds (shapeTest g s) :=
        (holds_iff_accepts h hover henv (List.of_mem_zip hfs).2 hshape).mpr (hpicks hover)
      have hmem : (f, shapeTest g s) ∈ g.overloads.zip (shapes.map (shapeTest g)) := by
        rw [List.zip_map_right]
        exact List.mem_map_of_mem hfs
      exact run_of_holds hvalues hexclude hmem hholds _
    · intro hnone
      have hfalse : ∀ t ∈ shapes.map (shapeTest g), ¬ env.Holds t := by
        intro t ht hholds
        obtain ⟨s, hs, rfl⟩ := List.mem_map.mp ht
        obtain ⟨f, hf, hshape⟩ := SideBySide.exists_item h.shaped hs
        exact hnone f hf fun _ => (holds_iff_accepts h hover henv hs hshape).mp hholds
      rw [guardedBody, run_of_none hvalues hfalse]
      simp [Stmt.runAll?, Stmt.run?]

end Runs

end AbiBindings.Client

namespace AbiBindings.Interface.Reordered

open Script Client

variable {g g' : MethodGroup}

/-- What is made of a parameter is what is made of it in the other group. -/
theorem overloadType_eq (h : Reordered g g') {p q : GroupParam} (hpq : SameParam p q)
    (f : Abi.Function) : g.overloadType f p = g'.overloadType f q := by
  simp only [MethodGroup.overloadType, h.name_eq, hpq.name_eq]

/-- A function accepts the same values in both groups. -/
theorem accepts_iff (h : Reordered g g') (f : Abi.Function) (env : Env) :
    Accepts g f env ↔ Accepts g' f env := by
  constructor
  · intro hall q hq d hd
    obtain ⟨p, hp, hpq⟩ := h.params.exists_left hq
    rw [← hpq.ident_eq]
    exact hall p hp d (h.overloadType_eq hpq f ▸ hd)
  · intro hall p hp d hd
    obtain ⟨q, hq, hpq⟩ := h.params.exists_right hp
    rw [hpq.ident_eq]
    exact hall q hq d (h.overloadType_eq hpq f ▸ hd)

theorem picks_iff (h : Reordered g g') (f : Abi.Function) (env : Env) :
    Picks g f env ↔ Picks g' f env := by
  rw [Picks, Picks, h.overloads.length_eq, h.accepts_iff]

/-- Both groups encode the same call for a function. -/
theorem encodeCall_eq (h : Reordered g g') (f : Abi.Function) :
    encodeCall g f = encodeCall g' f := by
  have hnames : (g.params.map GroupParam.name).Perm (g'.params.map GroupParam.name) :=
    h.params.map_perm fun p q hpq => hpq.name_eq.symm
  have hargs : argument g.params = argument g'.params := by
    funext input
    simp only [argument_eq, hnames.mem_iff]
  rw [encodeCall, encodeCall, hargs]

theorem boundNames_perm (h : Reordered g g') : (boundNames g).Perm (boundNames g') := by
  rw [boundNames_eq, boundNames_eq]
  exact h.params.map_perm fun p q hpq => hpq.ident_eq.symm

/-- Calls with the same values bind the same names to them. -/
theorem callEnv_eq (h : Reordered g g') (hnodup : (boundNames g).Nodup)
    (value : String → Value) : callEnv g value = callEnv g' value := by
  have hnodup' : (boundNames g').Nodup := h.boundNames_perm.nodup_iff.mp hnodup
  funext name
  by_cases hbound : name ∈ boundNames g
  · rw [boundNames_eq] at hbound
    obtain ⟨p, hp, rfl⟩ := List.mem_map.mp hbound
    obtain ⟨q, hq, hpq⟩ := h.params.exists_right hp
    rw [callEnv_ident hnodup value hp, hpq.ident_eq, callEnv_ident hnodup' value hq, hpq.name_eq]
  · have hunbound : ∀ {k : MethodGroup}, name ∉ boundNames k → callEnv k value name = none := by
      intro k hk
      rw [← Option.not_isSome_iff_eq_none, callEnv, Env.binds_ofArguments]
      exact hk
    rw [hunbound hbound, hunbound (mt h.boundNames_perm.mem_iff.mpr hbound)]

end AbiBindings.Interface.Reordered

namespace AbiBindings.Client

open Script Interface

/-- Both encoders end in the same way where their parameters have the same
values: with the same call of a function that both groups have, or with the
error. -/
def EncodeAlike (g g' : MethodGroup) (body body' : List Stmt) : Prop :=
  ∀ value : String → Value, callEnv g value = callEnv g' value ∧
    ((∃ f, f ∈ g.overloads ∧ f ∈ g'.overloads ∧ encodeCall g f = encodeCall g' f ∧
        Stmt.runAll? (callEnv g value) body = some (.returned (some (encodeCall g f))) ∧
        Stmt.runAll? (callEnv g' value) body' = some (.returned (some (encodeCall g' f)))) ∨
      (Stmt.runAll? (callEnv g value) body = some (.thrown (mismatch g)) ∧
        Stmt.runAll? (callEnv g' value) body' = some (.thrown (mismatch g'))))

/-- **Encoders.**  Reordered groups have encoders that end in the same way. -/
theorem encodeAlike_of_reordered {g g' : MethodGroup} (h : Reordered g g')
    {params params' : InputShape} {shapes shapes' : List InputShape}
    (hg : Combines g params shapes) (hg' : Combines g' params' shapes') :
    ∃ body body', (encoder g).result = .ok (.arrow [] g.parameters none body) ∧
      (encoder g').result = .ok (.arrow [] g'.parameters none body') ∧
      ((boundNames g).Nodup → EncodeAlike g g' body body') := by
  obtain ⟨body, hencoder, hrun⟩ := run_encoder hg
  obtain ⟨body', hencoder', hrun'⟩ := run_encoder hg'
  refine ⟨body, body', hencoder, hencoder', ?_⟩
  intro hnodup value
  have henv := h.callEnv_eq hnodup value
  obtain ⟨hpicked, hnone⟩ := hrun (callEnv g value) (Env.binds_ofArguments _ _)
  obtain ⟨hpicked', hnone'⟩ := hrun' (callEnv g' value) (Env.binds_ofArguments _ _)
  have hpicks : ∀ f, Picks g f (callEnv g value) ↔ Picks g' f (callEnv g' value) := by
    intro f
    rw [← henv]
    exact h.picks_iff f _
  refine ⟨henv, ?_⟩
  by_cases hsome : ∃ f ∈ g.overloads, Picks g f (callEnv g value)
  · obtain ⟨f, hf, hfits⟩ := hsome
    have hf' : f ∈ g'.overloads := h.overloads.mem_iff.mp hf
    exact .inl ⟨f, hf, hf', h.encodeCall_eq f, hpicked f hf hfits,
      hpicked' f hf' ((hpicks f).mp hfits)⟩
  · refine .inr ⟨hnone ?_, hnone' ?_⟩
    · intro f hf hfits
      exact hsome ⟨f, hf, hfits⟩
    · intro f hf hfits
      exact hsome ⟨f, h.overloads.mem_iff.mpr hf, (hpicks f).mpr hfits⟩

/-- **Combining does not depend on the order of the entries.**  Of two
contracts with the same entries both have an interface or neither has one.
Their methods have the same base names, and two methods of one base name have
the same parameters up to their order and that of the members of unions.  When
the identifiers of the parameters are distinct, both encoders pick the same
function with the same arguments for all values of the parameters, or both
fail. -/
theorem combine_ignores_order {a b : Contract} (h : a.abi.Perm b.abi) :
    ((∃ face, (Interface.ofContract a .combine).result = .ok face) ↔
      ∃ face, (Interface.ofContract b .combine).result = .ok face) ∧
    ∀ face other, (Interface.ofContract a .combine).result = .ok face →
      (Interface.ofContract b .combine).result = .ok other →
      (face.methods.map (·.name)).Nodup ∧
      (face.methods.map (·.name)).Perm (other.methods.map (·.name)) ∧
      ∀ g ∈ face.methods, ∀ g' ∈ other.methods, g.name = g'.name →
        SameParams g.params g'.params ∧
        ∃ body body', (encoder g).result = .ok (.arrow [] g.parameters none body) ∧
          (encoder g').result = .ok (.arrow [] g'.parameters none body') ∧
          ((boundNames g).Nodup → EncodeAlike g g' body body') := by
  refine ⟨⟨exists_ofContract_of_perm h, exists_ofContract_of_perm h.symm⟩, ?_⟩
  intro face other hface hother
  refine ⟨?_, names_methods_perm h hface hother, ?_⟩
  · rw [names_methods hface]
    exact nodup_eraseDups _
  · intro g hg g' hg' hname
    have hreordered := reordered_of_perm h hface hother hg hg' hname
    obtain ⟨params, shapes, hcombines⟩ := combines_of_mem_methods hface hg
    obtain ⟨params', shapes', hcombines'⟩ := combines_of_mem_methods hother hg'
    exact ⟨hreordered.params, encodeAlike_of_reordered hreordered hcombines hcombines'⟩

/-- The setters in the other order. -/
def settersSwapped : Contract := { setters with abi := [.function setText, .function setNumber] }

/-- Their one method. -/
def setMethodSwapped : MethodGroup :=
  { name := "set", first := setText, others := [setNumber], ident := "set",
    params := [⟨"value", .union [.string, .integer], false⟩, ⟨"force", .boolean, true⟩] }

/-- Whichever function comes first, both encoders end in the same way. -/
theorem combine_ignores_order_setters :
    setters.abi.Perm settersSwapped.abi ∧
      SameParams setMethod.params setMethodSwapped.params ∧
      ∃ body body', (encoder setMethod).result =
          .ok (.arrow [] setMethod.parameters none body) ∧
        (encoder setMethodSwapped).result =
          .ok (.arrow [] setMethodSwapped.parameters none body') ∧
        EncodeAlike setMethod setMethodSwapped body body' := by
  have hperm : setters.abi.Perm settersSwapped.abi := List.Perm.swap _ _ _
  obtain ⟨-, hall⟩ := combine_ignores_order hperm
  obtain ⟨-, -, hmethods⟩ := hall settersFace
    ⟨"Setters", none, [setMethodSwapped], [], [setText.signature, setNumber.signature]⟩ rfl rfl
  obtain ⟨hparams, body, body', hencoder, hencoder', halike⟩ := hmethods setMethod
    (by simp [settersFace]) setMethodSwapped (by simp) rfl
  exact ⟨hperm, hparams, body, body', hencoder, hencoder', halike (by decide)⟩

end AbiBindings.Client
