import AbiBindings.Proofs.Client.Forwarding

/-!
# Overload dispatch

A member that combines several functions picks one by its arguments.  The
tests that do so are computed from the descriptors of the inputs, while the
functions were accepted by comparing lists of guards; both are read off the
same shapes here.  A test is true exactly when the value of every parameter
passes for the shape (`eval_test`), values that pass for two shapes force the
two conditions to agree (`condition_eq_of_passes`), and accepted functions
have no two equal conditions.  So at most one test is true, whatever the
arguments are, and the encoder does what that test guards: it encodes the
inputs of the function that the test is for
(`combine_dispatch_unambiguous`).
-/

namespace AbiBindings.Client

open Script Interface

/-- The names that an encoder binds, in order. -/
def boundNames (g : MethodGroup) : List String := g.parameters.map Script.Param.name

theorem boundNames_eq (g : MethodGroup) : boundNames g = g.params.map GroupParam.ident :=
  g.names_parameters

/-- No parameter of an encoder captures a global that its tests use. -/
theorem keepsGlobals_of_binds {g : MethodGroup} {env : Env} (h : env.Binds (boundNames g)) :
    env.KeepsGlobals := by
  have hunbound : ∀ name ∈ Scope.module, env name = none := by
    intro name hmodule
    rw [← Option.not_isSome_iff_eq_none, h name, boundNames_eq]
    intro hmem
    obtain ⟨p, -, rfl⟩ := List.mem_map.mp hmem
    exact Scope.parameterIdent_not_mem_module _ _ hmodule
  exact ⟨hunbound _ (by decide), hunbound _ (by decide), hunbound _ (by decide)⟩

/-- Whether a value passes for what a function has under a name: the guard of
the descriptor, or nothing given where the function has nothing. -/
def passes : Option Descriptor → Value → Bool
  | some d, v => d.guard.accepts v
  | none, v => v.strictEq .undefined

/-- The tests of a function with that shape. -/
def shapeChecks (g : MethodGroup) (shape : InputShape) : List Expr :=
  g.params.map fun p => paramCheck p (shape.lookup p.name)

section Shapes

variable {g : MethodGroup} {shape : InputShape}

/-- The test of one parameter is whether its value passes. -/
theorem eval_paramCheck {env : Env} (henv : env.KeepsGlobals) {p : GroupParam} {v : Value}
    (hv : env p.ident = some v) {d : Option Descriptor}
    (hplain : ∀ e, d = some e → e.guard ≠ .any) :
    (paramCheck p d).eval? env = some (.boolean (passes d v)) := by
  cases d with
  | none => exact Expr.eval_equals_undefined henv hv
  | some e =>
      rw [paramCheck, Descriptor.check_eq_guard_check (hplain e rfl)]
      exact Guard.eval_check henv hv e.guard

/-- **Tests decide shapes.**  The test of a function is true exactly when the
value of every parameter passes for its shape. -/
theorem eval_test {env : Env} (henv : env.Binds (boundNames g)) (hparams : g.params ≠ [])
    (hplain : ∀ name d, shape.lookup name = some d → d.guard ≠ .any) :
    ∃ test, Expr.allOf? (shapeChecks g shape) = some test ∧
      test.eval? env = some (.boolean (g.params.all fun p =>
        passes (shape.lookup p.name) ((env p.ident).getD .undefined))) := by
  have hchecks : ∀ ps : List GroupParam, (∀ p ∈ ps, p ∈ g.params) →
      List.Forall₂ (fun e b => e.eval? env = some (.boolean b))
        (ps.map fun p => paramCheck p (shape.lookup p.name))
        (ps.map fun p => passes (shape.lookup p.name) ((env p.ident).getD .undefined)) := by
    intro ps hps
    rw [List.forall₂_map_left_iff, List.forall₂_map_right_iff, List.forall₂_same]
    intro p hp
    have hbound : (env p.ident).isSome := by
      rw [henv p.ident, boundNames_eq]
      exact List.mem_map_of_mem (hps p hp)
    obtain ⟨v, hv⟩ := Option.isSome_iff_exists.mp hbound
    rw [hv]
    exact eval_paramCheck (keepsGlobals_of_binds henv) hv (hplain p.name)
  obtain ⟨p, rest, hcons⟩ := List.exists_cons_of_ne_nil hparams
  have hall := hchecks g.params fun _ => id
  rw [hcons, List.map_cons, List.map_cons] at hall
  cases hall with
  | cons hp hrest =>
      obtain ⟨test, htest, heval⟩ := eval_allOf hp hrest
      refine ⟨test, by simpa [shapeChecks, hcons] using htest, ?_⟩
      rw [heval, hcons, List.all_cons, List.all_cons, List.all_map]
      rfl

/-- **Values that pass for two shapes make their conditions agree.**  Where
both functions take a parameter one guard accepts its value for both, and a
value that was left out passes for none that takes it. -/
theorem condition_eq_of_passes {other : InputShape} {params : InputShape}
    (hplain : ∀ name d, shape.lookup name = some d → d.guard ≠ .any)
    (hother : ∀ name d, other.lookup name = some d → d.guard ≠ .any)
    {value : String → Value}
    (hshape : ∀ p ∈ params, passes (shape.lookup p.1) (value p.1) = true)
    (hotherPasses : ∀ p ∈ params, passes (other.lookup p.1) (value p.1) = true) :
    condition params shape = condition params other := by
  apply List.map_congr_left
  intro p hp
  have h₁ := hshape p hp
  have h₂ := hotherPasses p hp
  cases hd₁ : shape.lookup p.1 with
  | none =>
      cases hd₂ : other.lookup p.1 with
      | none => rfl
      | some d =>
          rw [hd₁, passes, Value.strictEq_undefined] at h₁
          rw [hd₂, passes, h₁, Guard.accepts_undefined] at h₂
          simp at h₂
  | some d =>
      cases hd₂ : other.lookup p.1 with
      | none =>
          rw [hd₂, passes, Value.strictEq_undefined] at h₂
          rw [hd₁, passes, h₂, Guard.accepts_undefined] at h₁
          simp at h₁
      | some e =>
          rw [hd₁] at h₁
          rw [hd₂] at h₂
          have hguard : d.guard = e.guard :=
            Guard.eq_of_accepts (hplain _ _ hd₁) (hother _ _ hd₂) h₁ h₂
          simp [Descriptor.guards_eq_singleton (hplain _ _ hd₁),
            Descriptor.guards_eq_singleton (hother _ _ hd₂), hguard]

end Shapes

section Encoders

variable {g : MethodGroup}

/-- The tests of a function are read off its shape. -/
theorem result_paramChecks {f : Abi.Function} {shape : InputShape}
    (h : (inputShape g.name f.inputs).result = .ok shape) (ps : List GroupParam) :
    (paramChecks g f ps).result =
      .ok (ps.map fun p => paramCheck p (shape.lookup p.name)) := by
  induction ps with
  | nil => rfl
  | cons p rest ih =>
      simp only [paramChecks, Outcome.result_bind, Outcome.result_pure,
        result_overloadType h, ih, List.map_cons]
      rfl

/-- The branches of an encoder are read off the shapes. -/
theorem result_dispatchAll {fs : List Abi.Function} {shapes : List InputShape}
    (h : List.Forall₂ (fun f s => (inputShape g.name f.inputs).result = .ok s) fs shapes) :
    (dispatchAll g fs).result =
      .ok (List.zipWith (fun f s => dispatch g f (Expr.allOf? (shapeChecks g s))) fs shapes) := by
  induction h with
  | nil => rfl
  | cons hshape _ ih =>
      simp only [dispatchAll, dispatchCondition, Outcome.result_bind, Outcome.result_map,
        Outcome.result_pure, result_paramChecks hshape, ih, List.zipWith_cons_cons]
      rfl

/-- The branch of a function behind a test. -/
def guarded (g : MethodGroup) (f : Abi.Function) (test : Expr) : Stmt :=
  .cond test [.returns (encodeCall g f)] []

/-- The error for arguments that no test lets through. -/
def mismatch (g : MethodGroup) : Expr :=
  .new (.ident "Error") []
    [.str ("no overload of " ++ g.name ++ " matches the supplied arguments")]

/-- One guarded branch per function, in declared order, and the error behind
them. -/
def guardedBody (g : MethodGroup) (tests : List Expr) : List Stmt :=
  List.zipWith (guarded g) g.overloads tests ++ [.throw (mismatch g)]

/-- A branch is taken when its test is true. -/
theorem run_guarded_of_holds {env : Env} {f : Abi.Function} {test : Expr}
    (h : env.Holds test) (rest : List Stmt) :
    Stmt.runAll? env (guarded g f test :: rest) = some (.returned (some (encodeCall g f))) := by
  have htest : test.eval? env = some (.boolean true) := h
  simp [guarded, Stmt.runAll?, Stmt.run?, htest, Value.isTruthy, Stmt.returns]

/-- A branch is passed by when its test is false. -/
theorem run_guarded_of_false {env : Env} {f : Abi.Function} {test : Expr}
    (h : test.eval? env = some (.boolean false)) (rest : List Stmt) :
    Stmt.runAll? env (guarded g f test :: rest) = Stmt.runAll? env rest := by
  simp [guarded, Stmt.runAll?, Stmt.run?, h, Value.isTruthy]

/-- **The true test decides.**  Of tests that exclude each other the one that
is true picks its function, wherever it stands. -/
theorem run_of_holds {env : Env} {fs : List Abi.Function} {tests : List Expr}
    (hvalues : ∀ t ∈ tests, ∃ b, t.eval? env = some (.boolean b))
    (hexclude : tests.Pairwise fun s t => ¬ (env.Holds s ∧ env.Holds t))
    {f : Abi.Function} {test : Expr} (hmem : (f, test) ∈ fs.zip tests)
    (htest : env.Holds test) (rest : List Stmt) :
    Stmt.runAll? env (List.zipWith (guarded g) fs tests ++ rest) =
      some (.returned (some (encodeCall g f))) := by
  induction tests generalizing fs with
  | nil => simp at hmem
  | cons t tests ih =>
      obtain ⟨hfirst, hlater⟩ := List.pairwise_cons.mp hexclude
      cases fs with
      | nil => simp at hmem
      | cons f' fs =>
          rw [List.zipWith_cons_cons, List.cons_append]
          rcases List.mem_cons.mp hmem with heq | hmem
          · obtain ⟨rfl, rfl⟩ := Prod.mk.injEq .. |>.mp heq
            exact run_guarded_of_holds htest _
          · have hfalse : t.eval? env = some (.boolean false) := by
              obtain ⟨b, hb⟩ := hvalues t List.mem_cons_self
              cases b with
              | false => exact hb
              | true => exact absurd ⟨hb, htest⟩ (hfirst test (List.of_mem_zip hmem).2)
            rw [run_guarded_of_false hfalse]
            exact ih (fun t ht => hvalues t (List.mem_cons_of_mem _ ht)) hlater hmem

/-- Where no test is true no branch is taken. -/
theorem run_of_none {env : Env} {fs : List Abi.Function} {tests : List Expr}
    (hvalues : ∀ t ∈ tests, ∃ b, t.eval? env = some (.boolean b))
    (hnone : ∀ t ∈ tests, ¬ env.Holds t) (rest : List Stmt) :
    Stmt.runAll? env (List.zipWith (guarded g) fs tests ++ rest) = Stmt.runAll? env rest := by
  induction tests generalizing fs with
  | nil => simp
  | cons t tests ih =>
      cases fs with
      | nil => simp
      | cons f fs =>
          have hfalse : t.eval? env = some (.boolean false) := by
            obtain ⟨b, hb⟩ := hvalues t List.mem_cons_self
            cases b with
            | false => exact hb
            | true => exact absurd hb (hnone t List.mem_cons_self)
          rw [List.zipWith_cons_cons, List.cons_append, run_guarded_of_false hfalse]
          exact ih (fun t ht => hvalues t (List.mem_cons_of_mem _ ht))
            (fun t ht => hnone t (List.mem_cons_of_mem _ ht))

/-- The test of a function with that shape. -/
def shapeTest (g : MethodGroup) (shape : InputShape) : Expr :=
  (Expr.allOf? (shapeChecks g shape)).getD .undefined

/-- A member with parameters tests every function. -/
theorem allOf_shapeChecks (hparams : g.params ≠ []) (shape : InputShape) :
    Expr.allOf? (shapeChecks g shape) = some (shapeTest g shape) := by
  obtain ⟨p, rest, hcons⟩ := List.exists_cons_of_ne_nil hparams
  simp [shapeTest, shapeChecks, hcons, Expr.allOf?, Expr.joined?]

/-- The encoder of several functions with parameters has one guarded branch
for each. -/
theorem result_encoder {shapes : List InputShape} (hparams : g.params ≠ [])
    (hover : 2 ≤ g.overloads.length)
    (h : List.Forall₂ (fun f s => (inputShape g.name f.inputs).result = .ok s)
      g.overloads shapes) :
    (encoder g).result =
      .ok (.arrow [] g.parameters none (guardedBody g (shapes.map (shapeTest g)))) := by
  have hshared : g.isOverloaded = true := NameGroup.isShared_iff.mpr hover
  simp only [encoder, hshared, if_true, Outcome.result_bind, result_dispatchAll h,
    allOf_shapeChecks hparams, guardedBody, List.zipWith_map_right]
  rfl

end Encoders

/-- The arguments fit a function of the group: each parameter that the
function takes has a value that the guard of its first input of that name
accepts, and every other parameter of the group is left out. -/
structure Fits (g : MethodGroup) (f : Abi.Function) (args : List Value) : Prop where
  given : ∀ (i : Nat) (p : GroupParam) (input : Abi.Param) (d : Descriptor),
    g.params[i]? = some p → input? f.inputs p.name = some input →
    (Descriptor.ofParam g.name input).result = .ok d →
    d.guard.accepts (args[i]?.getD .undefined) = true
  omitted : ∀ (i : Nat) (p : GroupParam),
    g.params[i]? = some p → input? f.inputs p.name = none →
    args[i]?.getD .undefined = .undefined

/-- Arguments that fit a function pass for its shape. -/
theorem Fits.passes {g : MethodGroup} {f : Abi.Function} {args : List Value}
    {shape : InputShape} (hfits : Fits g f args)
    (hshape : (inputShape g.name f.inputs).result = .ok shape)
    {i : Nat} {p : GroupParam} (hp : g.params[i]? = some p) :
    Client.passes (shape.lookup p.name) (args[i]?.getD .undefined) = true := by
  have hlookup := lookup_inputShape hshape p.name
  cases hinput : input? f.inputs p.name with
  | none =>
      rw [hinput] at hlookup
      rw [show shape.lookup p.name = none from hlookup, hfits.omitted i p hp hinput]
      rfl
  | some input =>
      rw [hinput] at hlookup
      obtain ⟨d, hd, heq⟩ := hlookup
      rw [heq]
      exact hfits.given i p input d hp hinput hd

end AbiBindings.Client

namespace AbiBindings.Interface.Combines

open Script Client

variable {g : MethodGroup} {params : InputShape} {shapes : List InputShape}

/-- Every descriptor of a shape is plain. -/
theorem plain (h : Combines g params shapes) {s : InputShape} (hs : s ∈ shapes)
    (name : String) (d : Descriptor) (hd : s.lookup name = some d) : d.guard ≠ .any := by
  obtain ⟨f, -, hshape⟩ := SideBySide.exists_item h.shaped hs
  exact guard_ne_any_of_mem_inputShape hshape hd

/-- Several functions can only be told apart by a parameter: without one, all
of their conditions were empty. -/
theorem params_ne_nil (h : Combines g params shapes)
    (hover : 2 ≤ g.overloads.length) : g.params ≠ [] := by
  intro hnil
  have hempty : params = [] := by simpa [h.params_eq] using hnil
  have hdiffer := h.differ
  match shapes, h.shaped.length_eq ▸ hover with
  | s :: s' :: rest, _ =>
      refine (List.pairwise_cons.mp hdiffer).1 s' (by simp) ?_
      simp [condition, hempty]

/-- Every test has a value. -/
theorem eval_shapeTest (h : Combines g params shapes)
    (hover : 2 ≤ g.overloads.length) {env : Env} (henv : env.Binds (boundNames g))
    {s : InputShape} (hs : s ∈ shapes) :
    (shapeTest g s).eval? env = some (.boolean (g.params.all fun p =>
      passes (s.lookup p.name) ((env p.ident).getD .undefined))) := by
  obtain ⟨test, htest, hvalue⟩ := eval_test henv (h.params_ne_nil hover) (h.plain hs)
  rw [shapeTest, htest]
  exact hvalue

/-- Two tests that are true at once belong to one condition. -/
theorem condition_eq_of_holds (h : Combines g params shapes)
    (hover : 2 ≤ g.overloads.length) {env : Env} (henv : env.Binds (boundNames g))
    {s s' : InputShape} (hs : s ∈ shapes) (hs' : s' ∈ shapes)
    (hholds : env.Holds (shapeTest g s)) (hholds' : env.Holds (shapeTest g s')) :
    condition params s = condition params s' := by
  let value := fun name =>
    (env (Scope.parameterIdent name Scope.memberLocals)).getD .undefined
  have hpasses : ∀ s ∈ shapes, env.Holds (shapeTest g s) →
      ∀ p ∈ params, passes (s.lookup p.1) (value p.1) = true := by
    intro s hs hholds p hp
    rw [Env.Holds, h.eval_shapeTest hover henv hs] at hholds
    have hall : g.params.all (fun p =>
        passes (s.lookup p.name) ((env p.ident).getD .undefined)) = true := by
      simpa using hholds
    exact List.all_eq_true.mp hall (groupParam shapes p)
      (h.params_eq ▸ List.mem_map_of_mem hp)
  exact condition_eq_of_passes (h.plain hs) (h.plain hs')
    (hpasses s hs hholds) (hpasses s' hs' hholds')

/-- **Exclusion.**  Whatever the parameters are bound to, every test has a
value and at most one is true. -/
theorem tests_exclude (h : Combines g params shapes)
    (hover : 2 ≤ g.overloads.length) {env : Env} (henv : env.Binds (boundNames g)) :
    (∀ t ∈ shapes.map (shapeTest g), ∃ b, t.eval? env = some (.boolean b)) ∧
      (shapes.map (shapeTest g)).Pairwise fun s t => ¬ (env.Holds s ∧ env.Holds t) := by
  constructor
  · intro t ht
    obtain ⟨s, hs, rfl⟩ := List.mem_map.mp ht
    exact ⟨_, h.eval_shapeTest hover henv hs⟩
  · refine List.pairwise_map.mpr (h.differ.imp_of_mem ?_)
    intro s s' hs hs' hdiffer hall
    obtain ⟨hholds, hholds'⟩ := hall
    exact hdiffer (h.condition_eq_of_holds hover henv hs hs' hholds hholds')

/-- **Coverage.**  Arguments that fit a function make its test true. -/
theorem holds_of_fits (h : Combines g params shapes)
    (hover : 2 ≤ g.overloads.length) (hnodup : (boundNames g).Nodup)
    {f : Abi.Function} {t : Expr} {args : List Value}
    (hmem : (f, t) ∈ g.overloads.zip (shapes.map (shapeTest g))) (hfits : Fits g f args) :
    (Env.ofArguments (boundNames g) args).Holds t := by
  rw [List.zip_map_right] at hmem
  obtain ⟨⟨f', s⟩, hfs, heq⟩ := List.mem_map.mp hmem
  obtain ⟨rfl, rfl⟩ := Prod.mk.injEq .. |>.mp heq
  have hshape := (List.forall₂_iff_zip.mp h.shaped).2 hfs
  have hall : ∀ p ∈ g.params, passes (s.lookup p.name)
      ((Env.ofArguments (boundNames g) args p.ident).getD .undefined) = true := by
    intro p hp
    obtain ⟨i, hi⟩ := List.mem_iff_getElem?.mp hp
    have hname : (boundNames g)[i]? = some p.ident := by simp [boundNames_eq, hi]
    rw [Env.ofArguments_getElem? hnodup hname]
    exact hfits.passes hshape hi
  rw [Env.Holds, h.eval_shapeTest hover (Env.binds_ofArguments _ _) (List.of_mem_zip hfs).2]
  simpa using List.all_eq_true.mpr hall

end AbiBindings.Interface.Combines

namespace AbiBindings.Client

open Script Interface

/-- **Overload dispatch is unambiguous and right.**  The encoder of several
combined functions is one guarded branch per function, in declared order, and
an error behind them.  What a branch returns has the transport encode the
inputs of its function, behind the selector of that function and at their
places.  Whatever the arguments are, every test has a value and at most one is
true; the encoder returns the call of that function, and fails when none is
true.  A function is picked by all arguments that fit it, as long as the
parameters have different names. -/
theorem combine_dispatch_unambiguous {contract : Contract} {face : Interface}
    (h : (Interface.ofContract contract .combine).result = .ok face)
    {g : MethodGroup} (hg : g ∈ face.methods) (hover : 2 ≤ g.overloads.length) :
    (g.overloads = (Abi.namedFunctions contract.abi).filter fun f =>
        baseName f.name = g.name) ∧
      (∀ f ∈ g.overloads, EncodesFunction g f (encodeCall g f)) ∧
      ∃ tests : List Expr, tests.length = g.overloads.length ∧
        (encoder g).result = .ok (.arrow [] g.parameters none (guardedBody g tests)) ∧
        (∀ env : Env, env.Binds (boundNames g) →
          (∀ t ∈ tests, ∃ b, t.eval? env = some (.boolean b)) ∧
          (tests.Pairwise fun s t => ¬ (env.Holds s ∧ env.Holds t)) ∧
          (∀ f t, (f, t) ∈ g.overloads.zip tests → env.Holds t →
            Stmt.runAll? env (guardedBody g tests) =
              some (.returned (some (encodeCall g f)))) ∧
          ((∀ t ∈ tests, ¬ env.Holds t) →
            Stmt.runAll? env (guardedBody g tests) = some (.thrown (mismatch g)))) ∧
        ((boundNames g).Nodup → ∀ f t args, (f, t) ∈ g.overloads.zip tests → Fits g f args →
          (Env.ofArguments (boundNames g) args).Holds t ∧
            Stmt.runAll? (Env.ofArguments (boundNames g) args) (guardedBody g tests) =
              some (.returned (some (encodeCall g f)))) := by
  obtain ⟨params, shapes, hcombines⟩ := combines_of_mem_methods h hg
  have hcalls : ∀ f ∈ g.overloads, EncodesFunction g f (encodeCall g f) := by
    intro f hf
    apply encodesFunction_encodeCall
    intro input hinput hnamed
    exact name_mem_params h hg hf hinput hnamed
  refine ⟨overloads_of_combine h hg, hcalls, shapes.map (shapeTest g),
    by simp [hcombines.shaped.length_eq],
    result_encoder (hcombines.params_ne_nil hover) hover hcombines.shaped, ?_, ?_⟩
  · intro env henv
    obtain ⟨hvalues, hexclude⟩ := hcombines.tests_exclude hover henv
    refine ⟨hvalues, hexclude, ?_, ?_⟩
    · intro f t hmem ht
      exact run_of_holds hvalues hexclude hmem ht _
    · intro hnone
      rw [guardedBody, run_of_none hvalues hnone]
      simp [Stmt.runAll?, Stmt.run?]
  · intro hnodup f t args hmem hfits
    obtain ⟨hvalues, hexclude⟩ :=
      hcombines.tests_exclude hover (Env.binds_ofArguments (boundNames g) args)
    have hholds := hcombines.holds_of_fits hover hnodup hmem hfits
    exact ⟨hholds, run_of_holds hvalues hexclude hmem hholds _⟩

/-- A function that sets a number. -/
def setNumber : Abi.Function :=
  ⟨"set", [{ name := "value", kind := "uint256" }], [], .nonpayable⟩

/-- A function of the same name that sets a text, by force if asked to. -/
def setText : Abi.Function :=
  ⟨"set", [{ name := "value", kind := "string" }, { name := "force", kind := "bool" }], [],
    .nonpayable⟩

/-- A contract whose two functions share a name. -/
def setters : Contract :=
  { name := "Setters", abi := [.function setNumber, .function setText], bytecode := "" }

/-- Their one method. -/
def setMethod : MethodGroup :=
  { name := "set", first := setNumber, others := [setText], ident := "set",
    params := [⟨"value", .union [.integer, .string], false⟩, ⟨"force", .boolean, true⟩] }

/-- Their interface. -/
def settersFace : Interface :=
  ⟨"Setters", none, [setMethod], [], [setNumber.signature, setText.signature]⟩

private theorem ofContract_setters :
    (Interface.ofContract setters .combine).result = .ok settersFace := by
  rfl

/-- A text and a flag fit the second function. -/
private theorem fits_setText : Fits setMethod setText [.string "on", .boolean true] := by
  constructor
  · intro i p input d hp hinput hd
    match i with
    | 0 =>
        obtain rfl : ⟨"value", .union [.integer, .string], false⟩ = p := by
          simpa [setMethod] using hp
        cases hinput
        cases hd
        rfl
    | 1 =>
        obtain rfl : ⟨"force", .boolean, true⟩ = p := by simpa [setMethod] using hp
        cases hinput
        cases hd
        rfl
    | i + 2 => simp [setMethod] at hp
  · intro i p hp hinput
    match i with
    | 0 =>
        obtain rfl : ⟨"value", .union [.integer, .string], false⟩ = p := by
          simpa [setMethod] using hp
        cases hinput
    | 1 =>
        obtain rfl : ⟨"force", .boolean, true⟩ = p := by simpa [setMethod] using hp
        cases hinput
    | i + 2 => simp [setMethod] at hp

/-- The call that encodes the inputs of the second function. -/
private theorem encodeCall_setText :
    encodeCall setMethod setText = .call (.prop (.ident "client") "encode") []
      [.str (selector "set(string,bool)"), .array [.str "string", .str "bool"],
        .ident "value", .ident "force"] := by
  rfl

/-- Such arguments are encoded by the second function. -/
theorem combine_dispatch_unambiguous_setText :
    (Interface.ofContract setters .combine).result = .ok settersFace ∧
      setMethod ∈ settersFace.methods ∧ 2 ≤ setMethod.overloads.length ∧
      (boundNames setMethod).Nodup ∧
      Fits setMethod setText [.string "on", .boolean true] ∧
      EncodesFunction setMethod setText (encodeCall setMethod setText) ∧
      ∃ tests : List Expr,
        (encoder setMethod).result =
          .ok (.arrow [] setMethod.parameters none (guardedBody setMethod tests)) ∧
        Stmt.runAll? (Env.ofArguments (boundNames setMethod) [.string "on", .boolean true])
          (guardedBody setMethod tests) =
            some (.returned (some (.call (.prop (.ident "client") "encode") []
              [.str (selector "set(string,bool)"), .array [.str "string", .str "bool"],
                .ident "value", .ident "force"]))) := by
  have hnodup : (boundNames setMethod).Nodup := by decide
  have hoverloads : setMethod.overloads = [setNumber, setText] := rfl
  obtain ⟨-, hcalls, tests, hlength, hencoder, -, hfits⟩ :=
    combine_dispatch_unambiguous ofContract_setters (g := setMethod)
      (by simp [settersFace]) (by decide)
  obtain ⟨first, second, rfl⟩ := List.length_eq_two.mp hlength
  refine ⟨ofContract_setters, by simp [settersFace], by decide, hnodup, fits_setText,
    hcalls setText (by simp [hoverloads]), [first, second], hencoder, ?_⟩
  rw [← encodeCall_setText]
  exact (hfits hnodup setText second _ (by simp [hoverloads]) fits_setText).2

end AbiBindings.Client
