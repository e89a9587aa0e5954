import AbiBindings.Client.Transport
import AbiBindings.Interface.Basic

/-!
# The table of encoders

One function per method group turns arguments into call data.  A group of
several functions picks one by the guards of the supplied arguments and throws
when none of them fits; a single function is not guarded at all.
-/

namespace AbiBindings.Client

open Script Interface

/-- What is passed for an input: the parameter of its name, and `undefined` for
an unnamed input. -/
def argument (params : List GroupParam) (input : Abi.Param) : Expr :=
  match params.find? fun p => input.isNamed && p.name == input.name with
  | some p => .ident p.ident
  | none => .undefined

/-- The call that encodes the inputs of a function of the group. -/
def encodeCall (g : MethodGroup) (f : Abi.Function) : Expr :=
  Transport.encode (.ident Scope.client) f.signature.selector (Abi.canonicalTypes f.inputs)
    (f.inputs.map (argument g.params))

/-- The check of one parameter for a function: that of its descriptor, or that
it was left out. -/
def paramCheck (p : GroupParam) : Option Descriptor → Expr
  | some d => d.check (.ident p.ident)
  | none => .equals (.ident p.ident) .undefined

/-- The checks of the parameters of the group for a function. -/
def paramChecks (g : MethodGroup) (f : Abi.Function) : List GroupParam → Outcome (List Expr)
  | [] => pure []
  | p :: rest => do
      let d ← g.overloadType f p
      let checks ← paramChecks g f rest
      pure (paramCheck p d :: checks)

/-- The condition under which a function is picked; none when the group has no
parameters. -/
def dispatchCondition (g : MethodGroup) (f : Abi.Function) : Outcome (Option Expr) :=
  Expr.allOf? <$> paramChecks g f g.params

/-- The statement that picks a function. -/
def dispatch (g : MethodGroup) (f : Abi.Function) (test : Option Expr) : Stmt :=
  let ret := Stmt.returns (encodeCall g f)
  match test with
  | some test => .cond test [ret] []
  | none => ret

/-- The statements that pick one of the functions. -/
def dispatchAll (g : MethodGroup) : List Abi.Function → Outcome (List Stmt)
  | [] => pure []
  | f :: rest => do
      let test ← dispatchCondition g f
      let others ← dispatchAll g rest
      pure (dispatch g f test :: others)

/-- The error for arguments that fit no function. -/
def noOverload (g : MethodGroup) : Stmt :=
  .throw (.new (.ident "Error") []
    [.str ("no overload of " ++ g.name ++ " matches the supplied arguments")])

/-- The encoder of a group. -/
def encoder (g : MethodGroup) : Outcome Expr :=
  if g.isOverloaded then do
    let branches ← dispatchAll g g.overloads
    pure (.arrow [] g.parameters none (branches ++ [noOverload g]))
  else pure (.arrow [] g.parameters none [.returns (encodeCall g g.first)])

/-- The encoder of each group under its identifier. -/
def encoders : List MethodGroup → Outcome (List (String × Expr))
  | [] => pure []
  | g :: rest => do
      let e ← encoder g
      let others ← encoders rest
      pure ((g.ident, e) :: others)

/-- The table of encoders over a transport. -/
def encodeTable (methods : List MethodGroup) : Outcome Decl := do
  let entries ← encoders methods
  pure (.const true Scope.encode
    (.arrow [Scope.transaction] [.typed Scope.client Transport.ty] none
      [.returns (.object entries)]))

end AbiBindings.Client
