import AbiBindings.Script.Build
import Mathlib.Data.List.Forall2

/-!
# What the generated code does with its arguments

A small semantics for the part of the generated code that looks at arguments
while it runs: the checks that tell values apart, and the statements that
pick a branch by them.  Values are told apart as the language does it: by the
name of their type, by strict equality, and by the two tests of the library
that recognise buffers and arrays (`Value.test?`).

Names mean what the environment binds them to.  A name that it does not bind
is global, so `Buffer`, `Array` and `undefined` only keep their meaning in an
environment that leaves them alone; an expression that uses one of them where
it is captured has no value here, just as one outside of this part of the
language.  A conjunction is true when all of its parts are (`eval_allOf`), a
disjunction when one of them is (`eval_anyOf`), and a call binds its parameters
to the arguments by position (`Env.ofArguments_getElem?`).
-/

namespace AbiBindings.Script

/-- A value of the running code.  Values with an identity of their own carry
a reference to it. -/
inductive Value where
  | undefined | null
  | boolean (b : Bool)
  | number (x : Float)
  | bigint (n : Int)
  | string (text : String)
  | symbol (ref : Nat)
  | function (ref : Nat)
  | buffer (ref : Nat)
  | array (ref : Nat)
  | object (ref : Nat)
deriving Inhabited

namespace Value

/-- What `typeof` says of the value. -/
def typeName : Value → String
  | .undefined => "undefined"
  | .boolean _ => "boolean"
  | .number _ => "number"
  | .bigint _ => "bigint"
  | .string _ => "string"
  | .symbol _ => "symbol"
  | .function _ => "function"
  | .null | .buffer _ | .array _ | .object _ => "object"

/-- Whether a condition on the value holds. -/
def isTruthy : Value → Bool
  | .undefined | .null => false
  | .boolean b => b
  | .number x => !(x == 0 || x.isNaN)
  | .bigint n => n != 0
  | .string text => !text.isEmpty
  | .symbol _ | .function _ | .buffer _ | .array _ | .object _ => true

/-- Strict equality; a number that is none differs from itself. -/
def strictEq : Value → Value → Bool
  | .undefined, .undefined | .null, .null => true
  | .boolean a, .boolean b => a == b
  | .number a, .number b => a == b
  | .bigint a, .bigint b => a == b
  | .string a, .string b => a == b
  | .symbol a, .symbol b | .function a, .function b | .buffer a, .buffer b
  | .array a, .array b | .object a, .object b => a == b
  | _, _ => false

/-- Whether the value is a buffer. -/
def isBuffer : Value → Bool
  | .buffer _ => true
  | _ => false

/-- Whether the value is an array. -/
def isArray : Value → Bool
  | .array _ => true
  | _ => false

/-- The test of values that a method of a global object performs. -/
def test? (receiver method : String) : Option (Value → Bool) :=
  if receiver = "Buffer" ∧ method = "isBuffer" then some isBuffer
  else if receiver = "Array" ∧ method = "isArray" then some isArray
  else none

end Value

/-- The values of the names that are bound where an expression stands. -/
abbrev Env := String → Option Value

/-- The environment binds these names and no others. -/
def Env.Binds (env : Env) (names : List String) : Prop :=
  ∀ name, (env name).isSome ↔ name ∈ names

/-- The environment of a call: each parameter has the argument at its place,
and `undefined` where there is none.  The names are meant to be distinct. -/
def Env.ofArguments : List String → List Value → Env
  | [], _ => fun _ => none
  | name :: names, args => fun x =>
      if x = name then some (args.headD .undefined)
      else Env.ofArguments names args.tail x

/-- The value of an expression that looks at the names in scope. -/
def Expr.eval? (env : Env) : Expr → Option Value
  | .ident name => env name
  | .str text => some (.string text)
  | .undefined => if (env "undefined").isNone then some .undefined else none
  | .typeOf operand => do
      let value ← operand.eval? env
      some (.string value.typeName)
  | .binary left op right =>
      match op with
      | .strictEq => do some (.boolean ((← left.eval? env).strictEq (← right.eval? env)))
      | .strictNe => do some (.boolean !((← left.eval? env).strictEq (← right.eval? env)))
      | .and => do
          let value ← left.eval? env
          if value.isTruthy then right.eval? env else some value
      | .or => do
          let value ← left.eval? env
          if value.isTruthy then some value else right.eval? env
      | .plus => none
  | .call (.prop (.ident receiver) method) _ [operand] =>
      if (env receiver).isNone then do
        let test ← Value.test? receiver method
        some (.boolean (test (← operand.eval? env)))
      else none
  | _ => none

/-- How the statements of a function end: with the expression that they
return, with the one that they throw, or after the last of them. -/
inductive Ending where
  | returned (value : Option Expr)
  | thrown (value : Expr)
  | done

mutual

/-- How a statement ends. -/
def Stmt.run? (env : Env) : Stmt → Option Ending
  | .ret value => some (.returned value)
  | .throw value => some (.thrown value)
  | .cond test thenBody elseBody => do
      let value ← test.eval? env
      if value.isTruthy then Stmt.runAll? env thenBody else Stmt.runAll? env elseBody
  | _ => none

/-- How statements end that stand one after the other. -/
def Stmt.runAll? (env : Env) : List Stmt → Option Ending
  | [] => some .done
  | s :: rest => do
      match ← s.run? env with
      | .done => Stmt.runAll? env rest
      | ending => some ending

end

/-- The test is true. -/
def Env.Holds (env : Env) (test : Expr) : Prop :=
  test.eval? env = some (.boolean true)

/-- Expressions that an operator joins have the value that the operator gives
their values, from the left. -/
private theorem eval_joined {env : Env} {op : BinaryOp} {f : Bool → Bool → Bool}
    (hop : ∀ {left right : Expr} {a b : Bool}, left.eval? env = some (.boolean a) →
      right.eval? env = some (.boolean b) →
        (Expr.binary left op right).eval? env = some (.boolean (f a b)))
    {e : Expr} {es : List Expr} {b : Bool} {bs : List Bool}
    (he : e.eval? env = some (.boolean b))
    (hes : List.Forall₂ (fun e b => e.eval? env = some (.boolean b)) es bs) :
    ∃ test, Expr.joined? op (e :: es) = some test ∧
      test.eval? env = some (.boolean (bs.foldl f b)) := by
  refine ⟨_, rfl, ?_⟩
  induction hes generalizing e b with
  | nil => exact he
  | cons hnext _ ih => exact ih (hop he hnext)

/-- A conjunction is true when all of its parts are. -/
theorem eval_allOf {env : Env} {e : Expr} {es : List Expr} {b : Bool} {bs : List Bool}
    (he : e.eval? env = some (.boolean b))
    (hes : List.Forall₂ (fun e b => e.eval? env = some (.boolean b)) es bs) :
    ∃ test, Expr.allOf? (e :: es) = some test ∧
      test.eval? env = some (.boolean ((b :: bs).all id)) := by
  have hfold : ∀ (bs : List Bool) (b : Bool), bs.foldl (· && ·) b = (b :: bs).all id := by
    intro bs
    induction bs with
    | nil => simp
    | cons next rest ih => simp [ih, Bool.and_assoc]
  rw [← hfold]
  refine eval_joined ?_ he hes
  intro left right a b hleft hright
  cases a <;> simp [Expr.eval?, hleft, hright, Value.isTruthy]

/-- A disjunction is true when one of its parts is. -/
theorem eval_anyOf {env : Env} {e : Expr} {es : List Expr} {b : Bool} {bs : List Bool}
    (he : e.eval? env = some (.boolean b))
    (hes : List.Forall₂ (fun e b => e.eval? env = some (.boolean b)) es bs) :
    ∃ test, Expr.anyOf? (e :: es) = some test ∧
      test.eval? env = some (.boolean ((b :: bs).any id)) := by
  have hfold : ∀ (bs : List Bool) (b : Bool), bs.foldl (· || ·) b = (b :: bs).any id := by
    intro bs
    induction bs with
    | nil => simp
    | cons next rest ih => simp [ih, Bool.or_assoc]
  rw [← hfold]
  refine eval_joined ?_ he hes
  intro left right a b hleft hright
  cases a <;> simp [Expr.eval?, hleft, hright, Value.isTruthy]

/-- The arguments of a call by position are the values of its parameters. -/
theorem Env.ofArguments_getElem? {names : List String} (hnodup : names.Nodup)
    {i : Nat} {name : String} (hname : names[i]? = some name) (args : List Value) :
    Env.ofArguments names args name = some (args[i]?.getD .undefined) := by
  induction names generalizing i args with
  | nil => simp at hname
  | cons first rest ih =>
      obtain ⟨hfresh, hrest⟩ := List.nodup_cons.mp hnodup
      cases i with
      | zero =>
          obtain rfl : first = name := by simpa using hname
          cases args <;> simp [Env.ofArguments]
      | succ i =>
          have hlater : rest[i]? = some name := by simpa using hname
          have hne : name ≠ first := by
            intro heq
            subst heq
            exact hfresh (List.mem_of_getElem? hlater)
          cases args with
          | nil => simpa [Env.ofArguments, hne] using ih hrest hlater []
          | cons arg args => simpa [Env.ofArguments, hne] using ih hrest hlater args

/-- Read back in order, the parameters give the arguments. -/
theorem Env.map_ofArguments {names : List String} (hnodup : names.Nodup) {args : List Value}
    (hlength : args.length = names.length) :
    names.map (Env.ofArguments names args) = args.map some := by
  apply List.ext_getElem (by simp [hlength])
  intro i hname harg
  have hi : i < names.length := by simpa using hname
  have hvalue := Env.ofArguments_getElem? hnodup (List.getElem?_eq_getElem hi) args
  rw [List.getElem_map, List.getElem_map, hvalue,
    List.getElem?_eq_getElem (by simpa using harg)]
  rfl

/-- A call binds its parameters and nothing else. -/
theorem Env.binds_ofArguments (names : List String) (args : List Value) :
    (Env.ofArguments names args).Binds names := by
  induction names generalizing args with
  | nil => simp [Env.ofArguments, Env.Binds]
  | cons first rest ih =>
      intro name
      by_cases heq : name = first
      · simp [Env.ofArguments, heq]
      · simpa [Env.ofArguments, heq] using ih args.tail name

end AbiBindings.Script
