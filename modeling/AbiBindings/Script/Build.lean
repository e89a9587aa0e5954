import AbiBindings.Script.Tree

/-!
# Building syntax trees

Short forms for the shapes that the generated code is made of.
-/

namespace AbiBindings.Script

/-- A type of that name without arguments. -/
def Ty.named (name : String) : Ty := .ref name []

/-- The type of a promise of `t`. -/
def Ty.promise (t : Ty) : Ty := .ref "Promise" [t]

/-- A parameter of that name and type. -/
def Param.typed (name : String) (ty : Ty) : Param := { name, ty := some ty }

/-- A parameter of that name. -/
def Param.untyped (name : String) : Param := { name }

namespace Expr

/-- A call without type arguments. -/
def apply (callee : Expr) (args : List Expr) : Expr := .call callee [] args

/-- A call of a method. -/
def method (object : Expr) (name : String) (args : List Expr) : Expr :=
  .apply (.prop object name) args

/-- A member of the current object. -/
def own (name : String) : Expr := .prop .this name

/-- Whether the two are strictly equal. -/
def equals (left right : Expr) : Expr := .binary left .strictEq right

/-- The expressions joined by an operator that associates to the left; nothing
for no expressions. -/
def joined? (op : BinaryOp) : List Expr → Option Expr
  | [] => none
  | e :: rest => some (rest.foldl (fun acc next => .binary acc op next) e)

/-- The conjunction of the expressions. -/
def allOf? (es : List Expr) : Option Expr := joined? .and es

/-- The disjunction of the expressions. -/
def anyOf? (es : List Expr) : Option Expr := joined? .or es

/-- A function of two untyped parameters. -/
def callback (first second : String) (body : List Stmt) : Expr :=
  .arrow [] [.untyped first, .untyped second] none body

/-- A promise that the statements settle through `resolve` and `reject`. -/
def newPromise (body : List Stmt) : Expr :=
  .new (.ident "Promise") [] [callback "resolve" "reject" body]

/-- A buffer made of the value. -/
def bufferFrom (value : Expr) : Expr := .method (.ident "Buffer") "from" [value]

/-- The list of the strings. -/
def strings (values : List String) : Expr := .array (values.map .str)

end Expr

/-- An assignment as a statement. -/
def Stmt.assign (target value : Expr) : Stmt := .expr (.assign target value)

/-- A return of a value. -/
def Stmt.returns (value : Expr) : Stmt := .ret (some value)

/-- Rejects the promise on an error named `err`; else runs the statements and
resolves to the value. -/
def Stmt.settle (err : String) (before : List Stmt) (value : Expr) : Stmt :=
  .cond (.ident err) [.expr (.apply (.ident "reject") [.ident err])]
    (before ++ [.expr (.apply (.ident "resolve") [value])])

end AbiBindings.Script
