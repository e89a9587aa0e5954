/-!
# Syntax tree of the generated code

Types, parameters, expressions and statements refer to each other: a function
type has parameters, a parameter may have a default expression, and an arrow
function has types, parameters and statements.  Class members and declarations
are built from them.  The tree says nothing of layout, which belongs to
`Script.Printer`.
-/

namespace AbiBindings.Script

/-- The binary operators that the generated code uses. -/
inductive BinaryOp where
  | plus | strictEq | strictNe | and | or
deriving DecidableEq, Repr, Inhabited

mutual

/-- A type annotation. -/
inductive Ty where
  | string | number | boolean | any | void
  | ref (name : String) (args : List Ty)
  | array (element : Ty)
  | tuple (items : List Ty)
  | union (members : List Ty)
  | object (fields : List (String × Ty))
  | fn (params : List Param) (returns : Ty)

/-- A parameter of a function, method or function type; `rest` collects the
remaining arguments. -/
structure Param where
  name : String
  ty : Option Ty := none
  optional : Bool := false
  rest : Bool := false
  default : Option Expr := none

/-- An expression. -/
inductive Expr where
  | ident (name : String)
  | str (value : String)
  | num (value : Nat)
  | undefined
  | this
  | array (items : List Expr)
  | object (entries : List (String × Expr))
  | prop (object : Expr) (name : String)
  | call (callee : Expr) (typeArgs : List Ty) (args : List Expr)
  | new (callee : Expr) (typeArgs : List Ty) (args : List Expr)
  | binary (left : Expr) (op : BinaryOp) (right : Expr)
  | typeOf (operand : Expr)
  | assign (target value : Expr)
  | arrow (typeParams : List String) (params : List Param) (returns : Option Ty)
      (body : List Stmt)

/-- A statement; `constArray` binds the items of an array by position. -/
inductive Stmt where
  | const (name : String) (init : Expr)
  | constArray (names : List String) (init : Expr)
  | expr (e : Expr)
  | ret (value : Option Expr)
  | cond (test : Expr) (thenBody elseBody : List Stmt)
  | throw (value : Expr)

end

instance : Inhabited Ty := ⟨.any⟩
instance : Inhabited Expr := ⟨.undefined⟩
instance : Inhabited Stmt := ⟨.ret none⟩

/-- A method of an interface. -/
structure InterfaceMethod where
  name : String
  params : List Param
  returns : Ty

/-- Whether a class member is seen from outside of the class. -/
inductive Visibility where
  | open | closed
deriving DecidableEq, Repr, Inhabited

/-- A member of a class. -/
inductive Member where
  | property (visibility : Visibility) (name : String) (ty : Ty)
  | constructor (params : List Param) (body : List Stmt)
  | method (visibility : Visibility) (name : String) (params : List Param) (returns : Option Ty)
      (body : List Stmt)

/-- The name under which a member is found; the constructor's is fixed. -/
def Member.name : Member → String
  | .property _ name _ => name
  | .constructor _ _ => "constructor"
  | .method _ name _ _ _ => name

/-- Whether the member is a field. -/
def Member.isProperty : Member → Bool
  | .property .. => true
  | _ => false

/-- A declaration of a module or of a namespace. -/
inductive Decl where
  | imports (names : List String) (source : String)
  | interface (exported : Bool) (name : String) (typeParams : List String)
      (methods : List InterfaceMethod)
  | class (exported : Bool) (name : String) (typeParams : List String) (members : List Member)
  | function (exported : Bool) (name : String) (typeParams : List String) (params : List Param)
      (returns : Option Ty) (body : List Stmt)
  | const (exported : Bool) (name : String) (init : Expr)
  | namespace (exported : Bool) (name : String) (body : List Decl)

/-- The name that a declaration binds; an import goes by the module it names. -/
def Decl.name : Decl → String
  | .imports _ source => source
  | .interface _ name _ _ | .class _ name _ _ | .function _ name _ _ _ _ | .const _ name _
  | .namespace _ name _ => name

/-- One file of generated code. -/
structure Module where
  decls : List Decl

/-- The first declaration of that name. -/
def Module.find? (m : Module) (name : String) : Option Decl :=
  m.decls.find? fun d => d.name == name

end AbiBindings.Script
