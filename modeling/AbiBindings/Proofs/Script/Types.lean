import AbiBindings.Script.Tree
import Mathlib.Data.List.Basic

/-!
# The types inside generated code

`types` lists the types that stand in a tree, as annotations and as arguments,
in the order of the tree.  Types inside of other types are not listed on their
own.

A type may hold code: a parameter of a function type may have a default value.
Types without such values are free of code (`Ty.isCodeFree`), and they are made
of names and marks alone.
-/

namespace AbiBindings.Script

mutual

/-- Whether the type holds no default values. -/
@[simp]
def Ty.isCodeFree : Ty → Bool
  | .string | .number | .boolean | .any | .void => true
  | .ref _ args => Ty.areCodeFree args
  | .array element => element.isCodeFree
  | .tuple items => Ty.areCodeFree items
  | .union members => Ty.areCodeFree members
  | .object fields => Ty.areCodeFreeFields fields
  | .fn params returns => Param.areCodeFree params && returns.isCodeFree

/-- Whether the types hold no default values. -/
@[simp]
def Ty.areCodeFree : List Ty → Bool
  | [] => true
  | t :: rest => t.isCodeFree && Ty.areCodeFree rest

/-- Whether the fields of an object type hold no default values. -/
@[simp]
def Ty.areCodeFreeFields : List (String × Ty) → Bool
  | [] => true
  | (_, t) :: rest => t.isCodeFree && Ty.areCodeFreeFields rest

/-- Whether the type, where one is given, holds no default values. -/
@[simp]
def Ty.isCodeFreeOption : Option Ty → Bool
  | none => true
  | some t => t.isCodeFree

/-- Whether the parameter has no default value and holds none in its type. -/
@[simp]
def Param.isCodeFree : Param → Bool
  | { ty, default, .. } => Ty.isCodeFreeOption ty && default.isNone

/-- Whether the parameters have no default values and hold none in their types. -/
@[simp]
def Param.areCodeFree : List Param → Bool
  | [] => true
  | p :: rest => p.isCodeFree && Param.areCodeFree rest

end

mutual

/-- The types that stand in an expression, those inside of other types aside. -/
@[simp]
def Expr.types : Expr → List Ty
  | .ident _ | .str _ | .num _ | .undefined | .this => []
  | .array items => Expr.typesOfAll items
  | .object entries => Expr.typesOfEntries entries
  | .prop object _ => object.types
  | .call callee typeArgs args | .new callee typeArgs args =>
      callee.types ++ (typeArgs ++ Expr.typesOfAll args)
  | .binary left _ right => left.types ++ right.types
  | .typeOf operand => operand.types
  | .assign target value => target.types ++ value.types
  | .arrow _ params returns body =>
      Param.typesOfAll params ++ (returns.toList ++ Stmt.typesOfAll body)

/-- The types that stand in expressions. -/
@[simp]
def Expr.typesOfAll : List Expr → List Ty
  | [] => []
  | e :: rest => e.types ++ Expr.typesOfAll rest

/-- The types that stand in the entries of an object literal. -/
@[simp]
def Expr.typesOfEntries : List (String × Expr) → List Ty
  | [] => []
  | (_, e) :: rest => e.types ++ Expr.typesOfEntries rest

/-- The types that stand in an expression that may be missing. -/
@[simp]
def Expr.typesOfOption : Option Expr → List Ty
  | none => []
  | some e => e.types

/-- The types that stand in a parameter. -/
@[simp]
def Param.types : Param → List Ty
  | { ty, default, .. } => ty.toList ++ Expr.typesOfOption default

/-- The types that stand in parameters. -/
@[simp]
def Param.typesOfAll : List Param → List Ty
  | [] => []
  | p :: rest => p.types ++ Param.typesOfAll rest

/-- The types that stand in a statement. -/
@[simp]
def Stmt.types : Stmt → List Ty
  | .const _ init | .constArray _ init => init.types
  | .expr e => e.types
  | .ret value => Expr.typesOfOption value
  | .cond test thenBody elseBody =>
      test.types ++ (Stmt.typesOfAll thenBody ++ Stmt.typesOfAll elseBody)
  | .throw value => value.types

/-- The types that stand in statements. -/
@[simp]
def Stmt.typesOfAll : List Stmt → List Ty
  | [] => []
  | s :: rest => s.types ++ Stmt.typesOfAll rest

end

/-- The types that stand in a method of an interface. -/
def InterfaceMethod.types (m : InterfaceMethod) : List Ty :=
  Param.typesOfAll m.params ++ [m.returns]

/-- The types that stand in a member of a class. -/
def Member.types : Member → List Ty
  | .property _ _ ty => [ty]
  | .constructor params body => Param.typesOfAll params ++ Stmt.typesOfAll body
  | .method _ _ params returns body =>
      Param.typesOfAll params ++ (returns.toList ++ Stmt.typesOfAll body)

mutual

/-- The types that stand in a declaration. -/
def Decl.types : Decl → List Ty
  | .imports _ _ => []
  | .interface _ _ _ methods => methods.flatMap InterfaceMethod.types
  | .class _ _ _ members => members.flatMap Member.types
  | .function _ _ _ params returns body =>
      Param.typesOfAll params ++ (returns.toList ++ Stmt.typesOfAll body)
  | .const _ _ init => init.types
  | .namespace _ _ body => Decl.typesOfAll body

/-- The types that stand in declarations. -/
def Decl.typesOfAll : List Decl → List Ty
  | [] => []
  | d :: rest => d.types ++ Decl.typesOfAll rest

end

/-- The types that stand in a module. -/
def Module.types (m : Module) : List Ty := Decl.typesOfAll m.decls

theorem Param.typesOfAll_eq (ps : List Param) : typesOfAll ps = ps.flatMap types := by
  induction ps with
  | nil => rfl
  | cons p rest ih => simp [typesOfAll, ih]

theorem Expr.typesOfAll_eq (es : List Expr) : typesOfAll es = es.flatMap types := by
  induction es with
  | nil => rfl
  | cons e rest ih => simp [typesOfAll, ih]

theorem Expr.typesOfEntries_eq (entries : List (String × Expr)) :
    typesOfEntries entries = entries.flatMap fun e => e.2.types := by
  induction entries with
  | nil => rfl
  | cons entry rest ih => simp [typesOfEntries, ih]

theorem Stmt.typesOfAll_eq (body : List Stmt) : typesOfAll body = body.flatMap types := by
  induction body with
  | nil => rfl
  | cons s rest ih => simp [typesOfAll, ih]

theorem Decl.typesOfAll_eq (ds : List Decl) : typesOfAll ds = ds.flatMap types := by
  induction ds with
  | nil => rfl
  | cons d rest ih => simp [typesOfAll, ih]

/-- None of the types holds default values. -/
def CodeFree (types : List Ty) : Prop := ∀ t ∈ types, t.isCodeFree = true

instance (types : List Ty) : Decidable (CodeFree types) := by
  unfold CodeFree
  infer_instance

@[simp]
theorem codeFree_nil : CodeFree [] := by simp [CodeFree]

@[simp]
theorem codeFree_cons {t : Ty} {types : List Ty} :
    CodeFree (t :: types) ↔ t.isCodeFree = true ∧ CodeFree types :=
  List.forall_mem_cons

@[simp]
theorem codeFree_append {types others : List Ty} :
    CodeFree (types ++ others) ↔ CodeFree types ∧ CodeFree others :=
  List.forall_mem_append

@[simp]
theorem codeFree_flatMap {α : Type} {items : List α} {f : α → List Ty} :
    CodeFree (items.flatMap f) ↔ ∀ a ∈ items, CodeFree (f a) :=
  List.forall_mem_flatMap

theorem Ty.areCodeFree_iff {ts : List Ty} : Ty.areCodeFree ts = true ↔ CodeFree ts := by
  induction ts with
  | nil => simp
  | cons t rest ih => simp [ih]

theorem Ty.areCodeFreeFields_iff {fields : List (String × Ty)} :
    Ty.areCodeFreeFields fields = true ↔ CodeFree (fields.map Prod.snd) := by
  induction fields with
  | nil => simp
  | cons field rest ih => simp [ih]

end AbiBindings.Script
