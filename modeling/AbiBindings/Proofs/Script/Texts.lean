import AbiBindings.Script.Printer

/-!
# The texts inside generated code

A syntax tree holds texts in places of five kinds: names that it binds, names
that it refers to, names of members, keys and string literals.  `texts` lists
them with their places, in the order of the tree, and `Place.token` says how a
text of each place is written.  Nothing else in a tree is text: operators,
flags and numbers have spellings of their own.
-/

namespace AbiBindings.Script

/-- Where a text stands in a tree. -/
inductive Place where
  /-- the name of a parameter, a constant, a type parameter or a declaration -/
  | binder
  /-- the name that an expression or a type refers to -/
  | reference
  /-- the name of a property, of a class member or of an interface method -/
  | member
  /-- the key of an object literal or the field of an object type -/
  | key
  /-- a string literal -/
  | literal
deriving DecidableEq, Repr

namespace Place

/-- The token that a text in this place is written as. -/
def token : Place → String → Token
  | .binder, s | .reference, s | .member, s => .word s
  | .key, s => keyToken s
  | .literal, s => .quoted s

/-- Whether a text may stand in this place: an identifier where it binds, a
word where it is a name otherwise, and any text as a key or a literal. -/
def admits : Place → String → Bool
  | .binder, s => isIdentifier s
  | .reference, s | .member, s => isWord s.toList
  | .key, _ | .literal, _ => true

@[simp]
theorem admits_key (s : String) : key.admits s = true := rfl

@[simp]
theorem admits_literal (s : String) : literal.admits s = true := rfl

/-- Names in this place. -/
def all (place : Place) (names : List String) : List (Place × String) :=
  names.map fun name => (place, name)

end Place

mutual

/-- The texts inside a type. -/
@[simp]
def Ty.texts : Ty → List (Place × String)
  | .string | .number | .boolean | .any | .void => []
  | .ref name args => (.reference, name) :: Ty.textsOfAll args
  | .array element => element.texts
  | .tuple items => Ty.textsOfAll items
  | .union members => Ty.textsOfAll members
  | .object fields => Ty.textsOfFields fields
  | .fn params returns => Param.textsOfAll params ++ returns.texts

/-- The texts inside types. -/
@[simp]
def Ty.textsOfAll : List Ty → List (Place × String)
  | [] => []
  | t :: rest => t.texts ++ Ty.textsOfAll rest

/-- The texts inside the fields of an object type. -/
@[simp]
def Ty.textsOfFields : List (String × Ty) → List (Place × String)
  | [] => []
  | (key, t) :: rest => (.key, key) :: (t.texts ++ Ty.textsOfFields rest)

/-- The texts inside a type that may be missing. -/
@[simp]
def Ty.textsOfOption : Option Ty → List (Place × String)
  | none => []
  | some t => t.texts

/-- The texts inside a parameter. -/
@[simp]
def Param.texts : Param → List (Place × String)
  | { name, ty, default, .. } =>
      (.binder, name) :: (Ty.textsOfOption ty ++ Expr.textsOfOption default)

/-- The texts inside parameters. -/
@[simp]
def Param.textsOfAll : List Param → List (Place × String)
  | [] => []
  | p :: rest => p.texts ++ Param.textsOfAll rest

/-- The texts inside an expression. -/
@[simp]
def Expr.texts : Expr → List (Place × String)
  | .ident name => [(.reference, name)]
  | .str value => [(.literal, value)]
  | .num _ | .undefined | .this => []
  | .array items => Expr.textsOfAll items
  | .object entries => Expr.textsOfEntries entries
  | .prop object name => object.texts ++ [(.member, name)]
  | .call callee typeArgs args | .new callee typeArgs args =>
      callee.texts ++ (Ty.textsOfAll typeArgs ++ Expr.textsOfAll args)
  | .binary left _ right => left.texts ++ right.texts
  | .typeOf operand => operand.texts
  | .assign target value => target.texts ++ value.texts
  | .arrow typeParams params returns body =>
      Place.binder.all typeParams ++
        (Param.textsOfAll params ++ (Ty.textsOfOption returns ++ Stmt.textsOfAll body))

/-- The texts inside expressions. -/
@[simp]
def Expr.textsOfAll : List Expr → List (Place × String)
  | [] => []
  | e :: rest => e.texts ++ Expr.textsOfAll rest

/-- The texts inside the entries of an object literal. -/
@[simp]
def Expr.textsOfEntries : List (String × Expr) → List (Place × String)
  | [] => []
  | (key, e) :: rest => (.key, key) :: (e.texts ++ Expr.textsOfEntries rest)

/-- The texts inside an expression that may be missing. -/
@[simp]
def Expr.textsOfOption : Option Expr → List (Place × String)
  | none => []
  | some e => e.texts

/-- The texts inside a statement. -/
@[simp]
def Stmt.texts : Stmt → List (Place × String)
  | .const name init => (.binder, name) :: init.texts
  | .constArray names init => Place.binder.all names ++ init.texts
  | .expr e => e.texts
  | .ret value => Expr.textsOfOption value
  | .cond test thenBody elseBody =>
      test.texts ++ (Stmt.textsOfAll thenBody ++ Stmt.textsOfAll elseBody)
  | .throw value => value.texts

/-- The texts inside statements. -/
@[simp]
def Stmt.textsOfAll : List Stmt → List (Place × String)
  | [] => []
  | s :: rest => s.texts ++ Stmt.textsOfAll rest

end

/-- The texts inside a method of an interface. -/
def InterfaceMethod.texts (m : InterfaceMethod) : List (Place × String) :=
  (.member, m.name) :: (Param.textsOfAll m.params ++ m.returns.texts)

/-- The texts inside a member of a class. -/
def Member.texts : Member → List (Place × String)
  | .property _ name ty => (.member, name) :: ty.texts
  | .constructor params body => Param.textsOfAll params ++ Stmt.textsOfAll body
  | .method _ name params returns body =>
      (.member, name) ::
        (Param.textsOfAll params ++ (Ty.textsOfOption returns ++ Stmt.textsOfAll body))

mutual

/-- The texts inside a declaration. -/
def Decl.texts : Decl → List (Place × String)
  | .imports names source => Place.binder.all names ++ [(.literal, source)]
  | .interface _ name typeParams methods =>
      (.binder, name) ::
        (Place.binder.all typeParams ++ methods.flatMap InterfaceMethod.texts)
  | .class _ name typeParams members =>
      (.binder, name) :: (Place.binder.all typeParams ++ members.flatMap Member.texts)
  | .function _ name typeParams params returns body =>
      (.binder, name) :: (Place.binder.all typeParams ++
        (Param.textsOfAll params ++ (Ty.textsOfOption returns ++ Stmt.textsOfAll body)))
  | .const _ name init => (.binder, name) :: init.texts
  | .namespace _ name body => (.binder, name) :: Decl.textsOfAll body

/-- The texts inside declarations. -/
def Decl.textsOfAll : List Decl → List (Place × String)
  | [] => []
  | d :: rest => d.texts ++ Decl.textsOfAll rest

end

/-- The texts inside a module. -/
def Module.texts (m : Module) : List (Place × String) := Decl.textsOfAll m.decls

theorem Ty.textsOfAll_eq (ts : List Ty) : textsOfAll ts = ts.flatMap texts := by
  induction ts with
  | nil => rfl
  | cons t rest ih => simp [textsOfAll, ih]

theorem Ty.textsOfFields_eq (fields : List (String × Ty)) :
    textsOfFields fields = fields.flatMap fun f => (.key, f.1) :: f.2.texts := by
  induction fields with
  | nil => rfl
  | cons field rest ih => simp [textsOfFields, ih]

theorem Param.textsOfAll_eq (ps : List Param) : textsOfAll ps = ps.flatMap texts := by
  induction ps with
  | nil => rfl
  | cons p rest ih => simp [textsOfAll, ih]

theorem Expr.textsOfAll_eq (es : List Expr) : textsOfAll es = es.flatMap texts := by
  induction es with
  | nil => rfl
  | cons e rest ih => simp [textsOfAll, ih]

theorem Expr.textsOfEntries_eq (entries : List (String × Expr)) :
    textsOfEntries entries = entries.flatMap fun e => (.key, e.1) :: e.2.texts := by
  induction entries with
  | nil => rfl
  | cons entry rest ih => simp [textsOfEntries, ih]

theorem Stmt.textsOfAll_eq (body : List Stmt) : textsOfAll body = body.flatMap texts := by
  induction body with
  | nil => rfl
  | cons s rest ih => simp [textsOfAll, ih]

theorem Decl.textsOfAll_eq (ds : List Decl) : textsOfAll ds = ds.flatMap texts := by
  induction ds with
  | nil => rfl
  | cons d rest ih => simp [textsOfAll, ih]

/-- Every text is one that its place admits. -/
def Admissible (texts : List (Place × String)) : Prop :=
  ∀ x ∈ texts, x.1.admits x.2 = true

instance (texts : List (Place × String)) : Decidable (Admissible texts) := by
  unfold Admissible
  infer_instance

@[simp]
theorem admissible_nil : Admissible [] := by simp [Admissible]

@[simp]
theorem admissible_cons {x : Place × String} {texts : List (Place × String)} :
    Admissible (x :: texts) ↔ x.1.admits x.2 = true ∧ Admissible texts :=
  List.forall_mem_cons

@[simp]
theorem admissible_append {texts others : List (Place × String)} :
    Admissible (texts ++ others) ↔ Admissible texts ∧ Admissible others :=
  List.forall_mem_append

@[simp]
theorem admissible_flatMap {α : Type} {items : List α} {f : α → List (Place × String)} :
    Admissible (items.flatMap f) ↔ ∀ a ∈ items, Admissible (f a) :=
  List.forall_mem_flatMap

end AbiBindings.Script
