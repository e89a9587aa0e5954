import AbiBindings.Proofs.Script.Nodes

/-!
# Names in scope

A function binds its parameters, and a block binds its constants, in all of
the block.  The *free* names of a piece of code are the ones that it uses and
that nothing inside of it binds (`Expr.free`, `blockFree`); what the code
means depends on what these stand for where it is put.  Property names and
the keys of objects are no uses of a name, and type annotations are passed
over, since they bind and use types only.
-/

namespace AbiBindings.Script

/-- The names of constants that a statement binds in the block around it. -/
@[simp]
def Stmt.bound : Stmt → List String
  | .const name _ => [name]
  | .constArray names _ => names
  | _ => []

/-- The names that are not bound by `names`. -/
def outside (names used : List String) : List String :=
  used.filter fun name => !names.contains name

@[simp]
theorem mem_outside {names used : List String} {name : String} :
    name ∈ outside names used ↔ name ∈ used ∧ name ∉ names := by
  simp [outside]

mutual

/-- The names that an expression uses and does not bind, in the order in which
they are used. -/
@[simp]
def Expr.free : Expr → List String
  | .ident name => [name]
  | .str _ | .num _ | .undefined | .this => []
  | .array items => Expr.freeOfAll items
  | .object entries => Expr.freeOfEntries entries
  | .prop object _ => object.free
  | .call callee _ args | .new callee _ args => callee.free ++ Expr.freeOfAll args
  | .binary left _ right => left.free ++ right.free
  | .typeOf operand => operand.free
  | .assign target value => target.free ++ value.free
  | .arrow _ params _ body =>
      outside (params.map Param.name)
        (Param.freeOfAll params ++ outside (body.flatMap Stmt.bound) (Stmt.freeOfAll body))

/-- The names that expressions use and do not bind. -/
@[simp]
def Expr.freeOfAll : List Expr → List String
  | [] => []
  | e :: rest => e.free ++ Expr.freeOfAll rest

/-- The names that the entries of an object literal use and do not bind. -/
@[simp]
def Expr.freeOfEntries : List (String × Expr) → List String
  | [] => []
  | (_, e) :: rest => e.free ++ Expr.freeOfEntries rest

/-- The names that an expression that may be missing uses and does not bind. -/
@[simp]
def Expr.freeOfOption : Option Expr → List String
  | none => []
  | some e => e.free

/-- The names that the default value of a parameter uses and does not bind. -/
@[simp]
def Param.free : Param → List String
  | { default, .. } => Expr.freeOfOption default

/-- The names that the default values of parameters use and do not bind. -/
@[simp]
def Param.freeOfAll : List Param → List String
  | [] => []
  | p :: rest => p.free ++ Param.freeOfAll rest

/-- The names that a statement uses and does not bind, those of its own
constants among them. -/
@[simp]
def Stmt.free : Stmt → List String
  | .const _ init | .constArray _ init => init.free
  | .expr e => e.free
  | .ret value => Expr.freeOfOption value
  | .cond test thenBody elseBody =>
      test.free ++
        (outside (thenBody.flatMap Stmt.bound) (Stmt.freeOfAll thenBody) ++
          outside (elseBody.flatMap Stmt.bound) (Stmt.freeOfAll elseBody))
  | .throw value => value.free

/-- The names that statements use and none of them binds inside of itself. -/
@[simp]
def Stmt.freeOfAll : List Stmt → List String
  | [] => []
  | s :: rest => s.free ++ Stmt.freeOfAll rest

end

/-- The constants that a block binds. -/
def blockBound (body : List Stmt) : List String := body.flatMap Stmt.bound

/-- The free names of a block. -/
def blockFree (body : List Stmt) : List String :=
  outside (blockBound body) (Stmt.freeOfAll body)

/-- The free names of a function. -/
def functionFree (params : List Param) (body : List Stmt) : List String :=
  outside (params.map Param.name) (Param.freeOfAll params ++ blockFree body)

/-- The free names of a member of a class. -/
def Member.free : Member → List String
  | .property _ _ _ => []
  | .constructor params body | .method _ _ params _ body => functionFree params body

/-- The values that a declaration binds where it stands; an interface is no
value. -/
def Decl.values : Decl → List String
  | .imports names _ => names
  | .interface _ _ _ _ => []
  | .class _ name _ _ | .function _ name _ _ _ _ | .const _ name _ | .namespace _ name _ => [name]

mutual

/-- The free names of a declaration, apart from the ones that the
declarations of a namespace bind for each other. -/
def Decl.free : Decl → List String
  | .imports _ _ | .interface _ _ _ _ => []
  | .class _ _ _ members => members.flatMap Member.free
  | .function _ _ _ params _ body => functionFree params body
  | .const _ _ init => init.free
  | .namespace _ _ body => outside (body.flatMap Decl.values) (Decl.freeOfAll body)

/-- The free names of declarations that stand one after the other. -/
def Decl.freeOfAll : List Decl → List String
  | [] => []
  | d :: rest => d.free ++ Decl.freeOfAll rest

end

theorem Expr.freeOfAll_eq (es : List Expr) : freeOfAll es = es.flatMap free := by
  induction es with
  | nil => rfl
  | cons e rest ih => simp [freeOfAll, ih]

theorem Expr.freeOfEntries_eq (entries : List (String × Expr)) :
    freeOfEntries entries = entries.flatMap fun entry => entry.2.free := by
  induction entries with
  | nil => rfl
  | cons entry rest ih => simp [freeOfEntries, ih]

theorem Stmt.freeOfAll_eq (body : List Stmt) : freeOfAll body = body.flatMap free := by
  induction body with
  | nil => rfl
  | cons s rest ih => simp [freeOfAll, ih]

theorem Decl.freeOfAll_eq (ds : List Decl) : freeOfAll ds = ds.flatMap free := by
  induction ds with
  | nil => rfl
  | cons d rest ih => simp [freeOfAll, ih]

/-- Parameters without default values use no names. -/
theorem Param.freeOfAll_eq_nil {params : List Param} (h : ∀ p ∈ params, p.default = none) :
    freeOfAll params = [] := by
  induction params with
  | nil => rfl
  | cons p rest ih =>
      obtain ⟨hp, hrest⟩ := List.forall_mem_cons.mp h
      obtain ⟨name, ty, optional, collects, default⟩ := p
      obtain rfl : default = none := hp
      simp [ih hrest]

/-- Joined expressions use the names of their parts. -/
theorem Expr.free_joined {op : BinaryOp} {es : List Expr} {e : Expr}
    (h : joined? op es = some e) : e.free = es.flatMap free :=
  eq_flatMap_of_joined (fun left right => by rw [free]) h

end AbiBindings.Script
