import AbiBindings.Script.Build

/-!
# The expressions inside generated code

What a piece of code calls is read off its tree: `Expr.nodes` lists an
expression and all expressions inside it, in the order in which they begin in
the text, and goes into the default values of parameters and into the bodies
of functions.  Type annotations compute nothing and are passed over.  Lists
of expressions, entries and statements have the nodes of their items one
after the other (`nodesOfAll_eq`, `nodesOfEntries_eq`, `Stmt.nodesOfAll_eq`).
-/

namespace AbiBindings.Script

mutual

/-- An expression and all expressions inside it. -/
def Expr.nodes : Expr → List Expr
  | .ident name => [.ident name]
  | .str value => [.str value]
  | .num value => [.num value]
  | .undefined => [.undefined]
  | .this => [.this]
  | .array items => .array items :: Expr.nodesOfAll items
  | .object entries => .object entries :: Expr.nodesOfEntries entries
  | .prop object name => .prop object name :: object.nodes
  | .call callee typeArgs args =>
      .call callee typeArgs args :: (callee.nodes ++ Expr.nodesOfAll args)
  | .new callee typeArgs args =>
      .new callee typeArgs args :: (callee.nodes ++ Expr.nodesOfAll args)
  | .binary left op right => .binary left op right :: (left.nodes ++ right.nodes)
  | .typeOf operand => .typeOf operand :: operand.nodes
  | .assign target value => .assign target value :: (target.nodes ++ value.nodes)
  | .arrow typeParams params returns body =>
      .arrow typeParams params returns body ::
        (Param.nodesOfAll params ++ Stmt.nodesOfAll body)

/-- The expressions inside expressions that stand one after the other. -/
def Expr.nodesOfAll : List Expr → List Expr
  | [] => []
  | e :: rest => e.nodes ++ Expr.nodesOfAll rest

/-- The expressions inside the entries of an object literal. -/
def Expr.nodesOfEntries : List (String × Expr) → List Expr
  | [] => []
  | (_, e) :: rest => e.nodes ++ Expr.nodesOfEntries rest

/-- The expressions inside an expression that may be missing. -/
def Expr.nodesOfOption : Option Expr → List Expr
  | none => []
  | some e => e.nodes

/-- The expressions inside the default value of a parameter. -/
def Param.nodes : Param → List Expr
  | { default, .. } => Expr.nodesOfOption default

/-- The expressions inside the default values of parameters. -/
def Param.nodesOfAll : List Param → List Expr
  | [] => []
  | p :: rest => p.nodes ++ Param.nodesOfAll rest

/-- The expressions inside a statement. -/
def Stmt.nodes : Stmt → List Expr
  | .const _ init => init.nodes
  | .constArray _ init => init.nodes
  | .expr e => e.nodes
  | .ret value => Expr.nodesOfOption value
  | .cond test thenBody elseBody =>
      test.nodes ++ (Stmt.nodesOfAll thenBody ++ Stmt.nodesOfAll elseBody)
  | .throw value => value.nodes

/-- The expressions inside statements that stand one after the other. -/
def Stmt.nodesOfAll : List Stmt → List Expr
  | [] => []
  | s :: rest => s.nodes ++ Stmt.nodesOfAll rest

end

theorem Expr.nodesOfAll_eq (es : List Expr) : nodesOfAll es = es.flatMap nodes := by
  induction es with
  | nil => rfl
  | cons e rest ih => simp [nodesOfAll, ih]

theorem Expr.nodesOfEntries_eq (entries : List (String × Expr)) :
    nodesOfEntries entries = entries.flatMap fun entry => entry.2.nodes := by
  induction entries with
  | nil => rfl
  | cons entry rest ih => simp [nodesOfEntries, ih]

theorem Stmt.nodesOfAll_eq (body : List Stmt) : nodesOfAll body = body.flatMap nodes := by
  induction body with
  | nil => rfl
  | cons s rest ih => simp [nodesOfAll, ih]

theorem Param.nodes_eq (p : Param) : p.nodes = Expr.nodesOfOption p.default := by
  cases p
  rfl

/-- An expression that has no other expressions inside. -/
def Expr.isLeaf : Expr → Bool
  | .ident _ | .str _ | .num _ | .undefined | .this => true
  | _ => false

theorem Expr.nodes_of_isLeaf {e : Expr} (h : e.isLeaf = true) : e.nodes = [e] := by
  cases e <;> simp_all [isLeaf, nodes]

theorem Expr.nodesOfAll_of_isLeaf {es : List Expr} (h : ∀ e ∈ es, e.isLeaf = true) :
    nodesOfAll es = es := by
  induction es with
  | nil => rfl
  | cons e rest ih =>
      obtain ⟨he, hrest⟩ := List.forall_mem_cons.mp h
      simp [nodesOfAll, nodes_of_isLeaf he, ih hrest]

/-- Parameters without default values have no expressions inside. -/
theorem Param.nodesOfAll_eq_nil {params : List Param}
    (h : ∀ p ∈ params, p.default = none) : nodesOfAll params = [] := by
  induction params with
  | nil => rfl
  | cons p rest ih =>
      obtain ⟨hp, hrest⟩ := List.forall_mem_cons.mp h
      simp [nodesOfAll, nodes_eq, hp, Expr.nodesOfOption, ih hrest]

/-- The expressions inside a member of a class. -/
def Member.nodes : Member → List Expr
  | .property _ _ _ => []
  | .constructor params body => Param.nodesOfAll params ++ Stmt.nodesOfAll body
  | .method _ _ params _ body => Param.nodesOfAll params ++ Stmt.nodesOfAll body

/-- Whether the expression is a function. -/
def Expr.isArrow : Expr → Bool
  | .arrow .. => true
  | _ => false

/-- The functions among expressions. -/
def arrows (nodes : List Expr) : List Expr := nodes.filter Expr.isArrow

theorem arrows_append (xs ys : List Expr) : arrows (xs ++ ys) = arrows xs ++ arrows ys :=
  List.filter_append ..

theorem arrows_eq_nil_iff {es : List Expr} : arrows es = [] ↔ ∀ e ∈ es, e.isArrow = false := by
  simp [arrows, List.filter_eq_nil_iff]

/-- An expression without others inside is no function. -/
theorem arrows_of_isLeaf {es : List Expr} (h : ∀ e ∈ es, e.isLeaf = true) : arrows es = [] := by
  rw [arrows_eq_nil_iff]
  intro e he
  have hleaf := h e he
  cases e <;> simp_all [Expr.isLeaf, Expr.isArrow]

/-- What is appended over the operands of an operator is appended over all
expressions that the operator joins. -/
theorem Expr.eq_flatMap_of_joined {α : Type} {f : Expr → List α} {op : BinaryOp}
    (hbinary : ∀ left right, f (.binary left op right) = f left ++ f right)
    {es : List Expr} {e : Expr} (h : joined? op es = some e) : f e = es.flatMap f := by
  have hfold : ∀ (rest : List Expr) (first : Expr),
      f (rest.foldl (fun acc next => .binary acc op next) first) =
        f first ++ rest.flatMap f := by
    intro rest
    induction rest with
    | nil => simp
    | cons next later ih => simp [ih, hbinary]
  match es with
  | [] => cases h
  | first :: rest =>
      cases h
      exact hfold rest first

/-- Expressions without functions inside have none inside when they are
joined. -/
theorem arrows_joined {op : BinaryOp} {es : List Expr} {e : Expr} (h : Expr.joined? op es = some e)
    (hall : ∀ e ∈ es, arrows e.nodes = []) : arrows e.nodes = [] := by
  have hbinary : ∀ left right : Expr, arrows (Expr.binary left op right).nodes =
      arrows left.nodes ++ arrows right.nodes := by
    intro left right
    rw [Expr.nodes, ← arrows_append]
    rfl
  rw [Expr.eq_flatMap_of_joined (f := fun e => arrows e.nodes) hbinary h,
    List.flatMap_eq_nil_iff]
  exact hall

end AbiBindings.Script
