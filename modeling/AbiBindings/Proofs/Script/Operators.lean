import AbiBindings.Proofs.Script.Levels
import AbiBindings.Script.Printer

/-!
# Operators and their operands

Where an operand needs parentheses is decided from the operator and the
operand alone, without a look at what stands around.  Whether that is enough
is a matter of the grammar, which has a level for each operator: an operand of
one level is made of the operators of that level and of tighter ones, and the
left operand of an operator may have its own level again (`Reads`).

Two facts make a text of the grammar unambiguous.  At its top level a text of
some level holds no operator that binds weaker (`Expr.Reads.rank_le`), so an
operator is the last one of the weakest that stand there; and where there is
none, the first and the last tree tell which rule was used (`Root.formOf_eq`).
Together they leave one reading of a text (`Reads.unique`), and the printer
writes every expression as a text of its level (`isWritten`).
-/

namespace AbiBindings.Script

/-- Expressions that are made of names, literals, `undefined`, `this`, property
accesses, calls without type arguments, arrays, `typeof` and the binary
operators. -/
inductive Expr.Operational : Expr → Prop
  | ident {name : String} (hname : isIdentifier name = true) : Operational (.ident name)
  | str (value : String) : Operational (.str value)
  | undefined : Operational .undefined
  | this : Operational .this
  | array {items : List Expr} (hitems : ∀ e ∈ items, Operational e) : Operational (.array items)
  | prop {object : Expr} {name : String} (hobject : Operational object)
      (hname : isWord name.toList = true) : Operational (.prop object name)
  | call {callee : Expr} {args : List Expr} (hcallee : Operational callee)
      (hargs : ∀ e ∈ args, Operational e) : Operational (.call callee [] args)
  | binary {left right : Expr} (op : BinaryOp) (hleft : Operational left)
      (hright : Operational right) : Operational (.binary left op right)
  | typeOf {operand : Expr} (hoperand : Operational operand) : Operational (.typeOf operand)

/-- The level of an operator in the grammar: 1 for `||`, 2 for `&&`, 3 for
strict equality and 4 for `+`.  Level 5 is that of `typeof`, level 6 that of
property accesses and calls, and level 7 that of what stands by itself. -/
def BinaryOp.rank : BinaryOp → Nat
  | .or => 1
  | .and => 2
  | .strictEq | .strictNe => 3
  | .plus => 4

theorem BinaryOp.one_le_rank (op : BinaryOp) : 1 ≤ op.rank := by
  cases op <;> decide

/-- The printer's numbers are the levels of the grammar. -/
theorem BinaryOp.precedence_eq_rank (op : BinaryOp) : op.precedence = op.rank := by
  cases op <;> rfl

namespace Expr

/-- Tokens that are an expression of their own. -/
inductive Names : Token → Expr → Prop
  | ident {name : String} (hname : isIdentifier name = true) : Names (.word name) (.ident name)
  | str (value : String) : Names (.quoted value) (.str value)
  | undefined : Names (.word "undefined") .undefined
  | this : Names (.word "this") .this

/-- The grammar of expressions: the trees are an expression of that level or of
a tighter one.  All operators associate to the left. -/
inductive Reads : Nat → List Tree → Expr → Prop
  | name {t : Token} {e : Expr} (h : Names t e) : Reads 7 [.leaf t] e
  | array {items : List (List Tree × Expr)} (hitems : ∀ x ∈ items, Reads 1 x.1 x.2) :
      Reads 7 [.group .square (commas (items.map Prod.fst))] (.array (items.map Prod.snd))
  | paren {ts : List Tree} {e : Expr} (h : Reads 1 ts e) : Reads 7 [.group .paren ts] e
  | prop {ts : List Tree} {object : Expr} {name : String} (hobject : Reads 6 ts object)
      (hname : isWord name.toList = true) :
      Reads 6 (ts ++ [.leaf (.mark .dot), .leaf (.word name)]) (.prop object name)
  | call {ts : List Tree} {callee : Expr} {args : List (List Tree × Expr)}
      (hcallee : Reads 6 ts callee) (hargs : ∀ x ∈ args, Reads 1 x.1 x.2) :
      Reads 6 (ts ++ [.group .paren (commas (args.map Prod.fst))])
        (.call callee [] (args.map Prod.snd))
  | typeOf {ts : List Tree} {operand : Expr} (hoperand : Reads 5 ts operand) :
      Reads 5 (.leaf (.word "typeof") :: ts) (.typeOf operand)
  | binary {ls rs : List Tree} {left right : Expr} (op : BinaryOp) (hleft : Reads op.rank ls left)
      (hright : Reads (op.rank + 1) rs right) :
      Reads op.rank (ls ++ .leaf (.mark op.mark) :: rs) (.binary left op right)
  | tighter {r : Nat} {ts : List Tree} {e : Expr} (h : Reads (r + 1) ts e) : Reads r ts e

/-- The text is an expression of the grammar. -/
def IsReadFrom (text : String) (e : Expr) : Prop :=
  ∃ trees, Forest.read? text = some trees ∧ Reads 1 trees e

/-- The rule at the top of an expression of the grammar. -/
inductive Form where
  | name | array | paren | prop | call | typeOf | binary

/-- The trees are an expression by that rule. -/
def Root : Form → List Tree → Expr → Prop
  | .name, ts, e => ∃ t, ts = [.leaf t] ∧ Names t e
  | .array, ts, e =>
      ∃ items : List (List Tree × Expr), ts = [.group .square (commas (items.map Prod.fst))] ∧
        e = .array (items.map Prod.snd) ∧ ∀ x ∈ items, Reads 1 x.1 x.2
  | .paren, ts, e => ∃ inside, ts = [.group .paren inside] ∧ Reads 1 inside e
  | .prop, ts, e =>
      ∃ front object name, ts = front ++ [.leaf (.mark .dot), .leaf (.word name)] ∧
        e = .prop object name ∧ Reads 6 front object
  | .call, ts, e =>
      ∃ front callee, ∃ args : List (List Tree × Expr),
        ts = front ++ [.group .paren (commas (args.map Prod.fst))] ∧
        e = .call callee [] (args.map Prod.snd) ∧ Reads 6 front callee ∧
        ∀ x ∈ args, Reads 1 x.1 x.2
  | .typeOf, ts, e =>
      ∃ behind operand, ts = .leaf (.word "typeof") :: behind ∧ e = .typeOf operand ∧
        Reads 5 behind operand
  | .binary, ts, e =>
      ∃ ls rs left op right, ts = ls ++ .leaf (.mark (BinaryOp.mark op)) :: rs ∧
        e = .binary left op right ∧ Reads op.rank ls left ∧ Reads (op.rank + 1) rs right

end Expr

namespace Tree

/-- Whether the tree is a binary operator. -/
def isOperator : Tree → Bool
  | .leaf (.mark .plus) | .leaf (.mark .strictEq) | .leaf (.mark .strictNe)
  | .leaf (.mark .and) | .leaf (.mark .or) => true
  | _ => false

theorem isOperator_iff {t : Tree} :
    t.isOperator = true ↔ ∃ op : BinaryOp, t = .leaf (.mark op.mark) := by
  constructor
  · intro h
    unfold isOperator at h
    split at h
    · exact ⟨.plus, rfl⟩
    · exact ⟨.strictEq, rfl⟩
    · exact ⟨.strictNe, rfl⟩
    · exact ⟨.and, rfl⟩
    · exact ⟨.or, rfl⟩
    · cases h
  · rintro ⟨op, rfl⟩
    cases op <;> rfl

/-- Whether the tree is the word `typeof`. -/
def isTypeOf : Tree → Bool
  | .leaf (.word s) => s == "typeof"
  | _ => false

end Tree

namespace Expr

/-- The rule that the trees tell. -/
def formOf (ts : List Tree) : Form :=
  if ts.any Tree.isOperator then .binary
  else if ts.head?.any Tree.isTypeOf then .typeOf
  else
    match ts.reverse with
    | [.leaf _] => .name
    | [.group .square _] => .array
    | [.group _ _] => .paren
    | .leaf _ :: _ => .prop
    | _ => .call

namespace Reads

variable {r : Nat} {ts : List Tree} {e : Expr}

/-- Every expression has a rule at the top. -/
theorem root (h : Reads r ts e) : ∃ form, Root form ts e := by
  induction h with
  | name hname => exact ⟨.name, _, rfl, hname⟩
  | array hitems => exact ⟨.array, _, rfl, rfl, hitems⟩
  | paren h => exact ⟨.paren, _, rfl, h⟩
  | prop hobject hname => exact ⟨.prop, _, _, _, rfl, rfl, hobject⟩
  | call hcallee hargs => exact ⟨.call, _, _, _, rfl, rfl, hcallee, hargs⟩
  | typeOf hoperand => exact ⟨.typeOf, _, _, rfl, rfl, hoperand⟩
  | binary op hleft hright => exact ⟨.binary, _, _, _, op, _, rfl, rfl, hleft, hright⟩
  | tighter _ ih => exact ih

theorem ne_nil (h : Reads r ts e) : ts ≠ [] := by
  induction h with
  | tighter _ ih => exact ih
  | _ => simp

/-- A separator of parts stands in no expression. -/
theorem comma_not_mem (h : Reads r ts e) : Tree.leaf (.mark .comma) ∉ ts := by
  induction h with
  | name hname => cases hname <;> simp
  | array | paren => simp
  | prop _ _ ih => simpa using ih
  | call _ _ ih => simpa using ih
  | typeOf _ ih => simpa using ih
  | binary op _ _ ihLeft ihRight =>
      cases op <;> simpa [BinaryOp.mark] using ⟨ihLeft, ihRight⟩
  | tighter _ ih => exact ih

/-- The grammar is one in levels. -/
theorem leveled : Leveled Reads 7 := ⟨.tighter, .paren, ne_nil, comma_not_mem⟩

/-- An operator of an expression is of its level or a tighter one. -/
theorem rank_le (h : Reads r ts e) {op : BinaryOp} (hop : .leaf (.mark op.mark) ∈ ts) :
    r ≤ op.rank := by
  induction h with
  | name hname => cases hname <;> simp at hop
  | array | paren => simp at hop
  | prop _ _ ih =>
      refine ih ?_
      cases op <;> simpa [BinaryOp.mark] using hop
  | call _ _ ih => exact ih (by simpa using hop)
  | typeOf _ ih => exact ih (by simpa using hop)
  | @binary ls rs left right op' _ _ ihLeft ihRight =>
      rw [List.mem_append, List.mem_cons] at hop
      rcases hop with hleft | hhere | hright
      · exact ihLeft hleft
      · cases op <;> cases op' <;> simp_all [BinaryOp.mark, BinaryOp.rank]
      · exact Nat.le_of_succ_le (ihRight hright)
  | tighter _ ih => exact Nat.le_of_succ_le (ih hop)

/-- What is of the level of `typeof` or tighter holds no operator. -/
theorem not_isOperator (h : Reads r ts e) (hr : 5 ≤ r) : ts.any Tree.isOperator = false := by
  rw [List.any_eq_false]
  intro t ht hop
  obtain ⟨op, rfl⟩ := Tree.isOperator_iff.mp hop
  have hrank := h.rank_le ht
  cases op <;> simp [BinaryOp.rank] at hrank <;> omega

/-- What is tighter than `typeof` does not start with the word. -/
theorem head_ne_typeOf (h : Reads r ts e) (hr : 6 ≤ r) : ts.head?.any Tree.isTypeOf = false := by
  have hfront : ∀ {ts us : List Tree}, ts ≠ [] → ts.head?.any Tree.isTypeOf = false →
      (ts ++ us).head?.any Tree.isTypeOf = false := by
    intro ts us hne hhead
    rwa [List.head?_append_of_ne_nil _ hne]
  induction h with
  | name hname =>
      cases hname with
      | @ident name hname =>
          have hne : name ≠ "typeof" := by
            rintro rfl
            exact absurd hname (by decide)
          simpa [Tree.isTypeOf] using hne
      | _ => rfl
  | array | paren => rfl
  | prop hobject _ ih => exact hfront hobject.ne_nil (ih hr)
  | call hcallee _ ih => exact hfront hcallee.ne_nil (ih hr)
  | typeOf => omega
  | binary op => cases op <;> simp [BinaryOp.rank] at hr
  | tighter _ ih => exact ih (Nat.le_succ_of_le hr)

end Reads

/-- The trees tell the rule at the top. -/
theorem Root.formOf_eq {form : Form} {ts : List Tree} {e : Expr} (h : Root form ts e) :
    formOf ts = form := by
  cases form with
  | name =>
      obtain ⟨t, rfl, hname⟩ := h
      have hhead := (Reads.name hname).head_ne_typeOf (by decide)
      have hop := (Reads.name hname).not_isOperator (by decide)
      simp only [formOf, hop, hhead]
      rfl
  | array =>
      obtain ⟨items, rfl, -, -⟩ := h
      rfl
  | paren =>
      obtain ⟨inside, rfl, -⟩ := h
      rfl
  | prop =>
      obtain ⟨front, object, name, rfl, -, hobject⟩ := h
      have hhead := hobject.head_ne_typeOf (Nat.le_refl _)
      have hop := hobject.not_isOperator (by decide)
      simp [formOf, List.head?_append_of_ne_nil _ hobject.ne_nil, hhead, hop, Tree.isOperator]
  | call =>
      obtain ⟨front, callee, args, rfl, -, hcallee, -⟩ := h
      have hhead := hcallee.head_ne_typeOf (Nat.le_refl _)
      have hop := hcallee.not_isOperator (by decide)
      obtain ⟨t, rest, hrest⟩ :=
        List.exists_cons_of_ne_nil (List.reverse_ne_nil_iff.mpr hcallee.ne_nil)
      simp [formOf, List.head?_append_of_ne_nil _ hcallee.ne_nil, hhead, hop, Tree.isOperator,
        hrest]
  | typeOf =>
      obtain ⟨behind, operand, rfl, -, hoperand⟩ := h
      have hop := hoperand.not_isOperator (Nat.le_refl _)
      simp [formOf, hop, Tree.isOperator, Tree.isTypeOf]
  | binary =>
      obtain ⟨ls, rs, left, op, right, rfl, -⟩ := h
      have hop : Tree.isOperator (.leaf (.mark op.mark)) = true :=
        Tree.isOperator_iff.mpr ⟨op, rfl⟩
      simp [formOf, hop]

theorem Names.unique {t t' : Token} {e e' : Expr} (h : Names t e) (h' : Names t' e')
    (heq : t = t') : e = e' := by
  -- no identifier is a keyword, and the keywords differ
  cases h <;> cases h' <;> first
    | (cases heq; rfl)
    | (cases heq; exact absurd ‹isIdentifier _ = true› (by decide))
    | exact absurd heq (by simp)

namespace Reads

variable {r s : Nat} {ts : List Tree} {e e' : Expr}

/-- Two readings of the same trees have the same rule at the top. -/
theorem root_of (form : Form) (h : Reads s ts e') (hroot : Root form ts e) : Root form ts e' := by
  obtain ⟨form', hroot'⟩ := h.root
  rwa [← hroot.formOf_eq, hroot'.formOf_eq]

/-- **The grammar is unambiguous.**  The trees are an expression in one way
only.  The induction is on the first of two readings; the trees tell the rule
at the top, and with it where the parts are. -/
theorem unique (h : Reads r ts e) (h' : Reads s ts e') : e = e' := by
  induction h generalizing s e' with
  | name hname =>
      obtain ⟨t, heq, hname'⟩ := h'.root_of .name ⟨_, rfl, hname⟩
      injection heq with heq
      injection heq with heq
      exact hname.unique hname' heq
  | array hitems ih =>
      obtain ⟨items, heq, rfl, hitems'⟩ := h'.root_of .array ⟨_, rfl, rfl, hitems⟩
      injection heq with heq
      injection heq with _ heq
      rw [leveled.commas_unique hitems hitems' ih heq]
  | paren h ih =>
      obtain ⟨inside, heq, hinside⟩ := h'.root_of .paren ⟨_, rfl, h⟩
      cases heq
      exact ih hinside
  | prop hobject hname ih =>
      obtain ⟨front, object, name, heq, rfl, hobject'⟩ :=
        h'.root_of .prop ⟨_, _, _, rfl, rfl, hobject⟩
      obtain ⟨rfl, hname⟩ := List.append_inj' heq rfl
      cases hname
      rw [ih hobject']
  | call hcallee hargs ihCallee ihArgs =>
      obtain ⟨front, callee, args, heq, rfl, hcallee', hargs'⟩ :=
        h'.root_of .call ⟨_, _, _, rfl, rfl, hcallee, hargs⟩
      obtain ⟨rfl, hlast⟩ := List.append_inj' heq rfl
      injection hlast with hlast
      injection hlast with _ hlast
      rw [ihCallee hcallee', leveled.commas_unique hargs hargs' ihArgs hlast]
  | typeOf hoperand ih =>
      obtain ⟨behind, operand, heq, rfl, hoperand'⟩ :=
        h'.root_of .typeOf ⟨_, _, rfl, rfl, hoperand⟩
      cases heq
      rw [ih hoperand']
  | @binary ls rs left right op hleft hright ihLeft ihRight =>
      obtain ⟨ls', rs', left', op', right', heq, rfl, hleft', hright'⟩ :=
        h'.root_of .binary ⟨_, _, _, _, _, rfl, rfl, hleft, hright⟩
      -- both operators are one of the weakest, so each of them is the last one of its level
      have hle : op.rank ≤ op'.rank :=
        (Reads.binary op hleft hright).rank_le (heq ▸ by simp)
      have hge : op'.rank ≤ op.rank :=
        (Reads.binary op' hleft' hright').rank_le (heq ▸ by simp)
      obtain ⟨rfl, hop, rfl⟩ := append_cons_inj_last
        (fun t => ∃ o : BinaryOp, t = .leaf (.mark o.mark) ∧ o.rank = op.rank)
        (fun t ht ⟨o, ho, hrank⟩ => by
          have := hright.rank_le (ho ▸ ht)
          omega)
        (fun t ht ⟨o, ho, hrank⟩ => by
          have := hright'.rank_le (ho ▸ ht)
          omega)
        ⟨op, rfl, rfl⟩ ⟨op', rfl, Nat.le_antisymm hge hle⟩ heq
      have hmark : op = op' := by
        cases op <;> cases op' <;> first | rfl | cases hop
      subst hmark
      rw [ihLeft hleft', ihRight hright']
  | tighter _ ih => exact ih h'

end Reads

/-- The level of an expression in the grammar. -/
def rank : Expr → Nat
  | .binary _ op _ => op.rank
  | .typeOf _ => 5
  | .prop .. | .call .. => 6
  | _ => 7

theorem one_le_rank (e : Expr) : 1 ≤ e.rank := by
  cases e with
  | binary _ op _ => exact op.one_le_rank
  | _ => simp [rank]

/-- An operand without parentheses binds as tight as its place asks for. -/
theorem six_le_rank {e : Expr} (he : e.Operational) (h : e.isLoose = false) : 6 ≤ e.rank := by
  cases he <;> simp_all [isLoose, rank]

/-- An operand without parentheses beside an operator binds tighter, or on the
left as tight. -/
theorem rank_le_rank {e : Expr} (he : e.Operational) {op : BinaryOp} {onRight : Bool}
    (h : e.isLooseBeside op onRight = false) :
    op.rank + (if onRight then 1 else 0) ≤ e.rank := by
  cases he with
  | binary inner =>
      simp only [isLooseBeside, BinaryOp.precedence_eq_rank, rank, Bool.or_eq_false_iff] at h ⊢
      cases onRight
      · simp_all
      · simp_all
        omega
  | _ => cases op <;> cases onRight <;> simp [rank, BinaryOp.rank]

theorem exprParts_eq (level : Nat) (es : List Expr) :
    exprParts level es = es.map (Expr.tokens level) := by
  induction es with
  | nil => rfl
  | cons e rest ih => rw [exprParts, ih, List.map_cons]

section Writing

variable {width level : Nat} {e : Expr} {ts : List Token}

/-- Expressions that are written can be listed with the trees of their texts. -/
theorem exists_commas {es : List Expr}
    (h : ∀ e ∈ es, IsWritten Reads width e.rank e (e.tokens level)) :
    ∃ items : List (List Tree × Expr), items.map Prod.snd = es ∧
      (∀ x ∈ items, Reads 1 x.1 x.2) ∧
      ∀ next, WordEnds next → Prints width next (Token.commaSeparated (exprParts level es))
        (commas (items.map Prod.fst)) := by
  rw [exprParts_eq]
  exact IsWritten.exists_commas fun e he => (h e he).weaken Reads.leveled e.one_le_rank

/-- **Step.**  A member of an expression is written behind its operand. -/
theorem isWritten_prop {name : String} (h : IsWritten Reads width 6 e ts)
    (hname : isWord name.toList = true) :
    IsWritten Reads width 6 (.prop e name) (ts ++ [.mark .dot, .word name]) := by
  obtain ⟨trees, hreads, hprints⟩ := h
  exact ⟨_, hreads.prop hname, fun _ => Prints.member hprints hname⟩

/-- **Step.**  Arguments are written behind the callee. -/
theorem isWritten_call {args : List Expr} (h : IsWritten Reads width 6 e ts)
    (hargs : ∀ e ∈ args, IsWritten Reads width e.rank e (e.tokens level)) :
    IsWritten Reads width 6 (.call e [] args)
      (ts ++ Token.parenthesised (Token.commaSeparated (exprParts level args))) := by
  obtain ⟨trees, hreads, hprints⟩ := h
  obtain ⟨items, rfl, hitems, hinside⟩ := exists_commas hargs
  exact ⟨_, hreads.call hitems, fun _ _ => Prints.arguments hprints hinside⟩

/-- **Step.**  An operator is written between its operands. -/
theorem isWritten_binary {op : BinaryOp} {left right : Expr} {ls rs : List Token}
    (hleft : IsWritten Reads width op.rank left ls)
    (hright : IsWritten Reads width (op.rank + 1) right rs) :
    IsWritten Reads width op.rank (.binary left op right)
      (ls ++ [.space, .mark op.mark, .space] ++ rs) := by
  obtain ⟨leftTrees, hreadsLeft, hprintsLeft⟩ := hleft
  obtain ⟨rightTrees, hreadsRight, hprintsRight⟩ := hright
  refine ⟨_, .binary op hreadsLeft hreadsRight, fun next hnext => ?_⟩
  have hop : ∀ next, Prints width next [.space, .mark op.mark, .space] [.leaf (.mark op.mark)] :=
    fun _ => Prints.markBetweenSpaces (by cases op <;> rfl)
  rw [List.append_assoc]
  refine Prints.append ?_ ((hop _).append (hprintsRight next hnext))
  rw [List.cons_append, Token.start_space]
  exact hprintsLeft _ (wordEnds_some (by decide))

theorem isWritten_typeOf (h : IsWritten Reads width 5 e ts) :
    IsWritten Reads width 5 (.typeOf e) ([.word "typeof", .space] ++ ts) := by
  obtain ⟨trees, hreads, hprints⟩ := h
  exact ⟨_, hreads.typeOf, fun next hnext =>
    Prints.append (.wordAndSpace (by decide)) (hprints next hnext)⟩

/-- **Printing.**  An expression is written as a text of its level.  The
induction is on the expression; each operand has parentheses unless it is of
the level that its place asks for. -/
theorem isWritten (h : e.Operational) : IsWritten Reads width e.rank e (e.tokens level) := by
  induction h with
  | ident hname =>
      exact ⟨_, .name (.ident hname), fun _ => Prints.word (isIdentifier_iff.mp hname).1⟩
  | str value => exact ⟨_, .name (.str value), fun _ _ => Prints.quoted value⟩
  | undefined => exact ⟨_, .name .undefined, fun _ => Prints.word (by decide)⟩
  | this => exact ⟨_, .name .this, fun _ => Prints.word (by decide)⟩
  | array _ ih =>
      obtain ⟨items, rfl, hitems, hinside⟩ := exists_commas ih
      exact ⟨_, .array hitems, fun _ _ => (hinside _ (wordEnds_some (by decide))).bracketed⟩
  | @prop object name hobject hname ih =>
      rw [Expr.tokens]
      exact isWritten_prop
        (ih.operand Reads.leveled object.one_le_rank (by decide) (six_le_rank hobject)) hname
  | @call callee args hcallee _ ih ihArgs =>
      rw [Expr.tokens, tyParts, Token.angled, List.isEmpty_nil, if_pos rfl, List.append_nil]
      exact isWritten_call
        (ih.operand Reads.leveled callee.one_le_rank (by decide) (six_le_rank hcallee)) ihArgs
  | @binary left right op hleft hright ihLeft ihRight =>
      have hop : op.rank + 1 ≤ 7 := by cases op <;> decide
      exact isWritten_binary
        (ihLeft.operand Reads.leveled left.one_le_rank (by omega) (rank_le_rank hleft))
        (ihRight.operand Reads.leveled right.one_le_rank hop (rank_le_rank hright))
  | @typeOf operand hoperand ih =>
      exact isWritten_typeOf (ih.operand Reads.leveled operand.one_le_rank (by decide) fun htight =>
        Nat.le_of_succ_le (six_le_rank hoperand htight))

end Writing

/-- **Operators.**  Whatever is read from the text of an expression by the
grammar is the expression that was printed, and it can be read. -/
theorem isReadFrom_render_iff (width level : Nat) (e : Expr) (h : e.Operational) (e' : Expr) :
    IsReadFrom (Token.render width (e.tokens level)) e' ↔ e' = e := by
  have hwritten : IsWritten Reads width 1 e (e.tokens level) :=
    (isWritten h).weaken Reads.leveled e.one_le_rank
  exact hwritten.read_iff (fun hreads hreads' => hreads.unique hreads') e'

/-- A test of every kind of operand, some of which need parentheses. -/
def sampleTest : Expr :=
  .binary
    (.binary (.typeOf (.prop (.binary (.ident "a") .or (.ident "b")) "kind")) .strictEq
      (.binary (.str "f") .plus (.binary (.str "n") .plus .undefined)))
    .and
    (.call (.prop .this "run") [] [.array [.typeOf (.typeOf (.ident "a"))], .array []])

theorem isReadFrom_render_iff_sampleTest :
    sampleTest.Operational ∧
      Token.render 4 (sampleTest.tokens 0) =
        "typeof (a || b).kind === \"f\" + (\"n\" + undefined) && this.run([typeof (typeof a)], [])" ∧
      ∀ e', IsReadFrom (Token.render 4 (sampleTest.tokens 0)) e' ↔ e' = sampleTest := by
  have hkind : Operational (.typeOf (.prop (.binary (.ident "a") .or (.ident "b")) "kind")) :=
    .typeOf (.prop (.binary _ (.ident (by decide)) (.ident (by decide))) (by decide))
  have hname : Operational (.binary (.str "f") .plus (.binary (.str "n") .plus .undefined)) :=
    .binary _ (.str _) (.binary _ (.str _) .undefined)
  have hargs : ∀ e ∈ [.array [.typeOf (.typeOf (.ident "a"))], .array []], Operational e := by
    have hnested : Operational (.array [.typeOf (.typeOf (.ident "a"))]) :=
      .array (List.forall_mem_singleton.mpr (.typeOf (.typeOf (.ident (by decide)))))
    exact List.forall_mem_cons.mpr ⟨hnested, List.forall_mem_singleton.mpr (.array (by simp))⟩
  have hoperational : sampleTest.Operational :=
    .binary _ (.binary _ hkind hname) (.call (.prop .this (by decide)) hargs)
  exact ⟨hoperational, rfl, isReadFrom_render_iff 4 0 sampleTest hoperational⟩

end Expr

end AbiBindings.Script
