import AbiBindings.Proofs.Script.Nodes
import AbiBindings.Proofs.Script.Operators

/-!
# Calls, members and `new`

A chain starts with a name or with parentheses, and members and arguments stand
behind it.  A `new` in front of it takes the first arguments that no other
`new` has taken, so what is a callee behind other callees is a class behind
`new` (`Chain.Reads`).  A text has one reading, told by how many `new` stand in
front and how many arguments behind (`Chain.Reads.unique`).

The printer puts a class where it puts a callee, without a look at arguments
in it.  What it prints is read with every such `new` moved inwards
(`Expr.regrouped`), so an expression is read as itself exactly when no class
has a call in its chain (`Chain.reads_back_iff`).
-/

namespace AbiBindings.Script

/-- Expressions that are made of names, property accesses, calls and `new`, both
without type arguments. -/
inductive Expr.Chained : Expr → Prop
  | ident {name : String} (hname : isIdentifier name = true) : Chained (.ident name)
  | prop {object : Expr} {name : String} (hobject : Chained object)
      (hname : isWord name.toList = true) : Chained (.prop object name)
  | call {callee : Expr} {args : List Expr} (hcallee : Chained callee)
      (hargs : ∀ e ∈ args, Chained e) : Chained (.call callee [] args)
  | new {callee : Expr} {args : List Expr} (hcallee : Chained callee)
      (hargs : ∀ e ∈ args, Chained e) : Chained (.new callee [] args)

/-- The tree of the word `new`. -/
def Tree.newWord : Tree := .leaf (.word "new")

/-- Whether the tree is the word `new`. -/
def Tree.isNew : Tree → Bool
  | .leaf (.word s) => s == "new"
  | _ => false

/-- Whether the tree stands in parentheses. -/
def Tree.isParenthesised : Tree → Bool
  | .group .paren _ => true
  | _ => false

namespace Chain

/-- `new` without arguments, `n` times. -/
def bareNews : Nat → Expr → Expr
  | 0, e => e
  | n + 1, e => .new (bareNews n e) [] []

/-- The grammar of chains: the trees are an expression of that level or of a
tighter one.  Level 4 is that of what stands by itself, level 3 that of members
and of `new` with its arguments, level 2 that of calls, and level 1 adds `new`
without arguments. -/
inductive Reads : Nat → List Tree → Expr → Prop
  | name {name : String} (hname : isIdentifier name = true) :
      Reads 4 [.leaf (.word name)] (.ident name)
  | paren {ts : List Tree} {e : Expr} (h : Reads 1 ts e) : Reads 4 [.group .paren ts] e
  | prop {r : Nat} {ts : List Tree} {object : Expr} {name : String} (hr : r = 2 ∨ r = 3)
      (hobject : Reads r ts object) (hname : isWord name.toList = true) :
      Reads r (ts ++ [Tree.leaf (.mark .dot), .leaf (.word name)]) (.prop object name)
  | new {ts : List Tree} {callee : Expr} {args : List (List Tree × Expr)}
      (hcallee : Reads 3 ts callee) (hargs : ∀ x ∈ args, Reads 1 x.1 x.2) :
      Reads 3 (.newWord :: (ts ++ [Tree.group .paren (commas (args.map Prod.fst))]))
        (.new callee [] (args.map Prod.snd))
  | call {ts : List Tree} {callee : Expr} {args : List (List Tree × Expr)}
      (hcallee : Reads 2 ts callee) (hargs : ∀ x ∈ args, Reads 1 x.1 x.2) :
      Reads 2 (ts ++ [Tree.group .paren (commas (args.map Prod.fst))])
        (.call callee [] (args.map Prod.snd))
  | bare (n : Nat) {ts : List Tree} {callee : Expr} (hcallee : Reads 3 ts callee) :
      Reads 1 (List.replicate (n + 1) Tree.newWord ++ ts) (bareNews (n + 1) callee)
  | tighter {r : Nat} {ts : List Tree} {e : Expr} (h : Reads (r + 1) ts e) : Reads r ts e

/-- The text is an expression of the grammar. -/
def IsReadFrom (text : String) (e : Expr) : Prop :=
  ∃ trees, Forest.read? text = some trees ∧ Reads 1 trees e

/-- The number of `new` in front. -/
def news (ts : List Tree) : Nat := (ts.takeWhile Tree.isNew).length

/-- The number of arguments behind what the chain starts with. -/
def argumentLists (ts : List Tree) : Nat :=
  ((ts.dropWhile Tree.isNew).drop 1).countP Tree.isParenthesised

/-- The trees are `n` times `new`, what the chain starts with, and then members
and `l` times arguments. -/
def Shape (n l : Nat) (ts : List Tree) : Prop :=
  ∃ first rest, ts = List.replicate n Tree.newWord ++ first :: rest ∧ first.isNew = false ∧
    rest.countP Tree.isParenthesised = l

namespace Shape

variable {n l : Nat} {ts us : List Tree}

theorem append (h : Shape n l ts) (us : List Tree) :
    Shape n (l + us.countP Tree.isParenthesised) (ts ++ us) := by
  obtain ⟨first, rest, rfl, hfirst, rfl⟩ := h
  exact ⟨first, rest ++ us, by simp, hfirst, List.countP_append⟩

theorem replicate_append (h : Shape n l ts) (m : Nat) :
    Shape (m + n) l (List.replicate m Tree.newWord ++ ts) := by
  obtain ⟨first, rest, rfl, hfirst, hrest⟩ := h
  exact ⟨first, rest, by rw [← List.append_assoc, ← List.replicate_add], hfirst, hrest⟩

theorem counts (h : Shape n l ts) : news ts = n ∧ argumentLists ts = l := by
  obtain ⟨first, rest, rfl, hfirst, rfl⟩ := h
  have hnews : ∀ t ∈ List.replicate n Tree.newWord, t.isNew = true := by
    intro t ht
    rw [List.eq_of_mem_replicate ht]
    rfl
  have htake : (first :: rest).takeWhile Tree.isNew = [] := by simp [hfirst]
  have hdrop : (first :: rest).dropWhile Tree.isNew = first :: rest := by simp [hfirst]
  constructor
  · rw [news, List.takeWhile_append_of_pos hnews, htake, List.append_nil, List.length_replicate]
  · rw [argumentLists, List.dropWhile_append_of_pos hnews, hdrop, List.drop_one, List.tail_cons]

end Shape

namespace Reads

variable {r s : Nat} {ts : List Tree} {e e' : Expr}

/-- **Balance.**  Members have as many arguments as `new`, and calls have some
more. -/
theorem shape (h : Reads r ts e) :
    ∃ n l, Shape n l ts ∧ (2 ≤ r → n ≤ l) ∧ (3 ≤ r → n = l) := by
  induction h with
  | @name name hname =>
      have hnew : (name == "new") = false := by
        rw [beq_eq_false_iff_ne]
        rintro rfl
        exact absurd hname (by decide)
      exact ⟨0, 0, ⟨_, [], rfl, hnew, rfl⟩, by simp⟩
  | paren => exact ⟨0, 0, ⟨_, [], rfl, rfl, rfl⟩, by simp⟩
  | prop _ _ _ ih =>
      obtain ⟨n, l, hshape, hcounts⟩ := ih
      exact ⟨n, l, hshape.append [_, _], hcounts⟩
  | new _ _ ih =>
      obtain ⟨n, l, hshape, -, hmember⟩ := ih
      obtain rfl := hmember (Nat.le_refl _)
      refine ⟨1 + n, n + 1, (hshape.append [_]).replicate_append 1, ?_⟩
      omega
  | call _ _ ih =>
      obtain ⟨n, l, hshape, hcall, -⟩ := ih
      have hle := hcall (Nat.le_refl _)
      refine ⟨n, l + 1, hshape.append [_], ?_⟩
      omega
  | bare m _ ih =>
      obtain ⟨n, l, hshape, -⟩ := ih
      refine ⟨m + 1 + n, l, hshape.replicate_append (m + 1), ?_⟩
      omega
  | tighter _ ih =>
      obtain ⟨n, l, hshape, hcall, hmember⟩ := ih
      exact ⟨n, l, hshape, fun hr => hcall (Nat.le_succ_of_le hr),
        fun hr => hmember (Nat.le_succ_of_le hr)⟩

theorem ne_nil (h : Reads r ts e) : ts ≠ [] := by
  obtain ⟨n, l, ⟨first, rest, rfl, -⟩, -⟩ := h.shape
  simp

/-- A separator of arguments stands in no chain. -/
theorem comma_not_mem (h : Reads r ts e) : Tree.leaf (.mark .comma) ∉ ts := by
  induction h with
  | name | paren => simp
  | prop _ _ _ ih => simpa using ih
  | new _ _ ih => simpa [Tree.newWord] using ih
  | call _ _ ih => simpa using ih
  | bare _ _ ih => simpa [Tree.newWord] using ih
  | tighter _ ih => exact ih

/-- The grammar is one in levels. -/
theorem leveled : Leveled Reads 4 := ⟨.tighter, .paren, ne_nil, comma_not_mem⟩

end Reads

/-- The rule at the top of a chain. -/
inductive Form where
  | name | paren | prop | new | call | bare

/-- The trees are an expression by that rule. -/
def Root : Form → List Tree → Expr → Prop
  | .name, ts, e => ∃ name, ts = [.leaf (.word name)] ∧ e = .ident name ∧ isIdentifier name = true
  | .paren, ts, e => ∃ inside, ts = [.group .paren inside] ∧ Reads 1 inside e
  | .prop, ts, e =>
      ∃ front object name, ts = front ++ [Tree.leaf (.mark .dot), .leaf (.word name)] ∧
        e = .prop object name ∧ Reads 2 front object
  | .new, ts, e =>
      ∃ front callee, ∃ args : List (List Tree × Expr),
        ts = .newWord :: (front ++ [Tree.group .paren (commas (args.map Prod.fst))]) ∧
        e = .new callee [] (args.map Prod.snd) ∧ Reads 3 front callee ∧
        ∀ x ∈ args, Reads 1 x.1 x.2
  | .call, ts, e =>
      ∃ front callee, ∃ args : List (List Tree × Expr),
        ts = front ++ [Tree.group .paren (commas (args.map Prod.fst))] ∧
        e = .call callee [] (args.map Prod.snd) ∧ Reads 2 front callee ∧
        ∀ x ∈ args, Reads 1 x.1 x.2
  | .bare, ts, e =>
      ∃ n behind callee, ts = List.replicate (n + 1) Tree.newWord ++ behind ∧
        e = bareNews (n + 1) callee ∧ Reads 3 behind callee

/-- The rule that the trees tell. -/
def formOf (ts : List Tree) : Form :=
  if argumentLists ts < news ts then .bare
  else
    match ts.reverse with
    | [.leaf _] => .name
    | [.group _ _] => .paren
    | .leaf _ :: _ => .prop
    | _ => if news ts = argumentLists ts then .new else .call

/-- The trees tell the rule at the top. -/
theorem Root.formOf_eq {form : Form} {ts : List Tree} {e : Expr} (h : Root form ts e) :
    formOf ts = form := by
  cases form with
  | name =>
      obtain ⟨name, rfl, -, hname⟩ := h
      obtain ⟨n, l, hshape, hle, -⟩ := (Reads.name hname).shape
      obtain ⟨rfl, rfl⟩ := hshape.counts
      rw [formOf, if_neg (Nat.not_lt.mpr (hle (by decide)))]
      rfl
  | paren =>
      obtain ⟨inside, rfl, -⟩ := h
      rfl
  | prop =>
      obtain ⟨front, object, name, rfl, -, hobject⟩ := h
      obtain ⟨n, l, hshape, hle, -⟩ := hobject.shape
      obtain ⟨hnews, hlists⟩ := (hshape.append [.leaf (.mark .dot), .leaf (.word name)]).counts
      have hcount : [Tree.leaf (.mark .dot), .leaf (.word name)].countP
          Tree.isParenthesised = 0 := rfl
      rw [formOf, hnews, hlists, hcount, Nat.add_zero,
        if_neg (Nat.not_lt.mpr (hle (Nat.le_refl _)))]
      simp
  | new =>
      obtain ⟨front, callee, args, rfl, -, hcallee, hargs⟩ := h
      obtain ⟨n, l, hshape, hle, heq⟩ := (Reads.new hcallee hargs).shape
      obtain ⟨hnews, hlists⟩ := hshape.counts
      obtain rfl := heq (Nat.le_refl _)
      obtain ⟨t, rest, hrest⟩ :=
        List.exists_cons_of_ne_nil (List.reverse_ne_nil_iff.mpr hcallee.ne_nil)
      simp [formOf, hnews, hlists, hrest]
  | call =>
      obtain ⟨front, callee, args, rfl, -, hcallee, hargs⟩ := h
      obtain ⟨n, l, hshape, hle, -⟩ := hcallee.shape
      obtain ⟨hnews, hlists⟩ :=
        (hshape.append [.group .paren (commas (args.map Prod.fst))]).counts
      obtain ⟨t, rest, hrest⟩ :=
        List.exists_cons_of_ne_nil (List.reverse_ne_nil_iff.mpr hcallee.ne_nil)
      have hle := hle (Nat.le_refl _)
      have hcount : l + [Tree.group .paren (commas (args.map Prod.fst))].countP
          Tree.isParenthesised = l + 1 := rfl
      rw [formOf, hnews, hlists, hcount, if_neg (by omega)]
      simp [hrest]
      omega
  | bare =>
      obtain ⟨n, behind, callee, rfl, -, hcallee⟩ := h
      obtain ⟨m, l, hshape, -, heq⟩ := hcallee.shape
      obtain ⟨hnews, hlists⟩ := (hshape.replicate_append (n + 1)).counts
      have heq := heq (Nat.le_refl _)
      rw [formOf, hnews, hlists, if_pos (by omega)]

namespace Reads

variable {r s : Nat} {ts : List Tree} {e e' : Expr}

/-- Every chain has a rule at the top. -/
theorem root (h : Reads r ts e) : ∃ form, Root form ts e := by
  induction h with
  | name hname => exact ⟨.name, _, rfl, rfl, hname⟩
  | paren h => exact ⟨.paren, _, rfl, h⟩
  | prop hr hobject hname =>
      refine ⟨.prop, _, _, _, rfl, rfl, leveled.weaken ?_ hobject⟩
      omega
  | new hcallee hargs => exact ⟨.new, _, _, _, rfl, rfl, hcallee, hargs⟩
  | call hcallee hargs => exact ⟨.call, _, _, _, rfl, rfl, hcallee, hargs⟩
  | bare n hcallee => exact ⟨.bare, n, _, _, rfl, rfl, hcallee⟩
  | tighter _ ih => exact ih

/-- Two readings of the same trees have the same rule at the top. -/
theorem root_of (form : Form) (h : Reads s ts e') (hroot : Root form ts e) : Root form ts e' := by
  obtain ⟨form', hroot'⟩ := h.root
  rwa [← hroot.formOf_eq, hroot'.formOf_eq]

/-- **The grammar is unambiguous.**  The trees are a chain in one way only.  The
induction is on the first of two readings; the trees tell the rule at the top,
and with it where the parts are. -/
theorem unique (h : Reads r ts e) (h' : Reads s ts e') : e = e' := by
  induction h generalizing s e' with
  | name hname =>
      obtain ⟨name, heq, rfl, -⟩ := h'.root_of .name ⟨_, rfl, rfl, hname⟩
      cases heq
      rfl
  | paren h ih =>
      obtain ⟨inside, heq, hinside⟩ := h'.root_of .paren ⟨_, rfl, h⟩
      cases heq
      exact ih hinside
  | prop hr hobject hname ih =>
      obtain ⟨front, object, name, heq, rfl, hobject'⟩ :=
        h'.root_of .prop ⟨_, _, _, rfl, rfl, leveled.weaken (by omega) hobject⟩
      obtain ⟨rfl, hname⟩ := List.append_inj' heq rfl
      cases hname
      rw [ih hobject']
  | new hcallee hargs ihCallee ihArgs =>
      obtain ⟨front, callee, args, heq, rfl, hcallee', hargs'⟩ :=
        h'.root_of .new ⟨_, _, _, rfl, rfl, hcallee, hargs⟩
      obtain ⟨rfl, hlast⟩ := List.append_inj' (List.cons.inj heq).2 rfl
      injection hlast with hlast
      injection hlast with _ hlast
      rw [ihCallee hcallee', leveled.commas_unique hargs hargs' ihArgs hlast]
  | call hcallee hargs ihCallee ihArgs =>
      obtain ⟨front, callee, args, heq, rfl, hcallee', hargs'⟩ :=
        h'.root_of .call ⟨_, _, _, rfl, rfl, hcallee, hargs⟩
      obtain ⟨rfl, hlast⟩ := List.append_inj' heq rfl
      injection hlast with hlast
      injection hlast with _ hlast
      rw [ihCallee hcallee', leveled.commas_unique hargs hargs' ihArgs hlast]
  | bare n hcallee ih =>
      obtain ⟨n', behind, callee, heq, rfl, hcallee'⟩ :=
        h'.root_of .bare ⟨n, _, _, rfl, rfl, hcallee⟩
      -- what is behind has as many `new` as arguments, so the others are counted
      have hcounts : ∀ {k ts e}, Reads 3 ts e →
          news (List.replicate (k + 1) Tree.newWord ++ ts) =
            k + 1 + argumentLists (List.replicate (k + 1) Tree.newWord ++ ts) := by
        intro k ts e hreads
        obtain ⟨m, l, hshape, -, hmember⟩ := hreads.shape
        obtain rfl := hmember (Nat.le_refl _)
        obtain ⟨hnews, hlists⟩ := (hshape.replicate_append (k + 1)).counts
        rw [hnews, hlists]
      have hsame : n = n' := by
        have hfirst := hcounts (k := n) hcallee
        have hsecond := hcounts (k := n') hcallee'
        rw [← heq] at hsecond
        omega
      subst hsame
      rw [ih (List.append_cancel_left heq ▸ hcallee')]
  | tighter _ ih => exact ih h'

end Reads

end Chain

/-- What a chain is with one more `new` in front of its text: the first call
becomes its class with its arguments.  Without a call there is nothing to take. -/
def Expr.newInFront? : Expr → Option Expr
  | .prop receiver name => receiver.newInFront?.map (.prop · name)
  | .call callee typeArgs args =>
      match callee.newInFront? with
      | some callee => some (.call callee typeArgs args)
      | none => some (.new callee typeArgs args)
  | _ => none

mutual

/-- The chain that is read where this one is printed. -/
def Expr.regrouped : Expr → Expr
  | .prop receiver name => .prop receiver.regrouped name
  | .call callee typeArgs args => .call callee.regrouped typeArgs (Expr.regroupedAll args)
  | .new callee typeArgs args =>
      match callee.regrouped.newInFront? with
      | some callee => .call callee typeArgs (Expr.regroupedAll args)
      | none => .new callee.regrouped typeArgs (Expr.regroupedAll args)
  | e => e

/-- The chains that are read where these are printed. -/
def Expr.regroupedAll : List Expr → List Expr
  | [] => []
  | e :: rest => e.regrouped :: Expr.regroupedAll rest

end

/-- Whether there is a call in the chain of the expression, arguments and
classes aside. -/
def Expr.hasCall : Expr → Bool
  | .prop receiver _ => receiver.hasCall
  | .call .. => true
  | _ => false

/-- Whether the expression is `new` with a call in the chain of its class. -/
def Expr.hasCallInClass : Expr → Bool
  | .new callee _ _ => callee.hasCall
  | _ => false

namespace Expr

theorem regroupedAll_eq (es : List Expr) : regroupedAll es = es.map regrouped := by
  induction es with
  | nil => rfl
  | cons e rest ih => rw [regroupedAll, ih, List.map_cons]

theorem newInFront?_eq_none_iff {e : Expr} : e.newInFront? = none ↔ e.hasCall = false := by
  fun_induction newInFront? e <;> simp_all [hasCall]

theorem Chained.isLoose {e : Expr} (h : e.Chained) : e.isLoose = false := by
  cases h <;> rfl

end Expr

namespace Chain

/-- The trees are read as the chain, and every `new` in front of them takes
arguments away from calls as long as there are some. -/
inductive Fronts : List Tree → Expr → Prop
  | member {ts : List Tree} {e : Expr} (h : Reads 3 ts e) (hnew : e.newInFront? = none) :
      Fronts ts e
  | call {ts : List Tree} {e e' : Expr} (h : Reads 2 ts e) (hnew : e.newInFront? = some e')
      (hfronts : Fronts (.newWord :: ts) e') : Fronts ts e

namespace Fronts

variable {ts : List Tree} {e : Expr} {args : List (List Tree × Expr)}

theorem reads (h : Fronts ts e) : Reads 2 ts e := by
  cases h with
  | member h => exact h.tighter
  | call h => exact h

/-- **Step.**  A member behind a chain. -/
theorem prop (h : Fronts ts e) {name : String} (hname : isWord name.toList = true) :
    Fronts (ts ++ [Tree.leaf (.mark .dot), .leaf (.word name)]) (.prop e name) := by
  induction h with
  | member h hnew => exact .member (h.prop (.inr rfl) hname) (by simp [Expr.newInFront?, hnew])
  | call h hnew _ ih => exact .call (h.prop (.inl rfl) hname) (by simp [Expr.newInFront?, hnew]) ih

/-- **Step.**  Arguments behind a chain: the ones that `new` in front takes last. -/
theorem arguments (h : Fronts ts e) (hargs : ∀ x ∈ args, Reads 1 x.1 x.2) :
    Fronts (ts ++ [Tree.group .paren (commas (args.map Prod.fst))])
      (.call e [] (args.map Prod.snd)) := by
  induction h with
  | member h hnew =>
      exact .call (h.tighter.call hargs) (by simp [Expr.newInFront?, hnew])
        (.member (h.new hargs) rfl)
  | call h hnew _ ih => exact .call (h.call hargs) (by simp [Expr.newInFront?, hnew]) ih

/-- **Step.**  `new` in front of a chain and arguments behind it.  The arguments
are those of `new` only where the chain has no call. -/
theorem new (h : Fronts ts e) (hargs : ∀ x ∈ args, Reads 1 x.1 x.2) :
    Fronts (.newWord :: (ts ++ [Tree.group .paren (commas (args.map Prod.fst))]))
      (match e.newInFront? with
        | some callee => .call callee [] (args.map Prod.snd)
        | none => .new e [] (args.map Prod.snd)) := by
  cases h with
  | member h hnew =>
      rw [hnew]
      exact .member (h.new hargs) rfl
  | call h hnew hfronts =>
      rw [hnew]
      exact hfronts.arguments hargs

end Fronts

/-- The grammar, with expressions in place of what is read where they are
printed. -/
def ReadsPrinted (r : Nat) (ts : List Tree) (e : Expr) : Prop := Reads r ts e.regrouped

section Writing

variable {e : Expr} (width level : Nat)

/-- Arguments that are written can be listed with the trees of their texts. -/
theorem exists_arguments {es : List Expr}
    (h : ∀ e ∈ es, IsWritten ReadsPrinted width 1 e (e.tokens level)) :
    ∃ args : List (List Tree × Expr), args.map Prod.snd = Expr.regroupedAll es ∧
      (∀ x ∈ args, Reads 1 x.1 x.2) ∧
      ∀ next, WordEnds next → Prints width next (Token.commaSeparated (exprParts level es))
        (commas (args.map Prod.fst)) := by
  obtain ⟨items, rfl, hitems, hprints⟩ := IsWritten.exists_commas h
  refine ⟨items.map fun item => (item.1, item.2.regrouped), ?_, ?_, fun next hnext => ?_⟩
  · simp [Expr.regroupedAll_eq]
  · exact List.forall_mem_map.mpr hitems
  · rw [Expr.exprParts_eq]
    simpa [Function.comp_def] using hprints next hnext

/-- **Printing.**  A chain is written as a text that is read as its regrouped
chain.  The induction is on the chain; what `new` in front would do is carried
along, since the chain may be a class. -/
theorem exists_fronts (h : e.Chained) :
    ∃ trees, Fronts trees e.regrouped ∧
      ∀ next, WordEnds next → Prints width next (e.tokens level) trees := by
  have hwritten : ∀ {es : List Expr}, (∀ e ∈ es, ∃ trees, Fronts trees e.regrouped ∧
      ∀ next, WordEnds next → Prints width next (e.tokens level) trees) →
      ∀ e ∈ es, IsWritten ReadsPrinted width 1 e (e.tokens level) := by
    intro es hes e he
    obtain ⟨trees, hfronts, hprints⟩ := hes e he
    exact ⟨trees, hfronts.reads.tighter, hprints⟩
  induction h with
  | ident hname =>
      exact ⟨_, .member (.tighter (.name hname)) rfl, fun _ =>
        Prints.word (isIdentifier_iff.mp hname).1⟩
  | prop hobject hname ih =>
      obtain ⟨trees, hfronts, hprints⟩ := ih
      rw [Expr.tokens, hobject.isLoose]
      exact ⟨_, hfronts.prop hname, fun _ => Prints.member hprints hname⟩
  | @call callee args hcallee _ ih ihArgs =>
      obtain ⟨trees, hfronts, hprints⟩ := ih
      obtain ⟨items, hitems, hreads, hinside⟩ := exists_arguments width level (hwritten ihArgs)
      have htokens : (Expr.call callee [] args).tokens level = callee.tokens level ++
          Token.parenthesised (Token.commaSeparated (exprParts level args)) := by
        simp [Expr.tokens, hcallee.isLoose, Token.parenthesisedIf, tyParts, Token.angled]
      rw [htokens, Expr.regrouped, ← hitems]
      exact ⟨_, hfronts.arguments hreads, fun _ _ => Prints.arguments hprints hinside⟩
  | @new callee args hcallee _ ih ihArgs =>
      obtain ⟨trees, hfronts, hprints⟩ := ih
      obtain ⟨items, hitems, hreads, hinside⟩ := exists_arguments width level (hwritten ihArgs)
      have htokens : (Expr.new callee [] args).tokens level = [Token.word "new", .space] ++
          (callee.tokens level ++
            Token.parenthesised (Token.commaSeparated (exprParts level args))) := by
        simp [Expr.tokens, hcallee.isLoose, Token.parenthesisedIf, tyParts, Token.angled]
      rw [htokens, Expr.regrouped, ← hitems]
      exact ⟨_, hfronts.new hreads, fun _ _ =>
        Prints.append (.wordAndSpace (by decide)) (Prints.arguments hprints hinside)⟩

/-- The text of a chain is read as its regrouped chain. -/
theorem isReadFrom_iff (h : e.Chained) (e' : Expr) :
    IsReadFrom (Token.render width (e.tokens level)) e' ↔ e' = e.regrouped := by
  obtain ⟨trees, hfronts, hprints⟩ := exists_fronts width level h
  have hwritten : IsWritten Reads width 1 e.regrouped (e.tokens level) :=
    ⟨trees, hfronts.reads.tighter, hprints⟩
  exact hwritten.read_iff (fun hreads hreads' => hreads.unique hreads') e'

end Writing

end Chain

namespace Expr

/-- A chain is read as itself when no class in it has a call in its chain. -/
theorem Chained.regrouped_eq_iff {e : Expr} (h : e.Chained) :
    e.regrouped = e ↔ ∀ node ∈ e.nodes, node.hasCallInClass = false := by
  have hall : ∀ {es : List Expr},
      (∀ e ∈ es, e.regrouped = e ↔ ∀ node ∈ e.nodes, node.hasCallInClass = false) →
      (regroupedAll es = es ↔ ∀ node ∈ nodesOfAll es, node.hasCallInClass = false) := by
    intro es hes
    have hid : es.map regrouped = es ↔ ∀ e ∈ es, e.regrouped = e := by
      simpa using List.map_inj_left (l := es) (f := regrouped) (g := id)
    rw [regroupedAll_eq, nodesOfAll_eq, List.forall_mem_flatMap, hid]
    exact forall₂_congr hes
  induction h with
  | ident => simp [regrouped, nodes, hasCallInClass]
  | prop _ _ ih => simpa [regrouped, nodes, hasCallInClass] using ih
  | call _ _ ih ihArgs =>
      rw [nodes, List.forall_mem_cons, List.forall_mem_append]
      refine Iff.trans ?_ (and_congr .rfl (and_congr ih (hall ihArgs)))
      simp [regrouped, hasCallInClass]
  | @new callee args _ _ ih ihArgs =>
      rw [nodes, List.forall_mem_cons, List.forall_mem_append, hasCallInClass,
        ← newInFront?_eq_none_iff]
      refine Iff.trans ?_ (and_congr .rfl (and_congr ih (hall ihArgs)))
      constructor
      · intro hsame
        rw [regrouped] at hsame
        split at hsame
        · cases hsame
        · next hnone =>
            injection hsame with hcallee _ hargs
            exact ⟨hcallee ▸ hnone, hcallee, hargs⟩
      · rintro ⟨hnone, hcallee, hargs⟩
        rw [regrouped, hcallee, hnone, hargs]

end Expr

namespace Chain

/-- **Chains.**  The text of a chain has one reading.  It is the chain that was
printed exactly when no class in it has a call in its chain. -/
theorem reads_back_iff (width level : Nat) (e : Expr) (h : e.Chained) :
    (∀ e', IsReadFrom (Token.render width (e.tokens level)) e' ↔ e' = e.regrouped) ∧
      ((∀ e', IsReadFrom (Token.render width (e.tokens level)) e' ↔ e' = e) ↔
        ∀ node ∈ e.nodes, node.hasCallInClass = false) := by
  refine ⟨isReadFrom_iff width level h, ?_⟩
  rw [← h.regrouped_eq_iff]
  constructor
  · intro hback
    exact (hback _).mp ((isReadFrom_iff width level h _).mpr rfl)
  · intro hsame e'
    rw [isReadFrom_iff width level h, hsame]

/-- A chain with calls around its classes and among their arguments. -/
def sampleChain : Expr :=
  .call (.prop (.new (.prop (.ident "lib") "Box") [] [.call (.ident "f") [] []]) "run") []
    [.new (.new (.ident "C") [] []) [] []]

theorem reads_back_iff_sampleChain :
    sampleChain.Chained ∧
      Token.render 4 (sampleChain.tokens 0) = "new lib.Box(f()).run(new new C()())" ∧
      ∀ e', IsReadFrom (Token.render 4 (sampleChain.tokens 0)) e' ↔ e' = sampleChain := by
  have hbox : (Expr.new (.prop (.ident "lib") "Box") [] [.call (.ident "f") [] []]).Chained :=
    .new (.prop (.ident (by decide)) (by decide))
      (List.forall_mem_singleton.mpr (.call (.ident (by decide)) (by simp)))
  have harg : (Expr.new (.new (.ident "C") [] []) [] []).Chained :=
    .new (.new (.ident (by decide)) (by simp)) (by simp)
  have hchained : sampleChain.Chained :=
    .call (.prop hbox (by decide)) (List.forall_mem_singleton.mpr harg)
  have hclasses : ∀ node ∈ sampleChain.nodes, node.hasCallInClass = false := by
    simp [sampleChain, Expr.nodes, Expr.nodesOfAll, Expr.hasCallInClass, Expr.hasCall]
  exact ⟨hchained, rfl, (reads_back_iff 4 0 sampleChain hchained).2.mpr hclasses⟩

/-- A class that is a call is read as a class without it: its arguments are
taken by `new`, and the ones of `new` are those of a call. -/
theorem class_read_as_callee :
    (Expr.new (.call (.ident "f") [] []) [] []).Chained ∧
      Token.render 4 ((Expr.new (.call (.ident "f") [] []) [] []).tokens 0) = "new f()()" ∧
      IsReadFrom "new f()()" (.call (.new (.ident "f") [] []) [] []) ∧
      ¬ IsReadFrom "new f()()" (.new (.call (.ident "f") [] []) [] []) := by
  have hchained : (Expr.new (.call (.ident "f") [] []) [] []).Chained :=
    .new (.call (.ident (by decide)) (by simp)) (by simp)
  have hread := isReadFrom_iff 4 0 hchained
  have htext : Token.render 4 ((Expr.new (.call (.ident "f") [] []) [] []).tokens 0) =
      "new f()()" := rfl
  rw [htext] at hread
  refine ⟨hchained, htext, (hread _).mpr rfl, fun hsame => ?_⟩
  cases (hread _).mp hsame

/-- In parentheses the call stays the class. -/
example : IsReadFrom "new (f())()" (.new (.call (.ident "f") [] []) [] []) := by
  have hname : Reads 2 [.leaf (.word "f")] (.ident "f") :=
    Reads.leveled.weaken (by decide) (.name (by decide))
  have hcall : Reads 1 _ (.call (.ident "f") [] []) :=
    .tighter (@Reads.call _ _ [] hname (by simp))
  have hnew := @Reads.new _ _ [] hcall.paren.tighter (by simp)
  exact ⟨_, rfl, Reads.leveled.weaken (by decide) hnew⟩

end Chain

end AbiBindings.Script
