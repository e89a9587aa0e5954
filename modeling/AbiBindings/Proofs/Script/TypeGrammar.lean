import AbiBindings.Proofs.Script.Levels
import AbiBindings.Script.Tree

/-!
# The grammar of types

Brackets behind a type bind tighter than a bar between types, and a bar tighter
than the arrow of a function, whose parameters stand in parentheses in front of
it (`Ty.Reads`).

At the top of a type no mark stands but a bar, if it is no tighter than a union,
and an arrow, if it is no tighter than a function (`Ty.Reads.mark_of_mem`).  So
commas, colons and semicolons are where a list of types, parameters or fields is
taken apart, the two marks and the last bracket tell which type it is
(`Ty.Root.formOf_eq`), and there is one reading of a text (`Ty.Reads.unique`).
-/

namespace AbiBindings.Script

/-- The names that are types of their own. -/
def typeKeywords : List String := ["string", "number", "boolean", "any", "void"]

namespace Ty

/-- Tokens that are a type of their own. -/
inductive Names : Token → Ty → Prop
  | string : Names (.word "string") .string
  | number : Names (.word "number") .number
  | boolean : Names (.word "boolean") .boolean
  | any : Names (.word "any") .any
  | void : Names (.word "void") .void
  | ref {name : String} (hname : isIdentifier name = true) (hkeyword : name ∉ typeKeywords) :
      Names (.word name) (.ref name [])

/-- A parameter of a function type as it stands in a text, with the trees of its
type. -/
structure Slot where
  rest : Bool
  name : String
  optional : Bool
  typed : Option (List Tree × Ty)

/-- The trees of a parameter. -/
def Slot.trees (p : Slot) : List Tree :=
  (if p.rest then [.leaf (.mark .ellipsis)] else []) ++ [.leaf (.word p.name)]
    ++ (if p.optional then [.leaf (.mark .question)] else [])
    ++ p.typed.elim [] fun (ts, _) => .leaf (.mark .colon) :: ts

/-- The parameter that stands there. -/
def Slot.param (p : Slot) : Param :=
  { name := p.name, ty := p.typed.map Prod.snd, optional := p.optional, rest := p.rest }

/-- A field of an object type as it stands in a text, with the trees of its
type. -/
structure Field where
  key : Token
  name : String
  trees : List Tree
  ty : Ty

/-- A field has a word or a string for its name. -/
def Field.IsKeyed (f : Field) : Prop :=
  (f.key = .word f.name ∧ isWord f.name.toList = true) ∨ f.key = .quoted f.name

/-- The trees of a field up to its semicolon. -/
def Field.part (f : Field) : List Tree := .leaf f.key :: .leaf (.mark .colon) :: f.trees

/-- The trees of fields, each with its semicolon. -/
def fieldTrees (fields : List Field) : List Tree :=
  (fields.map Field.part).flatMap (· ++ [.leaf (.mark .semicolon)])

/-- The grammar of types: the trees are a type of that level or of a tighter
one.  Level 1 is that of function types, level 2 that of unions, level 3 that of
arrays and level 4 that of what stands by itself. -/
inductive Reads : Nat → List Tree → Ty → Prop
  | name {token : Token} {t : Ty} (h : Names token t) : Reads 4 [.leaf token] t
  | generic {name : String} {args : List (List Tree × Ty)} (hname : isIdentifier name = true)
      (hsome : args ≠ []) (hargs : ∀ x ∈ args, Reads 1 x.1 x.2) :
      Reads 4 [.leaf (.word name), .group .angle (commas (args.map Prod.fst))]
        (.ref name (args.map Prod.snd))
  | tuple {items : List (List Tree × Ty)} (hitems : ∀ x ∈ items, Reads 1 x.1 x.2) :
      Reads 4 [.group .square (commas (items.map Prod.fst))] (.tuple (items.map Prod.snd))
  | object {fields : List Field} (hkeys : ∀ f ∈ fields, f.IsKeyed)
      (hfields : ∀ f ∈ fields, Reads 1 f.trees f.ty) :
      Reads 4 [.group .brace (fieldTrees fields)] (.object (fields.map fun f => (f.name, f.ty)))
  | paren {ts : List Tree} {t : Ty} (h : Reads 1 ts t) : Reads 4 [.group .paren ts] t
  | array {ts : List Tree} {element : Ty} (helement : Reads 3 ts element) :
      Reads 3 (ts ++ [.group .square []]) (.array element)
  | union {members : List (List Tree × Ty)} (htwo : 2 ≤ members.length)
      (hmembers : ∀ x ∈ members, Reads 3 x.1 x.2) :
      Reads 2 (List.intercalate [.leaf (.mark .bar)] (members.map Prod.fst))
        (.union (members.map Prod.snd))
  | fn {params : List Slot} {ts : List Tree} {returns : Ty}
      (hnames : ∀ p ∈ params, isIdentifier p.name = true)
      (hparams : ∀ p ∈ params, ∀ x ∈ p.typed, Reads 1 x.1 x.2)
      (hreturns : Reads 1 ts returns) :
      Reads 1 (.group .paren (commas (params.map Slot.trees)) :: .leaf (.mark .arrow) :: ts)
        (.fn (params.map Slot.param) returns)
  | tighter {r : Nat} {ts : List Tree} {t : Ty} (h : Reads (r + 1) ts t) : Reads r ts t

/-- The text is a type of the grammar. -/
def IsReadFrom (text : String) (t : Ty) : Prop :=
  ∃ trees, Forest.read? text = some trees ∧ Reads 1 trees t

/-- The rule at the top of a type of the grammar. -/
inductive Form where
  | name | generic | tuple | object | paren | array | union | fn

/-- The trees are a type by that rule. -/
def Root : Form → List Tree → Ty → Prop
  | .name, ts, t => ∃ token, ts = [.leaf token] ∧ Names token t
  | .generic, ts, t =>
      ∃ name, ∃ args : List (List Tree × Ty),
        ts = [.leaf (.word name), .group .angle (commas (args.map Prod.fst))] ∧
        t = .ref name (args.map Prod.snd) ∧ ∀ x ∈ args, Reads 1 x.1 x.2
  | .tuple, ts, t =>
      ∃ items : List (List Tree × Ty), ts = [.group .square (commas (items.map Prod.fst))] ∧
        t = .tuple (items.map Prod.snd) ∧ ∀ x ∈ items, Reads 1 x.1 x.2
  | .object, ts, t =>
      ∃ fields : List Field, ts = [.group .brace (fieldTrees fields)] ∧
        t = .object (fields.map fun f => (f.name, f.ty)) ∧ (∀ f ∈ fields, f.IsKeyed) ∧
        ∀ f ∈ fields, Reads 1 f.trees f.ty
  | .paren, ts, t => ∃ inside, ts = [.group .paren inside] ∧ Reads 1 inside t
  | .array, ts, t =>
      ∃ front element, ts = front ++ [.group .square []] ∧ t = .array element ∧
        Reads 3 front element
  | .union, ts, t =>
      ∃ members : List (List Tree × Ty),
        ts = List.intercalate [.leaf (.mark .bar)] (members.map Prod.fst) ∧
        t = .union (members.map Prod.snd) ∧ 2 ≤ members.length ∧ ∀ x ∈ members, Reads 3 x.1 x.2
  | .fn, ts, t =>
      ∃ params : List Slot, ∃ behind returns,
        ts = .group .paren (commas (params.map Slot.trees)) :: .leaf (.mark .arrow) :: behind ∧
        t = .fn (params.map Slot.param) returns ∧
        (∀ p ∈ params, ∀ x ∈ p.typed, Reads 1 x.1 x.2) ∧ Reads 1 behind returns

/-- The rule that the trees tell. -/
def formOf (ts : List Tree) : Form :=
  if ts.any (Tree.isMark .arrow) then .fn
  else if ts.any (Tree.isMark .bar) then .union
  else
    match ts with
    | [.leaf _] => .name
    | [.group .square _] => .tuple
    | [.group .brace _] => .object
    | [.group _ _] => .paren
    | [_, .group .angle _] => .generic
    | _ => .array

namespace Reads

variable {r : Nat} {ts : List Tree} {t : Ty}

/-- Every type has a rule at the top. -/
theorem root (h : Reads r ts t) : ∃ form, Root form ts t := by
  induction h with
  | name hname => exact ⟨.name, _, rfl, hname⟩
  | generic _ _ hargs => exact ⟨.generic, _, _, rfl, rfl, hargs⟩
  | tuple hitems => exact ⟨.tuple, _, rfl, rfl, hitems⟩
  | object hkeys hfields => exact ⟨.object, _, rfl, rfl, hkeys, hfields⟩
  | paren h => exact ⟨.paren, _, rfl, h⟩
  | array helement => exact ⟨.array, _, _, rfl, rfl, helement⟩
  | union htwo hmembers => exact ⟨.union, _, rfl, rfl, htwo, hmembers⟩
  | fn _ hparams hreturns => exact ⟨.fn, _, _, _, rfl, rfl, hparams, hreturns⟩
  | tighter _ ih => exact ih

theorem ne_nil (h : Reads r ts t) : ts ≠ [] := by
  induction h with
  | @union members htwo _ ih =>
      match members, htwo with
      | x :: y :: rest, _ => simp [List.intercalate_cons_cons]
  | tighter _ ih => exact ih
  | _ => simp

/-- The marks at the top of a type are bars and arrows. -/
theorem mark_of_mem (h : Reads r ts t) {m : Mark} (hm : .leaf (.mark m) ∈ ts) :
    m = .arrow ∧ r ≤ 1 ∨ m = .bar ∧ r ≤ 2 := by
  induction h with
  | name hname => cases hname <;> simp at hm
  | generic | tuple | object | paren => simp at hm
  | array _ ih => exact ih (by simpa using hm)
  | union _ _ ih =>
      rcases mem_of_mem_intercalate hm with hbar | ⟨part, hpart, hm⟩
      · exact .inr ⟨by simpa using hbar, Nat.le_refl _⟩
      · obtain ⟨x, hx, rfl⟩ := List.mem_map.mp hpart
        rcases ih x hx hm with ⟨-, hr⟩ | ⟨-, hr⟩ <;> omega
  | fn _ _ _ _ ih =>
      simp only [List.mem_cons, reduceCtorEq, Tree.leaf.injEq, Token.mark.injEq, false_or] at hm
      rcases hm with harrow | hm
      · exact .inl ⟨harrow, Nat.le_refl _⟩
      · exact ih hm
  | tighter _ ih => exact (ih hm).imp (.imp_right Nat.le_of_succ_le) (.imp_right Nat.le_of_succ_le)

theorem comma_not_mem (h : Reads r ts t) : Tree.leaf (.mark .comma) ∉ ts := by
  intro hm
  simpa using h.mark_of_mem hm

/-- The grammar is one in levels. -/
theorem leveled : Leveled Reads 4 := ⟨.tighter, .paren, ne_nil, comma_not_mem⟩

/-- What is tighter than a function has no arrow, and what is tighter than a
union no bar. -/
theorem not_isMark (h : Reads r ts t) {m : Mark} (harrow : m = .arrow → 1 < r)
    (hbar : m = .bar → 2 < r) : ts.any (Tree.isMark m) = false := by
  rw [List.any_eq_false]
  intro tree htree hmark
  obtain rfl := Tree.isMark_iff.mp hmark
  rcases h.mark_of_mem htree with ⟨hm, hr⟩ | ⟨hm, hr⟩
  · exact Nat.not_lt.mpr hr (harrow hm)
  · exact Nat.not_lt.mpr hr (hbar hm)

end Reads

/-- The trees tell the rule at the top. -/
theorem Root.formOf_eq {form : Form} {ts : List Tree} {t : Ty} (h : Root form ts t) :
    formOf ts = form := by
  cases form with
  | name =>
      obtain ⟨token, rfl, hname⟩ := h
      have harrow := (Reads.name hname).not_isMark (m := .arrow) (fun _ => by decide) nofun
      have hbar := (Reads.name hname).not_isMark (m := .bar) nofun (fun _ => by decide)
      simp only [formOf, harrow, hbar]
      rfl
  | generic =>
      obtain ⟨name, args, rfl, -⟩ := h
      rfl
  | tuple =>
      obtain ⟨items, rfl, -⟩ := h
      rfl
  | object =>
      obtain ⟨fields, rfl, -⟩ := h
      rfl
  | paren =>
      obtain ⟨inside, rfl, -⟩ := h
      rfl
  | array =>
      obtain ⟨front, element, rfl, -, helement⟩ := h
      have harrow := (Reads.array helement).not_isMark (m := .arrow) (fun _ => by decide) nofun
      have hbar := (Reads.array helement).not_isMark (m := .bar) nofun (fun _ => by decide)
      simp only [formOf, harrow, hbar]
      match front, helement.ne_nil with
      | [_], _ | [_, _], _ | _ :: _ :: _ :: _, _ => simp
  | union =>
      obtain ⟨members, rfl, -, htwo, hmembers⟩ := h
      have harrow := (Reads.union htwo hmembers).not_isMark (m := .arrow) (fun _ => by decide) nofun
      have hbar : (List.intercalate [.leaf (.mark .bar)] (members.map Prod.fst)).any
          (Tree.isMark .bar) = true := by
        match members, htwo with
        | x :: y :: rest, _ => simp [List.intercalate_cons_cons, Tree.isMark]
      simp only [formOf, harrow, hbar]
      rfl
  | fn =>
      obtain ⟨params, behind, returns, rfl, -⟩ := h
      rfl

theorem Names.unique {token token' : Token} {t t' : Ty} (h : Names token t)
    (h' : Names token' t') (heq : token = token') : t = t' := by
  -- no name is a keyword, and the keywords differ
  cases h <;> cases h' <;> simp_all [typeKeywords]

/-- Parameters with the same trees are the same, if each text of a type is read
in one way. -/
theorem Slot.param_eq {p q : Slot}
    (hunique : ∀ x ∈ p.typed, ∀ y ∈ q.typed, x.1 = y.1 → x.2 = y.2)
    (h : p.trees = q.trees) : p.param = q.param := by
  rcases p with ⟨_ | _, name, _ | _, _ | x⟩ <;> rcases q with ⟨_ | _, name', _ | _, _ | y⟩ <;>
    simp_all [Slot.trees, Slot.param]

theorem Field.entry_eq {f g : Field} (hf : f.IsKeyed) (hg : g.IsKeyed) (hkey : f.key = g.key)
    (hty : f.ty = g.ty) : (f.name, f.ty) = (g.name, g.ty) := by
  rcases hf with ⟨hf, -⟩ | hf <;> rcases hg with ⟨hg, -⟩ | hg <;>
    simp_all

/-- The trees of fields with their semicolons can be taken apart. -/
theorem fieldTrees_unique {fs gs : List Field} (hfs : ∀ f ∈ fs, f.IsKeyed ∧ Reads 1 f.trees f.ty)
    (hgs : ∀ g ∈ gs, g.IsKeyed ∧ Reads 1 g.trees g.ty)
    (hunique : ∀ f ∈ fs, ∀ {s : Nat} {t : Ty}, Reads s f.trees t → f.ty = t)
    (h : fieldTrees fs = fieldTrees gs) :
    fs.map (fun f => (f.name, f.ty)) = gs.map (fun g => (g.name, g.ty)) := by
  have hstop : ∀ f : Field, f.IsKeyed ∧ Reads 1 f.trees f.ty →
      Tree.leaf (.mark .semicolon) ∉ f.part := by
    rintro f ⟨hkeyed, hreads⟩
    have htrees : Tree.leaf (.mark .semicolon) ∉ f.trees := fun hm => by
      simpa using hreads.mark_of_mem hm
    rcases hkeyed with ⟨hkey, -⟩ | hkey <;> simp [Field.part, hkey, htrees]
  refine map_eq_of_flatMap (fun f hf => hstop f (hfs f hf)) (fun g hg => hstop g (hgs g hg))
    (fun f hf g hg heq => ?_) h
  injection heq with hkey heq
  injection hkey with hkey
  injection heq with _ htrees
  exact Field.entry_eq (hfs f hf).1 (hgs g hg).1 hkey (hunique f hf (htrees ▸ (hgs g hg).2))

/-- The trees of parameters can be taken apart at their commas. -/
theorem slots_unique {ps qs : List Slot} (hps : ∀ p ∈ ps, ∀ x ∈ p.typed, Reads 1 x.1 x.2)
    (hqs : ∀ q ∈ qs, ∀ y ∈ q.typed, Reads 1 y.1 y.2)
    (hunique : ∀ p ∈ ps, ∀ x ∈ p.typed, ∀ {s : Nat} {t : Ty}, Reads s x.1 t → x.2 = t)
    (h : commas (ps.map Slot.trees) = commas (qs.map Slot.trees)) :
    ps.map Slot.param = qs.map Slot.param := by
  have hparts : ∀ p : Slot, (∀ x ∈ p.typed, Reads 1 x.1 x.2) →
      p.trees ≠ [] ∧ Tree.leaf (.mark .comma) ∉ p.trees := by
    intro p hreads
    have hcomma : ∀ x ∈ p.typed, Tree.leaf (.mark .comma) ∉ x.1 := fun x hx =>
      (hreads x hx).comma_not_mem
    rcases p with ⟨_ | _, name, _ | _, _ | x⟩ <;> simp_all [Slot.trees]
  refine map_eq_of_intercalate (fun p hp => hparts p (hps p hp)) (fun q hq => hparts q (hqs q hq))
    (fun p hp q hq heq => ?_) h
  exact Slot.param_eq (fun x hx y hy hxy => hunique p hp x hx (hxy ▸ hqs q hq y hy)) heq

namespace Reads

variable {r s : Nat} {ts : List Tree} {t t' : Ty}

/-- Two readings of the same trees have the same rule at the top. -/
theorem root_of (form : Form) (h : Reads s ts t') (hroot : Root form ts t) : Root form ts t' := by
  obtain ⟨form', hroot'⟩ := h.root
  rwa [← hroot.formOf_eq, hroot'.formOf_eq]

/-- **The grammar is unambiguous.**  The trees are a type in one way only.  The
induction is on the first of two readings. -/
theorem unique (h : Reads r ts t) (h' : Reads s ts t') : t = t' := by
  induction h generalizing s t' with
  | name hname =>
      obtain ⟨token, heq, hname'⟩ := h'.root_of .name ⟨_, rfl, hname⟩
      injection heq with heq
      injection heq with heq
      exact hname.unique hname' heq
  | generic hname hsome hargs ih =>
      obtain ⟨name, args, heq, rfl, hargs'⟩ := h'.root_of .generic ⟨_, _, rfl, rfl, hargs⟩
      injection heq with hname heq
      injection heq with heq
      injection heq with _ heq
      cases hname
      rw [leveled.commas_unique hargs hargs' ih heq]
  | tuple hitems ih =>
      obtain ⟨items, heq, rfl, hitems'⟩ := h'.root_of .tuple ⟨_, rfl, rfl, hitems⟩
      injection heq with heq
      injection heq with _ heq
      rw [leveled.commas_unique hitems hitems' ih heq]
  | object hkeys hfields ih =>
      obtain ⟨fields, heq, rfl, hkeys', hfields'⟩ :=
        h'.root_of .object ⟨_, rfl, rfl, hkeys, hfields⟩
      injection heq with heq
      injection heq with _ heq
      rw [fieldTrees_unique (fun f hf => ⟨hkeys f hf, hfields f hf⟩)
        (fun f hf => ⟨hkeys' f hf, hfields' f hf⟩) ih heq]
  | paren h ih =>
      obtain ⟨inside, heq, hinside⟩ := h'.root_of .paren ⟨_, rfl, h⟩
      cases heq
      exact ih hinside
  | array helement ih =>
      obtain ⟨front, element, heq, rfl, helement'⟩ := h'.root_of .array ⟨_, _, rfl, rfl, helement⟩
      obtain ⟨rfl, -⟩ := List.append_inj' heq rfl
      rw [ih helement']
  | union htwo hmembers ih =>
      obtain ⟨members, heq, rfl, -, hmembers'⟩ :=
        h'.root_of .union ⟨_, rfl, rfl, htwo, hmembers⟩
      have hparts : ∀ x : List Tree × Ty, Reads 3 x.1 x.2 →
          x.1 ≠ [] ∧ Tree.leaf (.mark .bar) ∉ x.1 := fun x hx =>
        ⟨hx.ne_nil, fun hm => by simpa using hx.mark_of_mem hm⟩
      rw [map_eq_of_intercalate (fun x hx => hparts x (hmembers x hx))
        (fun x hx => hparts x (hmembers' x hx))
        (fun x hx y hy hxy => ih x hx (hxy ▸ hmembers' y hy)) heq]
  | fn hnames hparams hreturns ihParams ihReturns =>
      obtain ⟨params, behind, returns, heq, rfl, hparams', hreturns'⟩ :=
        h'.root_of .fn ⟨_, _, _, rfl, rfl, hparams, hreturns⟩
      injection heq with hinside heq
      injection hinside with _ hinside
      injection heq with _ heq
      subst heq
      rw [slots_unique hparams hparams' ihParams hinside, ihReturns hreturns']
  | tighter _ ih => exact ih h'

end Reads

end Ty

end AbiBindings.Script
