import AbiBindings.Proofs.Script.TypeGrammar
import AbiBindings.Script.Printer

/-!
# Types and their parentheses

A type may be the element of an array, a member of a union, what a function
returns or an item between brackets, and only in the first two places does the
printer ever write parentheses: around a union or a function in front of the
brackets of an array, and around a function in a union.  No other place needs
them, since each type that is written there binds tight enough
(`Ty.three_le_rank`, `Ty.three_le_rank_of_member`).

Types of all shapes are written as texts of the grammar (`Ty.isWritten`).  What
has to be known of the tokens for this is what a type starts with, because an
opening angle bracket goes on to other operators (`Ty.Plain.opens`), and what
follows a parameter, because a question mark does (`Ty.ParamEnds`).
-/

namespace AbiBindings.Script

namespace Ty

/-- Whether the type is a union. -/
def isUnion : Ty → Bool
  | .union _ => true
  | _ => false

/-- Types that are built from keywords, names, arrays, tuples, objects, functions
without default values and unions of at least two types that are no unions. -/
inductive Plain : Ty → Prop
  | string : Plain .string
  | number : Plain .number
  | boolean : Plain .boolean
  | any : Plain .any
  | void : Plain .void
  | ref {name : String} {args : List Ty} (hname : isIdentifier name = true)
      (hkeyword : name ∉ typeKeywords) (hargs : ∀ t ∈ args, Plain t) : Plain (.ref name args)
  | array {element : Ty} (helement : Plain element) : Plain (.array element)
  | tuple {items : List Ty} (hitems : ∀ t ∈ items, Plain t) : Plain (.tuple items)
  | object {fields : List (String × Ty)} (hfields : ∀ f ∈ fields, Plain f.2) :
      Plain (.object fields)
  | fn {params : List Param} {returns : Ty}
      (hnames : ∀ p ∈ params, isIdentifier p.name = true ∧ p.default = none)
      (htypes : ∀ p ∈ params, ∀ t ∈ p.ty, Plain t) (hreturns : Plain returns) :
      Plain (.fn params returns)
  | union {members : List Ty} (htwo : 2 ≤ members.length)
      (hflat : ∀ t ∈ members, t.isUnion = false) (hmembers : ∀ t ∈ members, Plain t) :
      Plain (.union members)

/-- The level of a type in the grammar. -/
def rank : Ty → Nat
  | .fn .. => 1
  | .union _ => 2
  | .array _ => 3
  | _ => 4

theorem one_le_rank (t : Ty) : 1 ≤ t.rank := by
  cases t <;> simp [rank]

/-- An element without parentheses binds as tight as the brackets behind it. -/
theorem three_le_rank {t : Ty} (h : t.isLoose = false) : 3 ≤ t.rank := by
  cases t <;> simp_all [isLoose, rank]

/-- A member without parentheses binds tighter than the bars around it, since it
is no union. -/
theorem three_le_rank_of_member {t : Ty} (h : t.isFunction = false) (hflat : t.isUnion = false) :
    3 ≤ t.rank := by
  cases t <;> simp_all [isFunction, isUnion, rank]

section Parts

variable (level : Nat)

theorem tyParts_eq (ts : List Ty) : tyParts level ts = ts.map (Ty.tokens level) := by
  induction ts with
  | nil => rfl
  | cons t rest ih => rw [tyParts, ih, List.map_cons]

theorem unionParts_eq (ts : List Ty) :
    unionParts level ts = ts.map fun t => Token.parenthesisedIf t.isFunction (t.tokens level) := by
  induction ts with
  | nil => rfl
  | cons t rest ih => rw [unionParts, ih, List.map_cons]

theorem fieldParts_eq (fields : List (String × Ty)) :
    fieldParts level fields = fields.map fun f =>
      [keyToken f.1, .mark .colon, .space] ++ f.2.tokens level ++ [.mark .semicolon] := by
  induction fields with
  | nil => rfl
  | cons f rest ih => rw [fieldParts, ih, List.map_cons]

theorem paramParts_eq (ps : List Param) : paramParts level ps = ps.map (Param.tokens level) := by
  induction ps with
  | nil => rfl
  | cons p rest ih => rw [paramParts, ih, List.map_cons]

end Parts

/-- A type starts with a character that does not go on behind an angle
bracket. -/
def Opens (width : Nat) (ts : List Token) : Prop :=
  ∃ c, c ∉ Mark.openAngle.goesOn ∧ ∀ next, Token.start width ts next = some c

namespace Opens

variable {width : Nat} {ts : List Token}

theorem append (h : Opens width ts) (us : List Token) : Opens width (ts ++ us) := by
  obtain ⟨c, hc, hstart⟩ := h
  exact ⟨c, hc, fun next => by rw [Token.start_append, hstart]⟩

theorem word {s : String} (hword : isWord s.toList = true) (us : List Token) :
    Opens width (.word s :: us) := by
  obtain ⟨⟨c, cs, hchars, -⟩, hall⟩ := isWord_iff.mp hword
  have hc : isWordChar c = true := hall c (hchars ▸ List.mem_cons_self)
  refine ⟨c, fun hgoes => ?_, fun next => Token.start_cons (t := .word s) hchars us⟩
  have hmarks : Mark.openAngle.goesOn.all (fun d => !isWordChar d) = true := by decide
  simpa [hc] using List.all_eq_true.mp hmarks c hgoes

theorem bracket (b : Bracket) (hb : b ≠ .angle) (us : List Token) :
    Opens width (.mark b.opening :: us) := by
  cases b with
  | paren => exact ⟨'(', by decide, fun _ => Token.start_mark (m := .openParen) rfl us⟩
  | square => exact ⟨'[', by decide, fun _ => Token.start_mark (m := .openBracket) rfl us⟩
  | brace => exact ⟨'\x7b', by decide, fun _ => Token.start_mark (m := .openBrace) rfl us⟩
  | angle => exact absurd rfl hb

theorem intercalate (h : Opens width ts) (sep : List Token) (rest : List (List Token)) :
    Opens width (List.intercalate sep (ts :: rest)) := by
  cases rest with
  | nil => simpa using h
  | cons us rest =>
      rw [List.intercalate_cons_cons]
      exact (h.append _).append _

theorem parenthesisedIf (h : Opens width ts) (loose : Bool) :
    Opens width (Token.parenthesisedIf loose ts) := by
  cases loose with
  | true => exact bracket .paren (by decide) _
  | false => exact h

end Opens

/-- **Start.**  The induction is on the type; an array starts with its element
and a union with its first member. -/
theorem Plain.opens {width level : Nat} {t : Ty} (h : t.Plain) : Opens width (t.tokens level) := by
  induction h with
  | string | number | boolean | any | void => exact .word (by decide) _
  | ref hname => exact .word (isIdentifier_iff.mp hname).1 _
  | array _ ih => exact (ih.parenthesisedIf _).append _
  | tuple => exact .bracket .square (by decide) _
  | @object fields _ _ =>
      rw [Ty.tokens]
      split
      · exact .bracket .brace (by decide) _
      · exact .bracket .brace (by decide) _
  | fn => exact .bracket .paren (by decide) _
  | @union members htwo _ _ ih =>
      obtain ⟨t, rest, rfl⟩ := List.exists_cons_of_length_pos (Nat.lt_of_succ_lt htwo)
      rw [Ty.tokens, unionParts_eq, List.map_cons]
      exact ((ih t List.mem_cons_self).parenthesisedIf _).intercalate _ _

section Writing

variable {width level : Nat} {t : Ty} {ts : List Token}

/-- What may stand behind a parameter. -/
def ParamEnds (next : Option Char) : Prop :=
  WordEnds next ∧ ∀ c ∈ next, c ∉ Mark.question.goesOn

theorem paramEnds_some {c : Char} (hword : isWordChar c = false)
    (hmark : c ∉ Mark.question.goesOn) : ParamEnds (some c) := by
  refine ⟨wordEnds_some hword, ?_⟩
  rintro d ⟨⟩
  exact hmark

/-- The type of a parameter, where it has one, is written behind a colon. -/
theorem exists_typed {ty : Option Ty}
    (h : ∀ t ∈ ty, IsWritten Reads width 1 t (t.tokens level)) :
    ∃ typed : Option (List Tree × Ty), typed.map Prod.snd = ty ∧
      (∀ x ∈ typed, Reads 1 x.1 x.2) ∧ ∀ next, ParamEnds next →
        ParamEnds (Token.start width (annotationTokens level ty) next) ∧
        Prints width next (annotationTokens level ty)
          (typed.elim [] fun (ts, _) => .leaf (.mark .colon) :: ts) := by
  cases ty with
  | none =>
      refine ⟨none, rfl, nofun, fun next hnext => ⟨?_, .nil⟩⟩
      rwa [annotationTokens, Token.start_nil]
  | some t =>
      obtain ⟨trees, hreads, hprints⟩ := h t rfl
      refine ⟨some (trees, t), rfl, fun x hx => ?_, fun next hnext => ⟨?_, ?_⟩⟩
      · cases hx
        exact hreads
      · rw [annotationTokens, List.cons_append, Token.start_mark (m := .colon) rfl]
        exact paramEnds_some (by decide) (by decide)
      · have hcolon : ∀ next, Prints width next [.mark .colon, .space] [.leaf (.mark .colon)] :=
          fun _ => Prints.markAndSpace rfl rfl
        exact (hcolon _).append (hprints next hnext.1)

/-- An optional parameter is written with a question mark behind its name. -/
theorem prints_optional (optional : Bool) {next : Option Char} (hnext : ParamEnds next) :
    WordEnds (Token.start width (if optional then [.mark .question] else []) next) ∧
      Prints width next (if optional then [.mark .question] else [])
        (if optional then [.leaf (.mark .question)] else []) := by
  cases optional with
  | true =>
      simp only [if_true, Token.start_mark (m := .question) rfl]
      exact ⟨wordEnds_some (by decide), .mark rfl hnext.2⟩
  | false =>
      simp only [Bool.false_eq_true, if_false, Token.start_nil]
      exact ⟨hnext.1, .nil⟩

theorem prints_rest (rest : Bool) (next : Option Char) :
    Prints width next (if rest then [.mark .ellipsis] else [])
      (if rest then [.leaf (.mark .ellipsis)] else []) := by
  cases rest with
  | true => exact .mark rfl fun _ _ => List.not_mem_nil
  | false => exact .nil

/-- **Step.**  A parameter is written with its marks and its type. -/
theorem exists_slot {p : Param} (hname : isIdentifier p.name = true) (hdefault : p.default = none)
    (htype : ∀ t ∈ p.ty, IsWritten Reads width 1 t (t.tokens level)) :
    ∃ slot : Slot, slot.param = p ∧ isIdentifier slot.name = true ∧
      (∀ x ∈ slot.typed, Reads 1 x.1 x.2) ∧
      ∀ next, ParamEnds next → Prints width next (slot.param.tokens level) slot.trees := by
  obtain ⟨name, ty, optional, rest, default⟩ := p
  subst hdefault
  obtain ⟨typed, rfl, hreads, hprints⟩ := exists_typed htype
  refine ⟨⟨rest, name, optional, typed⟩, rfl, hname, hreads, fun next hnext => ?_⟩
  obtain ⟨hends, htyped⟩ := hprints next hnext
  obtain ⟨hword, hoptional⟩ := prints_optional optional hends
  simp only [Slot.param, Param.tokens, defaultTokens, List.append_nil, Slot.trees]
  exact (((prints_rest rest _).append (.word (isIdentifier_iff.mp hname).1 hword)).append
    hoptional).append htyped

/-- **Step.**  A parameter list is written with a comma behind each parameter but
the last. -/
theorem exists_slots {params : List Param}
    (hnames : ∀ p ∈ params, isIdentifier p.name = true ∧ p.default = none)
    (htypes : ∀ p ∈ params, ∀ t ∈ p.ty, IsWritten Reads width 1 t (t.tokens level)) :
    ∃ slots : List Slot, slots.map Slot.param = params ∧
      (∀ p ∈ slots, isIdentifier p.name = true) ∧
      (∀ p ∈ slots, ∀ x ∈ p.typed, Reads 1 x.1 x.2) ∧
      Prints width (some ')') (Token.commaSeparated (paramParts level params))
        (commas (slots.map Slot.trees)) := by
  obtain ⟨slots, rfl, hslots⟩ := exists_map_eq fun p hp =>
    exists_slot (hnames p hp).1 (hnames p hp).2 (htypes p hp)
  refine ⟨slots, rfl, fun p hp => (hslots p hp).1, fun p hp => (hslots p hp).2.1, ?_⟩
  rw [paramParts_eq, List.map_map]
  exact Prints.commaSeparated (paramEnds_some (by decide) (by decide))
    (paramEnds_some (by decide) (by decide)) fun p hp => (hslots p hp).2.2

/-- A key of an object type is a word or a string. -/
theorem keyToken_cases (key : String) :
    (keyToken key = .word key ∧ isWord key.toList = true) ∨ keyToken key = .quoted key := by
  have hreserved : ∀ word ∈ reservedWords, isWord word.toList = true := by decide +kernel
  unfold keyToken
  split
  case isTrue h =>
    refine .inl ⟨rfl, ?_⟩
    rcases Bool.or_eq_true_iff.mp h with hident | hres
    · exact (isIdentifier_iff.mp hident).1
    · exact hreserved key (by simpa [isReserved] using hres)
  case isFalse => exact .inr rfl

/-- **Step.**  A field is written with its key and a semicolon. -/
theorem exists_field {f : String × Ty} (h : IsWritten Reads width 1 f.2 (f.2.tokens level)) :
    ∃ field : Field, (field.name, field.ty) = f ∧ field.IsKeyed ∧ Reads 1 field.trees field.ty ∧
      ∀ next, Prints width next
        ([keyToken field.name, .mark .colon, .space] ++ field.ty.tokens level
          ++ [.mark .semicolon])
        (field.part ++ [.leaf (.mark .semicolon)]) := by
  obtain ⟨name, ty⟩ := f
  obtain ⟨trees, hreads, hprints⟩ := h
  have hkey : ∀ {next}, WordEnds next →
      Prints width next [keyToken name] [.leaf (keyToken name)] := by
    intro next hnext
    rcases keyToken_cases name with ⟨hkey, hword⟩ | hkey
    · exact hkey ▸ .word hword hnext
    · exact hkey ▸ .quoted name
  refine ⟨⟨keyToken name, name, trees, ty⟩, rfl, keyToken_cases name, hreads, fun next => ?_⟩
  have hsemicolon : ∀ next, Prints width next [.mark .semicolon] [.leaf (.mark .semicolon)] :=
    fun _ => .mark rfl fun _ _ => List.not_mem_nil
  have hcolon : ∀ next, Prints width next [keyToken name, .mark .colon, .space]
      [.leaf (keyToken name), .leaf (.mark .colon)] := by
    intro next
    have hstart : Token.start width [.mark .colon, .space] next = some ':' :=
      Token.start_mark (m := .colon) rfl _
    exact (hkey (hstart ▸ wordEnds_some (by decide))).append (.markAndSpace rfl rfl)
  have htype :
      Prints width (Token.start width [.mark .semicolon] next) (ty.tokens level) trees := by
    rw [Token.start_mark (m := .semicolon) rfl]
    exact hprints _ (wordEnds_some (by decide))
  exact ((hcolon _).append htype).append (hsemicolon next)

/-- **Step.**  The fields of an object type are written behind each other between
braces. -/
theorem isWritten_object {fields : List (String × Ty)}
    (h : ∀ f ∈ fields, IsWritten Reads width 1 f.2 (f.2.tokens level)) :
    IsWritten Reads width 4 (.object fields) ((Ty.object fields).tokens level) := by
  obtain ⟨items, rfl, hitems⟩ := exists_map_eq fun f hf => exists_field (h f hf)
  refine ⟨_, .object (fun f hf => (hitems f hf).1) fun f hf => (hitems f hf).2.1, fun next _ => ?_⟩
  have hopen : ∀ {ts : List Token}, ∀ c ∈ Token.start width ts (some '\x7d'),
      c ∉ Bracket.brace.opening.goesOn := fun _ _ => List.not_mem_nil
  rw [Ty.tokens, fieldParts_eq, List.map_map]
  split
  case isTrue hempty =>
    have hnil : items = [] := by simpa using hempty
    subst hnil
    exact Prints.enclosed .brace hopen .nil
  case isFalse =>
    have hblank : WordEnds (some ' ') := wordEnds_some (by decide)
    have hfields := Prints.intercalate (fun _ => Token.start_space []) (fun _ => .space) hblank
      hblank fun f hf next _ => (hitems f hf).2.2 next
    have hlast : Token.start width [.space] (some '\x7d') = some ' ' := Token.start_space []
    rw [intercalate_nil_left, ← hlast] at hfields
    have hinside : Prints width next _ _ :=
      Prints.enclosed .brace hopen (Prints.space.append (hfields.append .space))
    simpa [Bracket.opening, Bracket.closing, fieldTrees, List.flatMap_def, Function.comp_def]
      using hinside

/-- **Step.**  The brackets of an array type are written behind its element. -/
theorem isWritten_array (h : IsWritten Reads width 3 t ts) :
    IsWritten Reads width 3 (.array t) (ts ++ [.mark .openBracket, .mark .closeBracket]) := by
  obtain ⟨trees, hreads, hprints⟩ := h
  refine ⟨_, hreads.array, fun next _ => Prints.append ?_ (Prints.bracketed .nil)⟩
  rw [Token.start_mark (m := .openBracket) rfl]
  exact hprints _ (wordEnds_some (by decide))

theorem opens_commaSeparated {items : List Ty} (hsome : items ≠ [])
    (h : ∀ t ∈ items, Opens width (t.tokens level)) :
    Opens width (Token.commaSeparated (tyParts level items)) := by
  obtain ⟨t, rest, rfl⟩ := List.exists_cons_of_ne_nil hsome
  rw [tyParts_eq, Token.commaSeparated, List.map_cons]
  exact (h t List.mem_cons_self).intercalate _ _

/-- Types that are written can be listed with the trees of their texts. -/
theorem exists_commas {items : List Ty}
    (h : ∀ t ∈ items, IsWritten Reads width t.rank t (t.tokens level)) :
    ∃ read : List (List Tree × Ty), read.map Prod.snd = items ∧
      (∀ x ∈ read, Reads 1 x.1 x.2) ∧
      ∀ next, WordEnds next → Prints width next (Token.commaSeparated (tyParts level items))
        (commas (read.map Prod.fst)) := by
  rw [tyParts_eq]
  exact IsWritten.exists_commas fun t ht => (h t ht).weaken Reads.leveled t.one_le_rank

/-- **Step.**  The arguments of a name are written between angle brackets behind
it. -/
theorem isWritten_generic {name : String} {args : List Ty} (hname : isIdentifier name = true)
    (hsome : args ≠ []) (hopens : ∀ t ∈ args, Opens width (t.tokens level))
    (hargs : ∀ t ∈ args, IsWritten Reads width t.rank t (t.tokens level)) :
    IsWritten Reads width 4 (.ref name args)
      (.word name :: .mark .openAngle ::
        (Token.commaSeparated (tyParts level args) ++ [.mark .closeAngle])) := by
  have hopen : ∀ c ∈ Token.start width (Token.commaSeparated (tyParts level args)) (some '>'),
      c ∉ Mark.openAngle.goesOn := by
    obtain ⟨c, hc, hstart⟩ := opens_commaSeparated hsome hopens
    rw [hstart]
    rintro d ⟨⟩
    exact hc
  obtain ⟨items, rfl, hreads, hinside⟩ := exists_commas hargs
  refine ⟨_, .generic hname (fun hnil => hsome (hnil ▸ rfl)) hreads, fun next _ => ?_⟩
  have hangle : Prints width next _ _ :=
    Prints.enclosed .angle hopen (hinside _ (wordEnds_some (by decide)))
  have hstart : ∀ us, Token.start width (.mark .openAngle :: us) next = some '<' :=
    Token.start_mark (m := .openAngle) rfl
  have hword : WordEnds (some '<') := wordEnds_some (by decide)
  exact Prints.append (.word (isIdentifier_iff.mp hname).1 (hstart _ ▸ hword)) hangle

/-- **Step.**  The members of a union are written with a bar between them. -/
theorem isWritten_union {members : List Ty} (htwo : 2 ≤ members.length)
    (h : ∀ t ∈ members,
      IsWritten Reads width 3 t (Token.parenthesisedIf t.isFunction (t.tokens level))) :
    IsWritten Reads width 2 (.union members) ((Ty.union members).tokens level) := by
  obtain ⟨items, rfl, hitems⟩ := IsWritten.exists_parts h
  rw [List.length_map] at htwo
  refine ⟨_, .union htwo fun x hx => (hitems x hx).1, fun next hnext => ?_⟩
  rw [Ty.tokens, unionParts_eq, List.map_map]
  exact Prints.intercalate (fun _ => Token.start_space _) (fun _ => .markBetweenSpaces rfl)
    (wordEnds_some (by decide)) hnext fun x hx => (hitems x hx).2

/-- **Step.**  The parameters of a function type are written before an arrow and
what it returns. -/
theorem isWritten_fn {params : List Param} {returns : Ty}
    (hnames : ∀ p ∈ params, isIdentifier p.name = true ∧ p.default = none)
    (htypes : ∀ p ∈ params, ∀ t ∈ p.ty, IsWritten Reads width 1 t (t.tokens level))
    (hreturns : IsWritten Reads width 1 returns (returns.tokens level)) :
    IsWritten Reads width 1 (.fn params returns) ((Ty.fn params returns).tokens level) := by
  obtain ⟨slots, rfl, hidents, hslots, hinside⟩ := exists_slots hnames htypes
  obtain ⟨trees, hreads, hprints⟩ := hreturns
  refine ⟨_, .fn hidents hslots hreads, fun next hnext => ?_⟩
  have harrow : ∀ next, Prints width next [.space, .mark .arrow, .space] [.leaf (.mark .arrow)] :=
    fun _ => .markBetweenSpaces rfl
  rw [Ty.tokens]
  exact (hinside.parenthesised.append (harrow _)).append (hprints next hnext)

/-- **Printing.**  A type is written as a text of its level.  The induction is on
the type; an element or a member has parentheses unless it binds tighter than
what stands beside it. -/
theorem isWritten (h : t.Plain) : IsWritten Reads width t.rank t (t.tokens level) := by
  induction h with
  | string => exact ⟨_, .name .string, fun _ => Prints.word (by decide)⟩
  | number => exact ⟨_, .name .number, fun _ => Prints.word (by decide)⟩
  | boolean => exact ⟨_, .name .boolean, fun _ => Prints.word (by decide)⟩
  | any => exact ⟨_, .name .any, fun _ => Prints.word (by decide)⟩
  | void => exact ⟨_, .name .void, fun _ => Prints.word (by decide)⟩
  | @ref name args hname hkeyword hargs ih =>
      rw [Ty.tokens, Token.angled]
      cases args with
      | nil =>
          exact ⟨_, .name (.ref hname hkeyword), fun _ => .word (isIdentifier_iff.mp hname).1⟩
      | cons t rest =>
          exact isWritten_generic hname (by simp) (fun t ht => (hargs t ht).opens) ih
  | @array element _ ih =>
      rw [Ty.tokens]
      exact isWritten_array
        (ih.operand Reads.leveled element.one_le_rank (by decide) three_le_rank)
  | tuple _ ih =>
      obtain ⟨items, rfl, hitems, hinside⟩ := exists_commas ih
      exact ⟨_, .tuple hitems, fun _ _ => (hinside _ (wordEnds_some (by decide))).bracketed⟩
  | object _ ih =>
      exact isWritten_object fun f hf => (ih f hf).weaken Reads.leveled f.2.one_le_rank
  | @fn params returns hnames _ _ ihTypes ihReturns =>
      exact isWritten_fn hnames
        (fun p hp t ht => (ihTypes p hp t ht).weaken Reads.leveled t.one_le_rank)
        (ihReturns.weaken Reads.leveled returns.one_le_rank)
  | union htwo hflat _ ih =>
      exact isWritten_union htwo fun t ht => (ih t ht).operand Reads.leveled t.one_le_rank
        (by decide) fun hfn => three_le_rank_of_member hfn (hflat t ht)

end Writing

/-- **Types.**  Whatever is read from the text of a type by the grammar is the
type that was printed, and it can be read; so no two types print alike. -/
theorem isReadFrom_tokens_iff (width level : Nat) (t : Ty) (h : t.Plain) :
    (∀ t', IsReadFrom (Token.render width (t.tokens level)) t' ↔ t' = t) ∧
      ∀ width' level' (u : Ty), u.Plain →
        Token.render width (t.tokens level) = Token.render width' (u.tokens level') → t = u := by
  have hread : ∀ width level (t : Ty), t.Plain → ∀ t',
      IsReadFrom (Token.render width (t.tokens level)) t' ↔ t' = t := by
    intro width level t ht t'
    have hwritten : IsWritten Reads width 1 t (t.tokens level) :=
      (isWritten ht).weaken Reads.leveled t.one_le_rank
    exact hwritten.read_iff (fun hreads hreads' => hreads.unique hreads') t'
  refine ⟨hread width level t h, fun width' level' u hu heq => ?_⟩
  exact (hread width' level' u hu t).mp (heq ▸ (hread width level t h t).mpr rfl)

/-- A function type with two kinds of parameters. -/
def sampleCallback : Ty :=
  .fn [{ name := "x", ty := some (.ref "T" []), optional := true }, { name := "r", rest := true }]
    (.union [.void, .number])

/-- An object type with an array of a union with a function in it. -/
def sampleType : Ty :=
  .object [("a b", .array (.union [.string, sampleCallback])),
    ("default", .ref "Map" [.tuple [], .array (.ref "A" [])])]

theorem isReadFrom_tokens_iff_sampleType :
    sampleType.Plain ∧
      Token.render 4 (sampleType.tokens 0) =
        "\x7b \"a b\": (string | ((x?: T, ...r) => void | number))[]; default: Map<[], A[]>; \x7d" ∧
      (∀ t', IsReadFrom (Token.render 4 (sampleType.tokens 0)) t' ↔ t' = sampleType) ∧
      Token.render 4 (sampleType.tokens 0) ≠ Token.render 4 ((Ty.array sampleType).tokens 0) := by
  have hT : Plain (.ref "T" []) := .ref (by decide) (by decide) (by simp)
  have hA : Plain (.ref "A" []) := .ref (by decide) (by decide) (by simp)
  have hcallback : sampleCallback.Plain := by
    refine .fn (by simp; decide) (List.forall_mem_cons.mpr ⟨?_, by simp⟩) ?_
    · rintro t ⟨⟩
      exact hT
    · exact .union (by decide) (by simp [isUnion])
        (List.forall_mem_cons.mpr ⟨.void, List.forall_mem_singleton.mpr .number⟩)
  have hunion : Plain (.union [.string, sampleCallback]) :=
    .union (by decide) (by simp [isUnion, sampleCallback])
      (List.forall_mem_cons.mpr ⟨.string, List.forall_mem_singleton.mpr hcallback⟩)
  have hmap : Plain (.ref "Map" [.tuple [], .array (.ref "A" [])]) :=
    .ref (by decide) (by decide) (List.forall_mem_cons.mpr
      ⟨.tuple (by simp), List.forall_mem_singleton.mpr (.array hA)⟩)
  have hplain : sampleType.Plain :=
    .object (List.forall_mem_cons.mpr ⟨.array hunion, List.forall_mem_singleton.mpr hmap⟩)
  obtain ⟨hread, hprint⟩ := isReadFrom_tokens_iff 4 0 sampleType hplain
  exact ⟨hplain, rfl, hread, fun heq => nomatch hprint 4 0 (.array sampleType) (.array hplain) heq⟩

end Ty

end AbiBindings.Script
