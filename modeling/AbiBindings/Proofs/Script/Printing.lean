import AbiBindings.Proofs.Script.Texts

/-!
# What printing writes

Printing adds nothing of its own but keywords, numbers, marks and layout:
whatever holds of all these holds of all tokens of a tree exactly when it
holds of its texts as they are written (`Module.forall_tokens_iff`).  So each
printed token is a fixed one or a written text of the tree, and each text of
the tree is written.  The proof follows the printer, one equivalence per
printing function.
-/

namespace AbiBindings.Script

/-- The keywords that printing adds. -/
def keywords : List String :=
  ["string", "number", "boolean", "any", "void", "undefined", "this", "new", "typeof", "const",
    "return", "if", "else", "throw", "private", "constructor", "export", "import", "from",
    "interface", "class", "function", "namespace"]

/-- What holds of all tokens that printing adds. -/
structure HoldsOfFixed (P : Token → Prop) : Prop where
  keyword : ∀ s ∈ keywords, P (.word s)
  number : ∀ n, P (.number n)
  mark : ∀ m, P (.mark m)
  space : P .space
  newline : P .newline
  indent : ∀ level, P (.indent level)

section Printing

variable {P : Token → Prop}

/-- What holds of a separator holds of all tokens when it holds of those of
the parts. -/
private theorem forall_mem_intercalate {sep : List Token} (hsep : ∀ t ∈ sep, P t)
    (parts : List (List Token)) :
    (∀ t ∈ List.intercalate sep parts, P t) ↔ ∀ part ∈ parts, ∀ t ∈ part, P t := by
  match parts with
  | [] => simp
  | [part] => simp
  | part :: next :: rest =>
      rw [List.intercalate_cons_cons, List.forall_mem_append, List.forall_mem_append,
        forall_mem_intercalate hsep (next :: rest), List.forall_mem_cons (l := next :: rest),
        and_iff_left hsep]

variable (h : HoldsOfFixed P)
include h

private theorem forall_mem_commaSeparated (parts : List (List Token)) :
    (∀ t ∈ Token.commaSeparated parts, P t) ↔ ∀ part ∈ parts, ∀ t ∈ part, P t :=
  forall_mem_intercalate (by simp [h.mark, h.space]) parts

private theorem forall_mem_parenthesised (ts : List Token) :
    (∀ t ∈ Token.parenthesised ts, P t) ↔ ∀ t ∈ ts, P t := by
  simp [Token.parenthesised, or_imp, forall_and, h.mark]

private theorem forall_mem_bracketed (ts : List Token) :
    (∀ t ∈ Token.bracketed ts, P t) ↔ ∀ t ∈ ts, P t := by
  simp [Token.bracketed, or_imp, forall_and, h.mark]

private theorem forall_mem_angled (parts : List (List Token)) :
    (∀ t ∈ Token.angled parts, P t) ↔ ∀ part ∈ parts, ∀ t ∈ part, P t := by
  cases parts with
  | nil => simp [Token.angled]
  | cons part rest =>
      rw [← forall_mem_commaSeparated h]
      simp [Token.angled, or_imp, forall_and, h.mark]

private theorem forall_mem_linesBetweenBraces (level : Nat) (lines : List Token) :
    (∀ t ∈ Token.linesBetweenBraces level lines, P t) ↔ ∀ t ∈ lines, P t := by
  simp [Token.linesBetweenBraces, or_imp, forall_and, h.mark, h.newline, h.indent]

private theorem forall_mem_block (level : Nat) (parts : List (List Token)) :
    (∀ t ∈ Token.block level parts, P t) ↔ ∀ part ∈ parts, ∀ t ∈ part, P t := by
  cases parts with
  | nil => simp [Token.block, h.mark]
  | cons part rest =>
      have hlines : Token.block level (part :: rest) =
          Token.linesBetweenBraces level (List.intercalate [.newline] (part :: rest)) := rfl
      rw [hlines, forall_mem_linesBetweenBraces h, forall_mem_intercalate (by simp [h.newline])]

private theorem forall_mem_parenthesisedIf (needed : Bool) (ts : List Token) :
    (∀ t ∈ Token.parenthesisedIf needed ts, P t) ↔ ∀ t ∈ ts, P t := by
  cases needed with
  | false => rfl
  | true => exact forall_mem_parenthesised h ts

omit h in
private theorem forall_mem_words (names : List String) :
    (∀ part ∈ names.map fun n => [Token.word n], ∀ t ∈ part, P t) ↔
      ∀ x ∈ Place.binder.all names, P (x.1.token x.2) := by
  simp [Place.all, Place.token]

private theorem forall_mem_typeParamTokens (names : List String) :
    (∀ t ∈ typeParamTokens names, P t) ↔ ∀ x ∈ Place.binder.all names, P (x.1.token x.2) := by
  rw [typeParamTokens, forall_mem_angled h, forall_mem_words]

-- in the lists of one kind the hypothesis is only handed on
set_option linter.unusedSectionVars false

mutual

theorem Ty.forall_tokens_iff : (t : Ty) → ∀ level,
    (∀ s ∈ t.tokens level, P s) ↔ ∀ x ∈ t.texts, P (x.1.token x.2)
  | .string, level | .number, level | .boolean, level | .any, level | .void, level => by
      simp (disch := decide) [Ty.tokens, Ty.texts, h.keyword]
  | .ref name args, level => by
      simp only [Ty.tokens, Ty.texts, List.forall_mem_cons, forall_mem_angled h,
        Ty.forall_parts_iff args level, Place.token]
  | .array element, level => by
      simp only [Ty.tokens, Ty.texts, List.forall_mem_append, forall_mem_parenthesisedIf h,
        Ty.forall_tokens_iff element level]
      simp [h.mark]
  | .tuple items, level => by
      rw [Ty.tokens, Ty.texts, forall_mem_bracketed h, forall_mem_commaSeparated h,
        Ty.forall_parts_iff items level]
  | .union members, level => by
      rw [Ty.tokens, Ty.texts, forall_mem_intercalate (by simp [h.mark, h.space]),
        Ty.forall_unionParts_iff members level]
  | .object fields, level => by
      rw [Ty.texts, ← Ty.forall_fieldParts_iff fields level]
      cases fields with
      | nil => simp [Ty.tokens, fieldParts, h.mark]
      | cons field rest =>
          have hspace : ∀ s ∈ [Token.space], P s := by simp [h.space]
          rw [← forall_mem_intercalate hspace]
          simp only [Ty.tokens, List.isEmpty_cons, Bool.false_eq_true, if_false,
            List.forall_mem_append]
          simp [h.mark, h.space]
  | .fn params returns, level => by
      simp only [Ty.tokens, Ty.texts, List.forall_mem_append, forall_mem_parenthesised h,
        forall_mem_commaSeparated h, Param.forall_parts_iff params level,
        Ty.forall_tokens_iff returns level]
      simp [h.mark, h.space]

theorem Ty.forall_parts_iff : (ts : List Ty) → ∀ level,
    (∀ part ∈ tyParts level ts, ∀ s ∈ part, P s) ↔ ∀ x ∈ Ty.textsOfAll ts, P (x.1.token x.2)
  | [], level => by simp [tyParts, Ty.textsOfAll]
  | t :: rest, level => by
      simp only [tyParts, Ty.textsOfAll, List.forall_mem_cons, List.forall_mem_append,
        Ty.forall_tokens_iff t level, Ty.forall_parts_iff rest level]

theorem Ty.forall_unionParts_iff : (ts : List Ty) → ∀ level,
    (∀ part ∈ unionParts level ts, ∀ s ∈ part, P s) ↔
      ∀ x ∈ Ty.textsOfAll ts, P (x.1.token x.2)
  | [], level => by simp [unionParts, Ty.textsOfAll]
  | t :: rest, level => by
      simp only [unionParts, Ty.textsOfAll, List.forall_mem_cons, List.forall_mem_append,
        forall_mem_parenthesisedIf h, Ty.forall_tokens_iff t level,
        Ty.forall_unionParts_iff rest level]

theorem Ty.forall_fieldParts_iff : (fields : List (String × Ty)) → ∀ level,
    (∀ part ∈ fieldParts level fields, ∀ s ∈ part, P s) ↔
      ∀ x ∈ Ty.textsOfFields fields, P (x.1.token x.2)
  | [], level => by simp [fieldParts, Ty.textsOfFields]
  | (key, t) :: rest, level => by
      simp only [fieldParts, Ty.textsOfFields, List.forall_mem_cons, List.forall_mem_append,
        Ty.forall_tokens_iff t level, Ty.forall_fieldParts_iff rest level, Place.token]
      simp [h.mark, h.space, and_assoc]

theorem Param.forall_tokens_iff : (p : Param) → ∀ level,
    (∀ s ∈ p.tokens level, P s) ↔ ∀ x ∈ p.texts, P (x.1.token x.2)
  | ⟨name, ty, optional, rest, default⟩, level => by
      have hrest : ∀ s ∈ if rest then [Token.mark .ellipsis] else [], P s := by
        cases rest <;> simp [h.mark]
      have hoptional : ∀ s ∈ if optional then [Token.mark .question] else [], P s := by
        cases optional <;> simp [h.mark]
      simp only [Param.tokens, Param.texts, List.forall_mem_append, List.forall_mem_cons,
        Ty.forall_annotation_iff ty level, Expr.forall_default_iff default level, Place.token,
        eq_true hrest, eq_true hoptional]
      simp [and_assoc]

theorem Param.forall_parts_iff : (ps : List Param) → ∀ level,
    (∀ part ∈ paramParts level ps, ∀ s ∈ part, P s) ↔
      ∀ x ∈ Param.textsOfAll ps, P (x.1.token x.2)
  | [], level => by simp [paramParts, Param.textsOfAll]
  | p :: rest, level => by
      simp only [paramParts, Param.textsOfAll, List.forall_mem_cons, List.forall_mem_append,
        Param.forall_tokens_iff p level, Param.forall_parts_iff rest level]

theorem Ty.forall_annotation_iff : (t : Option Ty) → ∀ level,
    (∀ s ∈ annotationTokens level t, P s) ↔ ∀ x ∈ Ty.textsOfOption t, P (x.1.token x.2)
  | none, level => by simp [annotationTokens, Ty.textsOfOption]
  | some t, level => by
      simp only [annotationTokens, Ty.textsOfOption, List.forall_mem_append,
        Ty.forall_tokens_iff t level]
      simp [h.mark, h.space]

theorem Expr.forall_default_iff : (e : Option Expr) → ∀ level,
    (∀ s ∈ defaultTokens level e, P s) ↔ ∀ x ∈ Expr.textsOfOption e, P (x.1.token x.2)
  | none, level => by simp [defaultTokens, Expr.textsOfOption]
  | some e, level => by
      simp only [defaultTokens, Expr.textsOfOption, List.forall_mem_append,
        Expr.forall_tokens_iff e level]
      simp [h.mark, h.space]

theorem Expr.forall_tokens_iff : (e : Expr) → ∀ level,
    (∀ s ∈ e.tokens level, P s) ↔ ∀ x ∈ e.texts, P (x.1.token x.2)
  | .ident name, level | .str value, level => by simp [Expr.tokens, Expr.texts, Place.token]
  | .num value, level => by simp [Expr.tokens, Expr.texts, h.number]
  | .undefined, level | .this, level => by
      simp (disch := decide) [Expr.tokens, Expr.texts, h.keyword]
  | .array items, level => by
      rw [Expr.tokens, Expr.texts, forall_mem_bracketed h, forall_mem_commaSeparated h,
        Expr.forall_parts_iff items level]
  | .object entries, level => by
      rw [Expr.tokens, Expr.texts, forall_mem_block h, Expr.forall_entryParts_iff entries]
  | .prop object name, level => by
      simp only [Expr.tokens, Expr.texts, List.forall_mem_append, forall_mem_parenthesisedIf h,
        Expr.forall_tokens_iff object level]
      simp [h.mark, Place.token]
  | .call callee typeArgs args, level => by
      simp only [Expr.tokens, Expr.texts, List.forall_mem_append, forall_mem_parenthesisedIf h,
        forall_mem_angled h, forall_mem_parenthesised h, forall_mem_commaSeparated h,
        Expr.forall_tokens_iff callee level, Ty.forall_parts_iff typeArgs level,
        Expr.forall_parts_iff args level, and_assoc]
  | .new callee typeArgs args, level => by
      simp only [Expr.tokens, Expr.texts, List.forall_mem_append, forall_mem_parenthesisedIf h,
        forall_mem_angled h, forall_mem_parenthesised h, forall_mem_commaSeparated h,
        Expr.forall_tokens_iff callee level, Ty.forall_parts_iff typeArgs level,
        Expr.forall_parts_iff args level, and_assoc]
      simp (disch := decide) [h.keyword, h.space]
  | .binary left op right, level => by
      simp only [Expr.tokens, Expr.texts, List.forall_mem_append, forall_mem_parenthesisedIf h,
        Expr.forall_tokens_iff left level, Expr.forall_tokens_iff right level]
      simp [h.mark, h.space]
  | .typeOf operand, level => by
      simp only [Expr.tokens, Expr.texts, List.forall_mem_append, forall_mem_parenthesisedIf h,
        Expr.forall_tokens_iff operand level]
      simp (disch := decide) [h.keyword, h.space]
  | .assign target value, level => by
      simp only [Expr.tokens, Expr.texts, List.forall_mem_append,
        Expr.forall_tokens_iff target level, Expr.forall_tokens_iff value level]
      simp [h.mark, h.space]
  | .arrow typeParams params returns body, level => by
      simp only [Expr.tokens, Expr.texts, List.forall_mem_append, forall_mem_typeParamTokens h,
        forall_mem_parenthesised h, forall_mem_commaSeparated h, forall_mem_block h,
        Param.forall_parts_iff params level, Ty.forall_annotation_iff returns level,
        Stmt.forall_parts_iff body]
      simp [h.mark, h.space, and_assoc]

theorem Expr.forall_parts_iff : (es : List Expr) → ∀ level,
    (∀ part ∈ exprParts level es, ∀ s ∈ part, P s) ↔
      ∀ x ∈ Expr.textsOfAll es, P (x.1.token x.2)
  | [], level => by simp [exprParts, Expr.textsOfAll]
  | e :: rest, level => by
      simp only [exprParts, Expr.textsOfAll, List.forall_mem_cons, List.forall_mem_append,
        Expr.forall_tokens_iff e level, Expr.forall_parts_iff rest level]

theorem Expr.forall_entryParts_iff : (entries : List (String × Expr)) → ∀ level,
    (∀ part ∈ entryParts level entries, ∀ s ∈ part, P s) ↔
      ∀ x ∈ Expr.textsOfEntries entries, P (x.1.token x.2)
  | [], level => by simp [entryParts, Expr.textsOfEntries]
  | (key, e) :: rest, level => by
      simp only [entryParts, Expr.textsOfEntries, List.forall_mem_cons, List.forall_mem_append,
        Expr.forall_tokens_iff e level, Expr.forall_entryParts_iff rest level, Place.token]
      simp [h.mark, h.space, h.indent, and_assoc]

theorem Expr.forall_return_iff : (e : Option Expr) → ∀ level,
    (∀ s ∈ returnTokens level e, P s) ↔ ∀ x ∈ Expr.textsOfOption e, P (x.1.token x.2)
  | none, level => by simp [returnTokens, Expr.textsOfOption]
  | some e, level => by
      simp only [returnTokens, Expr.textsOfOption, List.forall_mem_cons,
        Expr.forall_tokens_iff e level, eq_true h.space, true_and]

theorem Stmt.forall_tokens_iff : (s : Stmt) → ∀ level,
    (∀ t ∈ s.tokens level, P t) ↔ ∀ x ∈ s.texts, P (x.1.token x.2)
  | .const name init, level => by
      simp only [Stmt.tokens, Stmt.texts, List.forall_mem_append, List.forall_mem_cons,
        Expr.forall_tokens_iff init level, Place.token]
      simp (disch := decide) [h.mark, h.space, h.indent, h.keyword]
  | .constArray names init, level => by
      simp only [Stmt.tokens, Stmt.texts, List.forall_mem_append, forall_mem_bracketed h,
        forall_mem_commaSeparated h, forall_mem_words, Expr.forall_tokens_iff init level]
      simp (disch := decide) [h.mark, h.space, h.indent, h.keyword]
  | .expr e, level => by
      simp only [Stmt.tokens, Stmt.texts, List.forall_mem_cons, List.forall_mem_append,
        Expr.forall_tokens_iff e level]
      simp [h.mark, h.indent]
  | .ret value, level => by
      simp only [Stmt.tokens, Stmt.texts, List.forall_mem_append,
        Expr.forall_return_iff value level]
      simp (disch := decide) [h.mark, h.indent, h.keyword]
  | .cond test thenBody elseBody, level => by
      have helse : (∀ t ∈ if elseBody.isEmpty then [] else [.space, .word "else", .space] ++
            Token.block level (stmtParts (level + 1) elseBody), P t) ↔
          ∀ x ∈ Stmt.textsOfAll elseBody, P (x.1.token x.2) := by
        rw [← Stmt.forall_parts_iff elseBody (level + 1), ← forall_mem_block h level]
        cases elseBody with
        | nil => simp [stmtParts, Token.block, h.mark]
        | cons s rest => simp (disch := decide) [h.space, h.keyword]
      simp only [Stmt.tokens, Stmt.texts, List.forall_mem_append, forall_mem_parenthesised h,
        forall_mem_block h, Expr.forall_tokens_iff test level,
        Stmt.forall_parts_iff thenBody, helse]
      simp (disch := decide) [h.space, h.indent, h.keyword, and_assoc]
  | .throw value, level => by
      simp only [Stmt.tokens, Stmt.texts, List.forall_mem_append,
        Expr.forall_tokens_iff value level]
      simp (disch := decide) [h.mark, h.space, h.indent, h.keyword]

theorem Stmt.forall_parts_iff : (body : List Stmt) → ∀ level,
    (∀ part ∈ stmtParts level body, ∀ t ∈ part, P t) ↔
      ∀ x ∈ Stmt.textsOfAll body, P (x.1.token x.2)
  | [], level => by simp [stmtParts, Stmt.textsOfAll]
  | s :: rest, level => by
      simp only [stmtParts, Stmt.textsOfAll, List.forall_mem_cons, List.forall_mem_append,
        Stmt.forall_tokens_iff s level, Stmt.forall_parts_iff rest level]

end

private theorem forall_mem_bodyTokens (level : Nat) (body : List Stmt) :
    (∀ t ∈ bodyTokens level body, P t) ↔ ∀ x ∈ Stmt.textsOfAll body, P (x.1.token x.2) := by
  rw [bodyTokens, forall_mem_block h, Stmt.forall_parts_iff h]

private theorem forall_mem_paramListTokens (level : Nat) (params : List Param) :
    (∀ t ∈ paramListTokens level params, P t) ↔
      ∀ x ∈ Param.textsOfAll params, P (x.1.token x.2) := by
  rw [paramListTokens, forall_mem_parenthesised h, forall_mem_commaSeparated h,
    Param.forall_parts_iff h]

private theorem forall_mem_exportTokens (exported : Bool) :
    ∀ t ∈ exportTokens exported, P t := by
  cases exported
  · simp [exportTokens]
  · simp (disch := decide) [exportTokens, h.keyword, h.space]

private theorem forall_mem_visibilityTokens (visibility : Visibility) :
    ∀ t ∈ visibility.tokens, P t := by
  cases visibility
  · simp [Visibility.tokens]
  · simp (disch := decide) [Visibility.tokens, h.keyword, h.space]

theorem InterfaceMethod.forall_tokens_iff (m : InterfaceMethod) (level : Nat) :
    (∀ t ∈ m.tokens level, P t) ↔ ∀ x ∈ m.texts, P (x.1.token x.2) := by
  simp only [InterfaceMethod.tokens, InterfaceMethod.texts, List.forall_mem_append,
    List.forall_mem_cons, forall_mem_paramListTokens h, Ty.forall_tokens_iff h, Place.token]
  simp [h.mark, h.space, h.indent, and_assoc]

theorem Member.forall_tokens_iff (m : Member) (level : Nat) :
    (∀ t ∈ m.tokens level, P t) ↔ ∀ x ∈ m.texts, P (x.1.token x.2) := by
  cases m with
  | property visibility name ty =>
      simp only [Member.tokens, Member.texts, List.forall_mem_append, List.forall_mem_cons,
        eq_true (forall_mem_visibilityTokens h visibility), Ty.forall_tokens_iff h, Place.token]
      simp [h.mark, h.space, h.indent]
  | constructor params body =>
      simp only [Member.tokens, Member.texts, List.forall_mem_append,
        forall_mem_paramListTokens h, forall_mem_bodyTokens h]
      simp (disch := decide) [h.space, h.indent, h.keyword]
  | method visibility name params returns body =>
      simp only [Member.tokens, Member.texts, List.forall_mem_append, List.forall_mem_cons,
        eq_true (forall_mem_visibilityTokens h visibility), forall_mem_paramListTokens h,
        Ty.forall_annotation_iff h, forall_mem_bodyTokens h, Place.token]
      simp [h.space, h.indent, and_assoc]

private theorem forall_mem_memberLines (level : Nat) (members : List Member) :
    (∀ t ∈ memberLines level members, P t) ↔
      ∀ x ∈ members.flatMap Member.texts, P (x.1.token x.2) := by
  match members with
  | [] => simp [memberLines]
  | [m] => simpa [memberLines] using m.forall_tokens_iff h level
  | m :: next :: rest =>
      have hlines : ∀ t ∈ if m.isProperty && next.isProperty then [Token.newline]
          else [.newline, .newline], P t := by
        split <;> simp [h.newline]
      simp only [memberLines, List.flatMap_cons, List.forall_mem_append,
        m.forall_tokens_iff h, eq_true hlines, forall_mem_memberLines level (next :: rest),
        and_true]

mutual

theorem Decl.forall_tokens_iff : (d : Decl) → ∀ level,
    (∀ t ∈ d.tokens level, P t) ↔ ∀ x ∈ d.texts, P (x.1.token x.2)
  | .imports names source, level => by
      simp only [Decl.tokens, Decl.texts, List.forall_mem_append, forall_mem_commaSeparated h,
        forall_mem_words, List.forall_mem_cons, Place.token]
      simp (disch := decide) [h.mark, h.space, h.indent, h.keyword]
  | .interface exported name typeParams methods, level => by
      have hmethods : (∀ part ∈ methods.map (·.tokens (level + 1)), ∀ t ∈ part, P t) ↔
          ∀ x ∈ methods.flatMap InterfaceMethod.texts, P (x.1.token x.2) := by
        rw [List.forall_mem_flatMap, List.forall_mem_map]
        exact forall₂_congr fun m _ => m.forall_tokens_iff h (level + 1)
      have hline : ∀ t ∈ [Token.newline], P t := by simp [h.newline]
      simp only [Decl.tokens, Decl.texts, List.forall_mem_append, List.forall_mem_cons,
        eq_true (forall_mem_exportTokens h exported), forall_mem_typeParamTokens h,
        forall_mem_linesBetweenBraces h, forall_mem_intercalate hline, hmethods, Place.token]
      simp (disch := decide) [h.space, h.indent, h.keyword, and_assoc]
  | .class exported name typeParams members, level => by
      simp only [Decl.tokens, Decl.texts, List.forall_mem_append, List.forall_mem_cons,
        eq_true (forall_mem_exportTokens h exported), forall_mem_typeParamTokens h,
        forall_mem_linesBetweenBraces h, forall_mem_memberLines h, Place.token]
      simp (disch := decide) [h.space, h.indent, h.keyword, and_assoc]
  | .function exported name typeParams params returns body, level => by
      simp only [Decl.tokens, Decl.texts, List.forall_mem_append, List.forall_mem_cons,
        eq_true (forall_mem_exportTokens h exported), forall_mem_typeParamTokens h,
        forall_mem_paramListTokens h, Ty.forall_annotation_iff h, forall_mem_bodyTokens h,
        Place.token]
      simp (disch := decide) [h.space, h.indent, h.keyword, and_assoc]
  | .const exported name init, level => by
      simp only [Decl.tokens, Decl.texts, List.forall_mem_append, List.forall_mem_cons,
        eq_true (forall_mem_exportTokens h exported), Expr.forall_tokens_iff h, Place.token]
      simp (disch := decide) [h.mark, h.space, h.indent, h.keyword]
  | .namespace exported name body, level => by
      have hlines : ∀ t ∈ [Token.newline, .newline], P t := by simp [h.newline]
      simp only [Decl.tokens, Decl.texts, List.forall_mem_append, List.forall_mem_cons,
        eq_true (forall_mem_exportTokens h exported), forall_mem_linesBetweenBraces h,
        forall_mem_intercalate hlines, Decl.forall_parts_iff body, Place.token]
      simp (disch := decide) [h.space, h.indent, h.keyword]

theorem Decl.forall_parts_iff : (ds : List Decl) → ∀ level,
    (∀ part ∈ declParts level ds, ∀ t ∈ part, P t) ↔
      ∀ x ∈ Decl.textsOfAll ds, P (x.1.token x.2)
  | [], level => by simp [declParts, Decl.textsOfAll]
  | d :: rest, level => by
      simp only [declParts, Decl.textsOfAll, List.forall_mem_cons, List.forall_mem_append,
        Decl.forall_tokens_iff d level, Decl.forall_parts_iff rest level]

end

/-- **Printing.**  What holds of all tokens that printing adds holds of all
tokens of a module exactly when it holds of the written texts. -/
theorem Module.forall_tokens_iff (m : Module) :
    (∀ t ∈ m.tokens, P t) ↔ ∀ x ∈ m.texts, P (x.1.token x.2) := by
  have hlines : ∀ t ∈ [Token.newline, .newline], P t := by simp [h.newline]
  rw [Module.tokens, Module.texts, List.forall_mem_append, forall_mem_intercalate hlines,
    Decl.forall_parts_iff h, and_iff_left (by simp [h.newline])]

end Printing

/-- The token is fixed or writes a text in the way that its place asks for:
names as they are, literals between quotes, and keys as they are only where
they are identifiers or reserved words. -/
def Token.WrittenFrom (texts : List (Place × String)) : Token → Prop
  | .word s => s ∈ keywords ∨ (.binder, s) ∈ texts ∨ (.reference, s) ∈ texts ∨
      (.member, s) ∈ texts ∨ ((.key, s) ∈ texts ∧ (isIdentifier s = true ∨ isReserved s = true))
  | .quoted s => (.literal, s) ∈ texts ∨
      ((.key, s) ∈ texts ∧ ¬ (isIdentifier s = true ∨ isReserved s = true))
  | .number _ | .mark _ | .space | .newline | .indent _ => True

/-- Each token of a module is fixed or writes a text of the module. -/
theorem Module.writtenFrom (m : Module) : ∀ t ∈ m.tokens, t.WrittenFrom m.texts := by
  have hfixed : HoldsOfFixed (Token.WrittenFrom m.texts) :=
    ⟨fun _ hs => .inl hs, fun _ => trivial, fun _ => trivial, trivial, trivial, fun _ => trivial⟩
  rw [Module.forall_tokens_iff hfixed]
  intro x hx
  obtain ⟨place, s⟩ := x
  cases place with
  | binder => exact .inr (.inl hx)
  | reference => exact .inr (.inr (.inl hx))
  | member => exact .inr (.inr (.inr (.inl hx)))
  | literal => exact .inl hx
  | key =>
      by_cases hbare : isIdentifier s = true ∨ isReserved s = true
      · simp only [Place.token, keyToken, Bool.or_eq_true, hbare, if_true]
        exact .inr (.inr (.inr (.inr ⟨hx, hbare⟩)))
      · simp only [Place.token, keyToken, Bool.or_eq_true, hbare, if_false]
        exact .inr ⟨hx, hbare⟩

end AbiBindings.Script
