import AbiBindings.Proofs.Script.Cursor
import AbiBindings.Proofs.Script.Types
import AbiBindings.Script.Printer

/-!
# Layout of printed code

What a printing function writes stays inside of a line or is a line of its own,
whatever stands around it.  The proof follows the printer, one lemma per
printing function, and the level that the printer hands down is the number of
open braces wherever a line starts.

There is one exception.  An object type opens a brace on its line, and the
level goes on without it; a function type inside it could have a parameter
whose default value takes more than one line.  So the types of a module have to
be free of code (`Module.runs_tokens`).
-/

namespace AbiBindings.Script

open Cursor

/-- A key is a single token. -/
theorem stays_keyToken {first : Bool} {level : Nat} (key : String) :
    Stays first level [keyToken key] := by
  unfold keyToken
  split
  · exact .word key
  · exact .token rfl rfl

theorem stays_words {level : Nat} (names : List String) :
    ∀ part ∈ names.map (fun n => [Token.word n]), Stays false level part :=
  List.forall_mem_map.mpr fun n _ => .word n

theorem stays_typeParamTokens {level : Nat} (names : List String) :
    Stays false level (typeParamTokens names) := .angled (stays_words names)

/-- A colon or an operator with a blank behind it. -/
theorem stays_markAndSpace {first : Bool} {level : Nat} {m : Mark}
    (hrole : (Token.mark m).outerRole = .inside) : Stays first level [.mark m, .space] :=
  (Stays.mark hrole).append .space

theorem stays_spaced {level : Nat} {m : Mark} (hrole : (Token.mark m).outerRole = .inside) :
    Stays false level [.space, .mark m, .space] :=
  Stays.space.append (stays_markAndSpace hrole)

theorem stays_wordAndSpace {first : Bool} {level : Nat} (s : String) :
    Stays first level [.word s, .space] := (Stays.word s).append .space

/-- What a parameter is made of stays inside of a line. -/
theorem Param.stays_tokens {p : Param} {outer level : Nat}
    (hty : Stays false level (annotationTokens outer p.ty))
    (hdefault : Stays false level (defaultTokens outer p.default)) :
    Stays false level (p.tokens outer) := by
  have hmark : ∀ (b : Bool) (m : Mark), (Token.mark m).outerRole = .inside →
      Stays false level (if b then [.mark m] else []) := by
    intro b m hrole
    cases b with
    | false => exact .nil
    | true => exact .mark hrole
  obtain ⟨name, ty, optional, rest, default⟩ := p
  rw [Param.tokens]
  exact ((((hmark rest _ rfl).append (.word _)).append (hmark optional _ rfl)).append
    hty).append hdefault

mutual

/-- Types without code stay inside of a line, whatever the level is. -/
theorem Ty.stays_tokens : (t : Ty) → ∀ outer level, t.isCodeFree = true →
    Stays false level (t.tokens outer)
  | .string, _, _, _ | .number, _, _, _ | .boolean, _, _, _ | .any, _, _, _ | .void, _, _, _ =>
      .word _
  | .ref name args, outer, level, h => by
      rw [Ty.tokens, ← List.singleton_append]
      exact (Stays.word name).append (.angled (Ty.stays_parts args outer level h))
  | .array element, outer, level, h => by
      have helement := Ty.stays_tokens element outer level h
      have hbrackets : Stays false level [.mark .openBracket, .mark .closeBracket] :=
        Stays.bracketed .nil
      rw [Ty.tokens]
      exact (Stays.parenthesisedIf helement helement _).append hbrackets
  | .tuple items, outer, level, h =>
      .bracketed (.commaSeparated (Ty.stays_parts items outer level h))
  | .union members, outer, level, h =>
      .intercalate (stays_spaced rfl) (Ty.stays_unionParts members outer level h)
  | .object fields, outer, _, h => by
      have hfields := fun level => Ty.stays_fieldParts fields outer level h
      rw [Ty.tokens]
      split
      · exact Stays.braced fun _ => .nil
      · have hinside : ∀ level, Stays false level
            ([Token.space] ++ List.intercalate [.space] (fieldParts outer fields) ++
              [Token.space]) :=
          fun level => (Stays.space.append (.intercalate .space (hfields level))).append .space
        simpa using Stays.braced hinside
  | .fn params returns, outer, level, h => by
      rw [Ty.isCodeFree, Bool.and_eq_true] at h
      have hparams := Param.stays_codeFreeParts params outer level h.1
      rw [Ty.tokens, List.append_assoc]
      exact (Stays.commaSeparated hparams).parenthesised.append
        ((stays_spaced rfl).append (Ty.stays_tokens returns outer level h.2))

theorem Ty.stays_parts : (ts : List Ty) → ∀ outer level, Ty.areCodeFree ts = true →
    ∀ part ∈ tyParts outer ts, Stays false level part
  | [], _, _, _ => by simp [tyParts]
  | t :: rest, outer, level, h => by
      rw [Ty.areCodeFree, Bool.and_eq_true] at h
      exact List.forall_mem_cons.mpr
        ⟨Ty.stays_tokens t outer level h.1, Ty.stays_parts rest outer level h.2⟩

theorem Ty.stays_unionParts : (ts : List Ty) → ∀ outer level, Ty.areCodeFree ts = true →
    ∀ part ∈ unionParts outer ts, Stays false level part
  | [], _, _, _ => by simp [unionParts]
  | t :: rest, outer, level, h => by
      rw [Ty.areCodeFree, Bool.and_eq_true] at h
      have htokens := Ty.stays_tokens t outer level h.1
      exact List.forall_mem_cons.mpr
        ⟨Stays.parenthesisedIf htokens htokens _, Ty.stays_unionParts rest outer level h.2⟩

theorem Ty.stays_fieldParts : (fields : List (String × Ty)) → ∀ outer level,
    Ty.areCodeFreeFields fields = true → ∀ part ∈ fieldParts outer fields, Stays false level part
  | [], _, _, _ => by simp [fieldParts]
  | (key, t) :: rest, outer, level, h => by
      rw [Ty.areCodeFreeFields, Bool.and_eq_true] at h
      have hkey : Stays false level [keyToken key, .mark .colon, .space] :=
        (stays_keyToken key).append (stays_markAndSpace rfl)
      exact List.forall_mem_cons.mpr
        ⟨(hkey.append (Ty.stays_tokens t outer level h.1)).append (.mark rfl),
          Ty.stays_fieldParts rest outer level h.2⟩

theorem Ty.stays_annotation : (t : Option Ty) → ∀ outer level, Ty.isCodeFreeOption t = true →
    Stays false level (annotationTokens outer t)
  | none, _, _, _ => .nil
  | some t, outer, level, h =>
      (stays_markAndSpace rfl).append (Ty.stays_tokens t outer level h)

theorem Param.stays_codeFreeParts : (ps : List Param) → ∀ outer level, Param.areCodeFree ps = true →
    ∀ part ∈ paramParts outer ps, Stays false level part
  | [], _, _, _ => by simp [paramParts]
  | ⟨name, ty, optional, rest, default⟩ :: later, outer, level, h => by
      simp only [Param.areCodeFree, Param.isCodeFree, Bool.and_eq_true,
        Option.isNone_iff_eq_none] at h
      obtain ⟨⟨hty, rfl⟩, hlater⟩ := h
      exact List.forall_mem_cons.mpr
        ⟨Param.stays_tokens (Ty.stays_annotation ty outer level hty) .nil,
          Param.stays_codeFreeParts later outer level hlater⟩

end

theorem Ty.stays_partsOf {ts : List Ty} (outer level : Nat) (h : CodeFree ts) :
    ∀ part ∈ tyParts outer ts, Stays false level part :=
  Ty.stays_parts ts outer level (Ty.areCodeFree_iff.mpr h)

theorem Ty.stays_annotationOf {t : Option Ty} (outer level : Nat) (h : CodeFree t.toList) :
    Stays false level (annotationTokens outer t) := by
  apply Ty.stays_annotation
  cases t <;> simp_all

mutual

/-- **Step.**  An expression comes back to the brackets that are open around it,
if its level is the number of braces among them. -/
theorem Expr.stays_tokens : (e : Expr) → ∀ {first level}, CodeFree e.types →
    Stays first level (e.tokens level)
  | .ident name, _, _, _ => .word name
  | .str value, _, _, _ | .num value, _, _, _ => .token rfl rfl
  | .undefined, _, _, _ | .this, _, _, _ => .word _
  | .array items, _, level, h => .bracketed (.commaSeparated (Expr.stays_parts items level h))
  | .object entries, _, level, h => Lines.block (Expr.line_entryParts entries (level + 1) h)
  | .prop object name, _, level, h => by
      have hobject : ∀ {first}, Stays first level (object.tokens level) :=
        Expr.stays_tokens object h
      rw [Expr.tokens]
      exact (Stays.parenthesisedIf hobject hobject _).append
        ((Stays.mark rfl).append (.word name))
  | .call callee typeArgs args, _, level, h => by
      rw [Expr.types, codeFree_append, codeFree_append] at h
      have hcallee : ∀ {first}, Stays first level (callee.tokens level) :=
        Expr.stays_tokens callee h.1
      rw [Expr.tokens]
      exact ((Stays.parenthesisedIf hcallee hcallee _).append
        (.angled (Ty.stays_partsOf level level h.2.1))).append
        (.parenthesised (.commaSeparated (Expr.stays_parts args level h.2.2)))
  | .new callee typeArgs args, _, level, h => by
      rw [Expr.types, codeFree_append, codeFree_append] at h
      have hcallee : ∀ {first}, Stays first level (callee.tokens level) :=
        Expr.stays_tokens callee h.1
      rw [Expr.tokens]
      exact (((stays_wordAndSpace _).append (Stays.parenthesisedIf hcallee hcallee _)).append
        (.angled (Ty.stays_partsOf level level h.2.1))).append
        (.parenthesised (.commaSeparated (Expr.stays_parts args level h.2.2)))
  | .binary left op right, _, level, h => by
      rw [Expr.types, codeFree_append] at h
      have hleft : ∀ {first}, Stays first level (left.tokens level) := Expr.stays_tokens left h.1
      have hright : ∀ {first}, Stays first level (right.tokens level) :=
        Expr.stays_tokens right h.2
      rw [Expr.tokens]
      exact ((Stays.parenthesisedIf hleft hleft _).append
        (stays_spaced (by cases op <;> rfl))).append (Stays.parenthesisedIf hright hright _)
  | .typeOf operand, _, level, h => by
      have hoperand : ∀ {first}, Stays first level (operand.tokens level) :=
        Expr.stays_tokens operand h
      rw [Expr.tokens]
      exact (stays_wordAndSpace _).append (Stays.parenthesisedIf hoperand hoperand _)
  | .assign target value, _, level, h => by
      rw [Expr.types, codeFree_append] at h
      rw [Expr.tokens]
      exact ((Expr.stays_tokens target h.1).append (stays_spaced rfl)).append
        (Expr.stays_tokens value h.2)
  | .arrow typeParams params returns body, first, level, h => by
      rw [Expr.types, codeFree_append, codeFree_append] at h
      obtain ⟨hparams, hreturns, hbody⟩ := h
      have hlist : Stays first level
          (typeParamTokens typeParams ++
            Token.parenthesised (Token.commaSeparated (paramParts level params))) := by
        have hafter : ∀ {first}, Stays first level
            (Token.parenthesised (Token.commaSeparated (paramParts level params))) :=
          .parenthesised (.commaSeparated (Param.stays_parts params level hparams))
        cases typeParams with
        | nil => exact hafter
        | cons name rest => exact (Stays.angled_cons (stays_words (name :: rest))).append hafter
      rw [Expr.tokens]
      exact ((hlist.append (Ty.stays_annotationOf level level hreturns)).append
        (stays_spaced rfl)).append (Lines.block (Stmt.line_parts body (level + 1) hbody))

theorem Expr.stays_parts : (es : List Expr) → ∀ level, CodeFree (Expr.typesOfAll es) →
    ∀ part ∈ exprParts level es, Stays false level part
  | [], _, _ => by simp [exprParts]
  | e :: rest, level, h => by
      rw [Expr.typesOfAll, codeFree_append] at h
      exact List.forall_mem_cons.mpr
        ⟨Expr.stays_tokens e h.1, Expr.stays_parts rest level h.2⟩

theorem Expr.line_entryParts : (entries : List (String × Expr)) → ∀ level,
    CodeFree (Expr.typesOfEntries entries) → ∀ part ∈ entryParts level entries, Line level part
  | [], _, _ => by simp [entryParts]
  | (key, e) :: rest, level, h => by
      rw [Expr.typesOfEntries, codeFree_append] at h
      have hkey : Stays true level [keyToken key, .mark .colon, .space] :=
        (stays_keyToken key).append (stays_markAndSpace rfl)
      exact List.forall_mem_cons.mpr
        ⟨((hkey.append (Expr.stays_tokens e h.1)).append (.mark rfl)).line,
          Expr.line_entryParts rest level h.2⟩

theorem Expr.stays_default : (e : Option Expr) → ∀ level, CodeFree (Expr.typesOfOption e) →
    Stays false level (defaultTokens level e)
  | none, _, _ => .nil
  | some e, _, h => (stays_spaced rfl).append (Expr.stays_tokens e h)

theorem Expr.stays_return : (e : Option Expr) → ∀ level, CodeFree (Expr.typesOfOption e) →
    Stays false level (returnTokens level e)
  | none, _, _ => .nil
  | some e, _, h => Stays.space.append (Expr.stays_tokens e h)

theorem Param.stays_parts : (ps : List Param) → ∀ level, CodeFree (Param.typesOfAll ps) →
    ∀ part ∈ paramParts level ps, Stays false level part
  | [], _, _ => by simp [paramParts]
  | ⟨name, ty, optional, rest, default⟩ :: later, level, h => by
      rw [Param.typesOfAll, Param.types, codeFree_append, codeFree_append] at h
      obtain ⟨⟨hty, hdefault⟩, hlater⟩ := h
      exact List.forall_mem_cons.mpr
        ⟨Param.stays_tokens (Ty.stays_annotationOf level level hty)
            (Expr.stays_default default level hdefault),
          Param.stays_parts later level hlater⟩

/-- **Step.**  A statement is written on lines of its level. -/
theorem Stmt.line_tokens : (s : Stmt) → ∀ level, CodeFree s.types → Line level (s.tokens level)
  | .const name init, level, h => by
      have hfront : Stays true level
          [.word "const", .space, .word name, .space, .mark .equals, .space] :=
        ((stays_wordAndSpace _).append (.word name)).append (stays_spaced rfl)
      exact ((hfront.append (Expr.stays_tokens init h)).append (.mark rfl)).line
  | .constArray names init, level, h => by
      have hnames : Stays false level
          (Token.bracketed (Token.commaSeparated (names.map fun n => [.word n]))) :=
        .bracketed (.commaSeparated (stays_words names))
      have hfront : Stays true level ([Token.word "const", .space] ++
          Token.bracketed (Token.commaSeparated (names.map fun n => [.word n])) ++
          [Token.space, .mark .equals, .space]) :=
        ((stays_wordAndSpace _).append hnames).append (stays_spaced rfl)
      exact ((hfront.append (Expr.stays_tokens init h)).append (.mark rfl)).line
  | .expr e, level, h => ((Expr.stays_tokens e h).append (.mark rfl)).line
  | .ret value, level, h =>
      (((Stays.word _).append (Expr.stays_return value level h)).append (.mark rfl)).line
  | .cond test thenBody elseBody, level, h => by
      rw [Stmt.types, codeFree_append, codeFree_append] at h
      obtain ⟨htest, hthen, helse⟩ := h
      have hfront : Stays true level
          ([Token.word "if", .space] ++ Token.parenthesised (test.tokens level) ++ [Token.space]) :=
        ((stays_wordAndSpace _).append (.parenthesised (Expr.stays_tokens test htest))).append
          .space
      have hthen : Stays false level (Token.block level (stmtParts (level + 1) thenBody)) :=
        Lines.block (Stmt.line_parts thenBody (level + 1) hthen)
      have helse : Stays false level (if elseBody.isEmpty then [] else
          [Token.space, .word "else", .space] ++
            Token.block level (stmtParts (level + 1) elseBody)) := by
        split
        · exact .nil
        · exact (Stays.space.append (stays_wordAndSpace _)).append
            (Lines.block (Stmt.line_parts elseBody (level + 1) helse))
      exact ((hfront.append hthen).append helse).line
  | .throw value, level, h =>
      (((stays_wordAndSpace _).append (Expr.stays_tokens value h)).append (.mark rfl)).line

theorem Stmt.line_parts : (body : List Stmt) → ∀ level, CodeFree (Stmt.typesOfAll body) →
    ∀ part ∈ stmtParts level body, Line level part
  | [], _, _ => by simp [stmtParts]
  | s :: rest, level, h => by
      rw [Stmt.typesOfAll, codeFree_append] at h
      exact List.forall_mem_cons.mpr
        ⟨Stmt.line_tokens s level h.1, Stmt.line_parts rest level h.2⟩

end

theorem stays_paramListTokens {first : Bool} {level : Nat} {params : List Param}
    (h : CodeFree (Param.typesOfAll params)) : Stays first level (paramListTokens level params) :=
  .parenthesised (.commaSeparated (Param.stays_parts params level h))

theorem stays_bodyTokens {first : Bool} {level : Nat} {body : List Stmt}
    (h : CodeFree (Stmt.typesOfAll body)) : Stays first level (bodyTokens level body) :=
  Lines.block (Stmt.line_parts body (level + 1) h)

/-- A keyword that may be left out stands in front of a name. -/
theorem stays_behindKeyword {level : Nat} {keyword ts : List Token} {s : String}
    (hkeyword : keyword = [] ∨ keyword = [.word s, .space]) (h : ∀ {first}, Stays first level ts) :
    Stays true level (keyword ++ ts) := by
  rcases hkeyword with rfl | rfl
  · exact h
  · exact (stays_wordAndSpace s).append h

theorem InterfaceMethod.line_tokens {m : InterfaceMethod} {level : Nat} (h : CodeFree m.types) :
    Line level (m.tokens level) := by
  rw [InterfaceMethod.types, codeFree_append, codeFree_cons] at h
  obtain ⟨hparams, hreturns, -⟩ := h
  have hfront : Stays true level
      ([Token.word m.name] ++ paramListTokens level m.params ++ [Token.mark .colon, .space]) :=
    ((Stays.word _).append (stays_paramListTokens hparams)).append (stays_markAndSpace rfl)
  exact ((hfront.append (Ty.stays_tokens m.returns level level hreturns)).append (.mark rfl)).line

/-- **Step.**  A member of a class is written on lines of its level. -/
theorem Member.line_tokens {m : Member} {level : Nat} (h : CodeFree m.types) :
    Line level (m.tokens level) := by
  have hvisibility : ∀ v : Visibility, v.tokens = [] ∨ v.tokens = [.word "private", .space] :=
    fun v => by cases v <;> simp [Visibility.tokens]
  cases m with
  | property visibility name ty =>
      rw [Member.types, codeFree_cons] at h
      have hname : ∀ {first}, Stays first level [.word name, .mark .colon, .space] :=
        (Stays.word _).append (stays_markAndSpace rfl)
      have hfront := stays_behindKeyword (hvisibility visibility) hname
      have hline : Stays true level (visibility.tokens ++ [Token.word name, .mark .colon, .space] ++
          ty.tokens level ++ [Token.mark .semicolon]) :=
        (hfront.append (Ty.stays_tokens ty level level h.1)).append (.mark rfl)
      simpa [Member.tokens] using hline.line
  | constructor params body =>
      rw [Member.types, codeFree_append] at h
      have hfront : Stays true level
          ([Token.word "constructor"] ++ paramListTokens level params ++ [Token.space]) :=
        ((Stays.word _).append (stays_paramListTokens h.1)).append .space
      exact (hfront.append (stays_bodyTokens h.2)).line
  | method visibility name params returns body =>
      rw [Member.types, codeFree_append, codeFree_append] at h
      obtain ⟨hparams, hreturns, hbody⟩ := h
      have hfunction : ∀ {first}, Stays first level
          ([Token.word name] ++ paramListTokens level params ++ annotationTokens level returns ++
            [Token.space] ++ bodyTokens level body) :=
        ((((Stays.word _).append (stays_paramListTokens hparams)).append
          (Ty.stays_annotationOf level level hreturns)).append .space).append
          (stays_bodyTokens hbody)
      simpa [Member.tokens] using
        (stays_behindKeyword (hvisibility visibility) hfunction).line

theorem lines_memberLines {level : Nat} {members : List Member}
    (h : ∀ m ∈ members, CodeFree m.types) : Lines level (memberLines level members) := by
  match members with
  | [] => exact fun _ _ => Runs.blankLine
  | [m] => exact (Member.line_tokens (h m (by simp))).lines
  | m :: next :: rest =>
      obtain ⟨hm, hrest⟩ := List.forall_mem_cons.mp h
      have hsep : EndsLine (if m.isProperty && next.isProperty then [.newline]
          else [.newline, .newline]) := by
        split
        · exact endsLine_newline
        · exact endsLine_blankLine
      intro o ho
      rw [memberLines, List.append_assoc, List.append_assoc]
      exact (Member.line_tokens hm o ho).append ((hsep o).append (lines_memberLines hrest o ho))

/-- A declaration may be exported. -/
theorem stays_exported {level : Nat} {ts : List Token} (exported : Bool)
    (h : ∀ {first}, Stays first level ts) : Stays true level (exportTokens exported ++ ts) := by
  refine stays_behindKeyword (s := "export") ?_ h
  cases exported <;> simp [exportTokens]

mutual

/-- **Step.**  A declaration is written on lines of its level. -/
theorem Decl.line_tokens : (d : Decl) → ∀ level, CodeFree d.types → Line level (d.tokens level)
  | .imports names source, level, _ => by
      have hnames : ∀ level, Stays false level
          ([Token.space] ++ Token.commaSeparated (names.map fun n => [.word n]) ++ [Token.space]) :=
        fun _ => (Stays.space.append (.commaSeparated (stays_words names))).append .space
      have hsource : Stays false level
          [.space, .word "from", .space, .quoted source, .mark .semicolon] :=
        (Stays.space.append (stays_wordAndSpace _)).append
          ((Stays.token rfl rfl).append (.mark rfl))
      have hkeyword : Stays true level [.word "import", .space] := stays_wordAndSpace _
      simpa [Decl.tokens] using ((hkeyword.append (.braced hnames)).append hsource).line
  | .interface exported name typeParams methods, level, h => by
      rw [Decl.types, codeFree_flatMap] at h
      have hmethods : ∀ part ∈ methods.map (·.tokens (level + 1)), Line (level + 1) part :=
        List.forall_mem_map.mpr fun m hm => InterfaceMethod.line_tokens (h m hm)
      have hinterface : ∀ {first}, Stays first level
          ([Token.word "interface", .space, .word name] ++ typeParamTokens typeParams ++
            [Token.space] ++ Token.linesBetweenBraces level
              (List.intercalate [.newline] (methods.map (·.tokens (level + 1))))) :=
        ((((stays_wordAndSpace _).append (.word _)).append
          (stays_typeParamTokens typeParams)).append .space).append
          (Lines.intercalate endsLine_newline hmethods).betweenBraces
      simpa [Decl.tokens] using (stays_exported exported hinterface).line
  | .class exported name typeParams members, level, h => by
      rw [Decl.types, codeFree_flatMap] at h
      have hclass : ∀ {first}, Stays first level
          ([Token.word "class", .space, .word name] ++ typeParamTokens typeParams ++
            [Token.space] ++ Token.linesBetweenBraces level (memberLines (level + 1) members)) :=
        ((((stays_wordAndSpace _).append (.word _)).append
          (stays_typeParamTokens typeParams)).append .space).append
          (lines_memberLines h).betweenBraces
      simpa [Decl.tokens] using (stays_exported exported hclass).line
  | .function exported name typeParams params returns body, level, h => by
      rw [Decl.types, codeFree_append, codeFree_append] at h
      obtain ⟨hparams, hreturns, hbody⟩ := h
      have hfunction : ∀ {first}, Stays first level
          ([Token.word "function", .space, .word name] ++ typeParamTokens typeParams ++
            paramListTokens level params ++ annotationTokens level returns ++ [Token.space] ++
            bodyTokens level body) :=
        ((((((stays_wordAndSpace _).append (.word _)).append
          (stays_typeParamTokens typeParams)).append (stays_paramListTokens hparams)).append
          (Ty.stays_annotationOf level level hreturns)).append .space).append
          (stays_bodyTokens hbody)
      simpa [Decl.tokens] using (stays_exported exported hfunction).line
  | .const exported name init, level, h => by
      have hconst : ∀ {first}, Stays first level
          ([Token.word "const", .space, .word name, .space, .mark .equals, .space] ++
            init.tokens level ++ [Token.mark .semicolon]) :=
        ((((stays_wordAndSpace _).append (.word _)).append (stays_spaced rfl)).append
          (Expr.stays_tokens init h)).append (.mark rfl)
      simpa [Decl.tokens] using (stays_exported exported hconst).line
  | .namespace exported name body, level, h => by
      have hbody : Lines (level + 1)
          (List.intercalate [.newline, .newline] (declParts (level + 1) body)) :=
        Lines.intercalate endsLine_blankLine (Decl.line_parts body (level + 1) h)
      have hnamespace : ∀ {first}, Stays first level
          ([Token.word "namespace", .space, .word name, .space] ++ Token.linesBetweenBraces level
            (List.intercalate [.newline, .newline] (declParts (level + 1) body))) :=
        ((stays_wordAndSpace _).append (stays_wordAndSpace _)).append hbody.betweenBraces
      simpa [Decl.tokens] using (stays_exported exported hnamespace).line

theorem Decl.line_parts : (ds : List Decl) → ∀ level, CodeFree (Decl.typesOfAll ds) →
    ∀ part ∈ declParts level ds, Line level part
  | [], _, _ => by simp [declParts]
  | d :: rest, level, h => by
      rw [Decl.typesOfAll, codeFree_append] at h
      exact List.forall_mem_cons.mpr
        ⟨Decl.line_tokens d level h.1, Decl.line_parts rest level h.2⟩

end

/-- **Layout.**  In a module whose types hold no default values, brackets match
and lines are indented by the number of open braces. -/
theorem Module.runs_tokens (m : Module) (h : CodeFree m.types) :
    Runs (Cursor.start []) m.tokens (Cursor.start []) :=
  Lines.intercalate endsLine_blankLine (Decl.line_parts m.decls 0 h) [] rfl

end AbiBindings.Script
