import AbiBindings.Proofs.Script.Bracketing

/-!
# Brackets and indentation of tokens

A cursor goes over the tokens of a text and holds the brackets that are open
and the place on the line.  It gets stuck at a bracket that does not match and
at a line that is not indented by the number of open braces, one less where the
line starts with a closing one (`Cursor.next?`).

Pieces of a text are told apart by where they take the cursor.  What stands
inside of a line comes back to the brackets it started with (`Stays`), and a
line of its own does so from the start of the line (`Line`).  Only braces raise
the level, and lines between braces are one level further in
(`Lines.betweenBraces`).
-/

namespace AbiBindings.Script

/-- The number of braces among brackets. -/
def braces (opened : List Bracket) : Nat := opened.count .brace

/-- The brackets that are open behind one more token, the last one first. -/
def Role.enclose? (opened : List Bracket) : Role → Option (List Bracket)
  | .opens b => some (b :: opened)
  | .closes b => if opened.head? = some b then some opened.tail else none
  | .inside => some opened

/-- The role of a token among parentheses, square brackets and braces.  Angle
brackets are none of them. -/
def Token.outerRole (t : Token) : Role :=
  match t.role with
  | .opens .angle | .closes .angle => .inside
  | role => role

/-- A place on a line. -/
inductive Spot where
  | start
  | indented (level : Nat)
  | inside
deriving DecidableEq, Repr

/-- Whether a token that is no layout may stand there. -/
def Spot.admits (opened : List Bracket) (t : Token) : Spot → Bool
  | .start => false
  | .indented level => level + (if t = .mark .closeBrace then 1 else 0) = braces opened
  | .inside => true

/-- A place between tokens. -/
structure Cursor where
  opened : List Bracket
  spot : Spot
deriving DecidableEq, Repr

namespace Cursor

/-- The place behind a token. -/
def next? (σ : Cursor) : Token → Option Cursor
  | .newline => if σ.spot = .start ∨ σ.spot = .inside then some ⟨σ.opened, .start⟩ else none
  | .indent level => if σ.spot = .start then some ⟨σ.opened, .indented level⟩ else none
  | .space => if σ.spot = .inside then some σ else none
  | t =>
      if σ.spot.admits σ.opened t then (t.outerRole.enclose? σ.opened).map (⟨·, .inside⟩)
      else none

theorem next?_of_not_layout (σ : Cursor) {t : Token} (h : t.isLayout = false) :
    σ.next? t = if σ.spot.admits σ.opened t then
      (t.outerRole.enclose? σ.opened).map (⟨·, .inside⟩) else none := by
  cases t <;> first | rfl | cases h

/-- Tokens lead from one place to another. -/
def Runs (σ : Cursor) (ts : List Token) (σ' : Cursor) : Prop := ts.foldlM next? σ = some σ'

/-- The start of a line. -/
def start (opened : List Bracket) : Cursor := ⟨opened, .start⟩

/-- A place inside of a line, or the `first` one behind its indentation. -/
def ready (opened : List Bracket) (first : Bool) : Cursor :=
  ⟨opened, if first then .indented (braces opened) else .inside⟩

namespace Runs

variable {σ ρ τ : Cursor} {ts us : List Token} {o o' : List Bracket} {first : Bool}

theorem nil : Runs σ [] σ := rfl

theorem append (h : Runs σ ts ρ) (hother : Runs ρ us τ) : Runs σ (ts ++ us) τ := by
  rw [Runs, List.foldlM_append, h]
  exact hother

theorem cons_iff {t : Token} : Runs σ (t :: ts) τ ↔ ∃ ρ, σ.next? t = some ρ ∧ Runs ρ ts τ := by
  rw [Runs, List.foldlM_cons, Option.bind_eq_bind, Option.bind_eq_some_iff]
  rfl

theorem space : Runs (ready o false) [.space] (ready o false) := rfl

theorem newline : Runs (ready o false) [.newline] (Cursor.start o) := rfl

theorem blankLine : Runs (Cursor.start o) [.newline] (Cursor.start o) := rfl

theorem indent : Runs (Cursor.start o) [.indent (braces o)] (ready o true) := rfl

/-- A closing brace on a line of its own. -/
theorem closeLine : Runs (Cursor.start (.brace :: o)) [.indent (braces o), .mark .closeBrace]
    (ready o false) := by
  simp [Runs, Cursor.start, next?, Spot.admits, braces, Token.outerRole, Token.role,
    Role.enclose?, ready]

/-- A token that does not start a line with a closing brace. -/
theorem single {t : Token} (hlayout : t.isLayout = false) (hbrace : t ≠ .mark .closeBrace)
    (hrole : t.outerRole.enclose? o = some o') : Runs (ready o first) [t] (ready o' false) := by
  have hadmits : (ready o first).spot.admits o t = true := by
    cases first <;> simp [ready, Spot.admits, hbrace]
  have hnext : (ready o first).next? t = some (ready o' false) := by
    rw [next?_of_not_layout _ hlayout]
    exact (if_pos hadmits).trans (congrArg (Option.map _) hrole)
  exact cons_iff.mpr ⟨_, hnext, nil⟩

/-- A closing brace inside of a line. -/
theorem closeBrace : Runs (ready (.brace :: o) false) [.mark .closeBrace] (ready o false) := by
  simp [Runs, next?, ready, Spot.admits, Token.outerRole, Token.role, Role.enclose?]

end Runs

end Cursor

open Cursor

/-- Tokens inside of a line, or from its `first` one on, that close what they
open.  The level is the number of open braces. -/
def Stays (first : Bool) (level : Nat) (ts : List Token) : Prop :=
  ∀ o, braces o = level → Runs (ready o first) ts (ready o false)

namespace Stays

variable {first : Bool} {level : Nat} {ts us : List Token}

theorem nil : Stays false level [] := fun _ _ => Runs.nil

theorem append (h : Stays first level ts) (hother : Stays false level us) :
    Stays first level (ts ++ us) := fun o ho => (h o ho).append (hother o ho)

theorem space : Stays false level [.space] := fun _ _ => Runs.space

theorem token {t : Token} (hlayout : t.isLayout = false) (hrole : t.outerRole = .inside) :
    Stays first level [t] := by
  intro o _
  refine .single hlayout ?_ (by rw [hrole]; rfl)
  rintro rfl
  cases hrole

theorem word (s : String) : Stays first level [.word s] := token rfl rfl

theorem mark {m : Mark} (hrole : (Token.mark m).outerRole = .inside) :
    Stays first level [.mark m] := token rfl hrole

/-- Brackets that are no braces leave the level as it is. -/
theorem enclosed {b : Bracket} (hb : b = .paren ∨ b = .square) (h : Stays false level ts) :
    Stays first level (.mark b.opening :: (ts ++ [.mark b.closing])) := by
  rintro o ho
  rw [← List.singleton_append]
  rcases hb with rfl | rfl
  · exact (Runs.single rfl (by decide) rfl).append
      ((h (.paren :: o) ho).append (.single rfl (by decide) rfl))
  · exact (Runs.single rfl (by decide) rfl).append
      ((h (.square :: o) ho).append (.single rfl (by decide) rfl))

theorem parenthesised (h : Stays false level ts) : Stays first level (Token.parenthesised ts) :=
  enclosed (.inl rfl) h

theorem bracketed (h : Stays false level ts) : Stays first level (Token.bracketed ts) :=
  enclosed (.inr rfl) h

/-- Between braces on a line the level is another one. -/
theorem braced (h : ∀ level, Stays false level ts) :
    Stays first level (.mark .openBrace :: (ts ++ [.mark .closeBrace])) := by
  intro o _
  rw [← List.singleton_append]
  exact (Runs.single rfl (by decide) rfl).append ((h _ (.brace :: o) rfl).append .closeBrace)

theorem parenthesisedIf (h : Stays first level ts) (hinside : Stays false level ts)
    (needed : Bool) : Stays first level (Token.parenthesisedIf needed ts) := by
  cases needed with
  | true => exact hinside.parenthesised
  | false => exact h

theorem intercalate {sep : List Token} (hsep : Stays false level sep) {parts : List (List Token)}
    (h : ∀ part ∈ parts, Stays false level part) :
    Stays false level (List.intercalate sep parts) := by
  induction parts with
  | nil => exact nil
  | cons part rest ih =>
      obtain ⟨hpart, hrest⟩ := List.forall_mem_cons.mp h
      cases rest with
      | nil => simpa using hpart
      | cons next rest =>
          rw [List.intercalate_cons_cons]
          exact (hpart.append hsep).append (ih hrest)

theorem commaSeparated {parts : List (List Token)} (h : ∀ part ∈ parts, Stays false level part) :
    Stays false level (Token.commaSeparated parts) :=
  intercalate ((mark rfl).append space) h

theorem angled_cons {next : List Token} {rest : List (List Token)}
    (h : ∀ part ∈ next :: rest, Stays false level part) :
    Stays first level (Token.angled (next :: rest)) := by
  have hopen : Stays first level [.mark .openAngle] := mark rfl
  exact hopen.append ((commaSeparated h).append (mark rfl))

theorem angled {parts : List (List Token)} (h : ∀ part ∈ parts, Stays false level part) :
    Stays false level (Token.angled parts) := by
  cases parts with
  | nil => exact nil
  | cons part rest => exact angled_cons h

end Stays

/-- Tokens from the start of a line to its end, or of several such lines. -/
def Line (level : Nat) (ts : List Token) : Prop :=
  ∀ o, braces o = level → Runs (Cursor.start o) ts (ready o false)

/-- Lines with their ends, none at all as well. -/
def Lines (level : Nat) (ts : List Token) : Prop :=
  ∀ o, braces o = level → Runs (Cursor.start o) (ts ++ [.newline]) (Cursor.start o)

/-- A line is indented by its level. -/
theorem Stays.line {level : Nat} {ts : List Token} (h : Stays true level ts) :
    Line level (.indent level :: ts) := by
  rintro o rfl
  exact Runs.indent.append (h o rfl)

theorem Line.lines {level : Nat} {ts : List Token} (h : Line level ts) : Lines level ts :=
  fun o ho => (h o ho).append .newline

/-- A separator that ends a line. -/
def EndsLine (sep : List Token) : Prop := ∀ o, Runs (ready o false) sep (Cursor.start o)

theorem endsLine_newline : EndsLine [.newline] := fun _ => rfl

theorem endsLine_blankLine : EndsLine [.newline, .newline] := fun _ => rfl

namespace Lines

variable {level : Nat}

theorem intercalate {sep : List Token} (hsep : EndsLine sep) {parts : List (List Token)}
    (h : ∀ part ∈ parts, Line level part) : Lines level (List.intercalate sep parts) := by
  induction parts with
  | nil => exact fun _ _ => Runs.blankLine
  | cons part rest ih =>
      obtain ⟨hpart, hrest⟩ := List.forall_mem_cons.mp h
      cases rest with
      | nil => simpa using hpart.lines
      | cons next rest =>
          intro o ho
          rw [List.intercalate_cons_cons, List.append_assoc, List.append_assoc]
          exact (hpart o ho).append ((hsep o).append (ih hrest o ho))

/-- **Step.**  Lines between braces are one level further in. -/
theorem betweenBraces {first : Bool} {ts : List Token} (h : Lines (level + 1) ts) :
    Stays first level (Token.linesBetweenBraces level ts) := by
  rintro o rfl
  have hinside : braces (.brace :: o) = braces o + 1 := List.count_cons_self
  have hopen : Runs (ready o first) [.mark .openBrace, .newline] (Cursor.start (.brace :: o)) :=
    (Runs.single rfl (by decide) rfl).append .newline
  have hlines := h _ hinside
  rw [Token.linesBetweenBraces, List.append_assoc]
  refine hopen.append ?_
  rw [← List.singleton_append (x := Token.newline), ← List.append_assoc]
  exact hlines.append .closeLine

theorem block {first : Bool} {parts : List (List Token)}
    (h : ∀ part ∈ parts, Line (level + 1) part) : Stays first level (Token.block level parts) := by
  cases parts with
  | nil =>
      have hbraces : Stays first level [.mark .openBrace, .mark .closeBrace] :=
        Stays.braced fun _ => Stays.nil
      exact hbraces
  | cons part rest => exact (intercalate endsLine_newline h).betweenBraces

end Lines

end AbiBindings.Script
