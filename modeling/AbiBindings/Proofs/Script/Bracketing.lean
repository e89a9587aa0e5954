import AbiBindings.Proofs.Script.Lexing

/-!
# Brackets

Behind its tokens a text has one more structure that all of its grammars
share: brackets match, and what stands between two of them is read on its own.
`Forest.ofTokens?` matches them with a stack and leaves trees, whose leaves
are the tokens that are no brackets.

A printer builds tokens from the inside out instead.  `Groups` follows it, one
rule for a pair of brackets and one for anything else, and the stack finds
what the printer put together (`Groups.ofTokens?_bare`).  With the spacing of
tokens this says what a printed text is read as (`Prints`, `Prints.read?_render`).
-/

namespace AbiBindings.Script

/-- The kinds of brackets. -/
inductive Bracket where
  | paren | square | brace | angle
deriving DecidableEq, Repr, Inhabited

/-- The mark that opens a bracket. -/
def Bracket.opening : Bracket → Mark
  | .paren => .openParen
  | .square => .openBracket
  | .brace => .openBrace
  | .angle => .openAngle

/-- The mark that closes a bracket. -/
def Bracket.closing : Bracket → Mark
  | .paren => .closeParen
  | .square => .closeBracket
  | .brace => .closeBrace
  | .angle => .closeAngle

/-- The character that closes a bracket. -/
def Bracket.last : Bracket → Char
  | .paren => ')'
  | .square => ']'
  | .brace => '\x7d'
  | .angle => '>'

theorem Bracket.text_closing (b : Bracket) : b.closing.text.toList = [b.last] := by
  cases b <;> rfl

/-- What a token does to the brackets around it. -/
inductive Role where
  | opens (b : Bracket) | closes (b : Bracket) | inside
deriving DecidableEq, Repr

/-- The role of a token. -/
def Token.role : Token → Role
  | .mark .openParen => .opens .paren
  | .mark .openBracket => .opens .square
  | .mark .openBrace => .opens .brace
  | .mark .openAngle => .opens .angle
  | .mark .closeParen => .closes .paren
  | .mark .closeBracket => .closes .square
  | .mark .closeBrace => .closes .brace
  | .mark .closeAngle => .closes .angle
  | _ => .inside

/-- A token that is no bracket, or all that stands between two brackets. -/
inductive Tree where
  | leaf (t : Token)
  | group (b : Bracket) (inside : List Tree)

/-- Whether the tree is that mark. -/
def Tree.isMark (m : Mark) : Tree → Bool
  | .leaf (.mark m') => m' = m
  | _ => false

theorem Tree.isMark_iff {m : Mark} {t : Tree} : t.isMark m = true ↔ t = .leaf (.mark m) := by
  unfold Tree.isMark
  split <;> simp_all

/-- Trees with a comma between them. -/
def commas (parts : List (List Tree)) : List Tree :=
  List.intercalate [.leaf (.mark .comma)] parts

namespace Forest

/-- The trees of tokens that go on behind `done`, which is in reverse, inside
of the brackets that are open, the last one first, each with what stands in
front of it. -/
def ofTokensWith (open_ : List (Bracket × List Tree)) (done : List Tree) :
    List Token → Option (List Tree)
  | [] => if open_.isEmpty then some done.reverse else none
  | t :: rest =>
      match t.role with
      | .opens b => ofTokensWith ((b, done) :: open_) [] rest
      | .inside => ofTokensWith open_ (.leaf t :: done) rest
      | .closes b =>
          match open_ with
          | (b', before) :: outer =>
              if b = b' then ofTokensWith outer (.group b done.reverse :: before) rest else none
          | [] => none

/-- The trees of tokens whose brackets match. -/
def ofTokens? (ts : List Token) : Option (List Tree) := ofTokensWith [] [] ts

end Forest

@[simp]
theorem Bracket.role_opening (b : Bracket) : (Token.mark b.opening).role = .opens b := by
  cases b <;> rfl

@[simp]
theorem Bracket.role_closing (b : Bracket) : (Token.mark b.closing).role = .closes b := by
  cases b <;> rfl

/-- Tokens with their layout, and the trees that they make. -/
inductive Groups : List Token → List Tree → Prop
  | nil : Groups [] []
  | layout {t : Token} {ts : List Token} {trees : List Tree} (hlayout : t.isLayout = true)
      (h : Groups ts trees) : Groups (t :: ts) trees
  | leaf {t : Token} {ts : List Token} {trees : List Tree} (hlayout : t.isLayout = false)
      (hrole : t.role = .inside) (h : Groups ts trees) : Groups (t :: ts) (.leaf t :: trees)
  | group (b : Bracket) {inside ts : List Token} {within trees : List Tree}
      (hinside : Groups inside within) (h : Groups ts trees) :
      Groups (.mark b.opening :: (inside ++ .mark b.closing :: ts)) (.group b within :: trees)

namespace Groups

variable {ts us : List Token} {trees others : List Tree}

/-- Tokens behind each other make trees behind each other. -/
theorem append (h : Groups ts trees) (hother : Groups us others) :
    Groups (ts ++ us) (trees ++ others) := by
  induction h with
  | nil => exact hother
  | layout hlayout _ ih => exact .layout hlayout ih
  | leaf hlayout hrole _ ih => exact .leaf hlayout hrole ih
  | group b hinside _ _ ih =>
      rw [List.cons_append, List.append_assoc]
      exact .group b hinside ih

/-- Tokens between brackets make one tree. -/
theorem enclosed (b : Bracket) (h : Groups ts trees) :
    Groups (.mark b.opening :: (ts ++ [.mark b.closing])) [.group b trees] :=
  .group b h .nil

/-- **Step.**  The stack finds the trees, whatever is open around them. -/
theorem ofTokensWith_bare (h : Groups ts trees) (outer : List (Bracket × List Tree))
    (done : List Tree) (rest : List Token) :
    Forest.ofTokensWith outer done (Token.bare ts ++ rest) =
      Forest.ofTokensWith outer (trees.reverse ++ done) rest := by
  induction h generalizing outer done rest with
  | nil => rfl
  | layout hlayout _ ih =>
      rw [← ih]
      simp [Token.bare, hlayout]
  | leaf hlayout hrole _ ih =>
      rw [List.reverse_cons, List.append_assoc, List.singleton_append, ← ih]
      simp [Token.bare, hlayout, Forest.ofTokensWith, hrole]
  | @group b inside ts within trees _ _ ihInside ih =>
      have hbare : Token.bare (.mark b.opening :: (inside ++ .mark b.closing :: ts)) =
          .mark b.opening :: (Token.bare inside ++ .mark b.closing :: Token.bare ts) := by
        simp [Token.bare, Token.isLayout]
      rw [hbare, List.cons_append, List.append_assoc, List.cons_append, Forest.ofTokensWith,
        Bracket.role_opening]
      simp only [ihInside]
      rw [Forest.ofTokensWith, Bracket.role_closing]
      simp only [if_true, List.append_nil, List.reverse_reverse]
      rw [ih, List.reverse_cons, List.append_assoc, List.singleton_append]

/-- **Brackets.**  The trees are found again. -/
theorem ofTokens?_bare (h : Groups ts trees) :
    Forest.ofTokens? (Token.bare ts) = some trees := by
  have hfound := h.ofTokensWith_bare [] [] []
  rw [List.append_nil, List.append_nil] at hfound
  rw [Forest.ofTokens?, hfound, Forest.ofTokensWith]
  simp

end Groups

/-- The trees of a text. -/
def Forest.read? (text : String) : Option (List Tree) := (lex text).bind Forest.ofTokens?

/-- Tokens that are printed in front of a text that starts with `next` are read
as the trees. -/
structure Prints (width : Nat) (next : Option Char) (ts : List Token) (trees : List Tree) :
    Prop where
  spaced : Token.Spaced width next ts
  groups : Groups ts trees

/-- The text does not go on with a letter, a digit or an underscore. -/
def WordEnds (next : Option Char) : Prop := ∀ c ∈ next, isWordChar c = false

theorem wordEnds_some {c : Char} (h : isWordChar c = false) : WordEnds (some c) := by
  rintro d ⟨⟩
  exact h

namespace Prints

variable {width : Nat} {next : Option Char} {ts us : List Token} {trees others : List Tree}

theorem read?_render (h : Prints width none ts trees) :
    Forest.read? (Token.render width ts) = some trees := by
  rw [Forest.read?, Token.lex_render h.spaced, Option.bind_some, h.groups.ofTokens?_bare]

theorem nil : Prints width next [] [] := ⟨trivial, .nil⟩

theorem append (h : Prints width (Token.start width us next) ts trees)
    (hother : Prints width next us others) : Prints width next (ts ++ us) (trees ++ others) :=
  ⟨Token.spaced_append.mpr ⟨h.spaced, hother.spaced⟩, h.groups.append hother.groups⟩

theorem space : Prints width next [.space] [] :=
  ⟨⟨trivial, trivial⟩, .layout rfl .nil⟩

theorem word {s : String} (hword : isWord s.toList = true) (hnext : WordEnds next) :
    Prints width next [.word s] [.leaf (.word s)] :=
  ⟨⟨⟨hword, hnext⟩, trivial⟩, .leaf rfl rfl .nil⟩

theorem quoted (s : String) : Prints width next [.quoted s] [.leaf (.quoted s)] :=
  ⟨⟨trivial, trivial⟩, .leaf rfl rfl .nil⟩

theorem mark {m : Mark} (hrole : (Token.mark m).role = .inside) (hnext : ∀ c ∈ next, c ∉ m.goesOn) :
    Prints width next [.mark m] [.leaf (.mark m)] :=
  ⟨⟨hnext, trivial⟩, .leaf rfl hrole .nil⟩

/-- Tokens between brackets print one tree. -/
theorem enclosed (b : Bracket)
    (hopen : ∀ c ∈ Token.start width ts (some b.last), c ∉ b.opening.goesOn)
    (h : Prints width (some b.last) ts trees) :
    Prints width next (.mark b.opening :: (ts ++ [.mark b.closing])) [.group b trees] := by
  have hlast : Token.start width [.mark b.closing] next = some b.last :=
    Token.start_mark b.text_closing []
  refine ⟨⟨?_, Token.spaced_append.mpr ⟨?_, ?_, trivial⟩⟩, h.groups.enclosed b⟩
  · rw [Token.start_append, hlast]
    exact hopen
  · rw [hlast]
    exact h.spaced
  · intro c _
    cases b <;> exact List.not_mem_nil

/-- Parts with a separator between them, if each part may stand in front of the
separator and the last one in front of the rest. -/
theorem intercalate {α : Type} {may : Option Char → Prop} {sep : List Token}
    {between : List Tree} {c : Char}
    (hstart : ∀ next, Token.start width sep next = some c)
    (hsep : ∀ next, Prints width next sep between) (hc : may (some c)) (hnext : may next)
    {items : List α} {f : α → List Token} {g : α → List Tree}
    (h : ∀ x ∈ items, ∀ next, may next → Prints width next (f x) (g x)) :
    Prints width next (List.intercalate sep (items.map f))
      (List.intercalate between (items.map g)) := by
  induction items with
  | nil => exact .nil
  | cons x rest ih =>
      obtain ⟨hx, hrest⟩ := List.forall_mem_cons.mp h
      cases rest with
      | nil => simpa using hx next hnext
      | cons y rest =>
          simp only [List.map_cons, List.intercalate_cons_cons] at ih ⊢
          refine append (append ?_ (hsep _)) (ih hrest)
          rw [hstart]
          exact hx _ hc

theorem parenthesised (h : Prints width (some ')') ts trees) :
    Prints width next (Token.parenthesised ts) [.group .paren trees] :=
  enclosed .paren (fun _ _ => List.not_mem_nil) h

theorem bracketed (h : Prints width (some ']') ts trees) :
    Prints width next (Token.bracketed ts) [.group .square trees] :=
  enclosed .square (fun _ _ => List.not_mem_nil) h

/-- A mark with blanks around it may stand anywhere. -/
theorem markBetweenSpaces {m : Mark} (hrole : (Token.mark m).role = .inside) :
    Prints width next [.space, .mark m, .space] [.leaf (.mark m)] := by
  have hblank : ∀ c ∈ Token.start width [.space] next, c ∉ m.goesOn := by
    rw [Token.start_space]
    rintro c ⟨⟩
    cases m <;> decide
  exact space.append ((mark hrole hblank).append space)

/-- A mark with a blank behind it may stand anywhere, if no other one goes on
behind it. -/
theorem markAndSpace {m : Mark} (hrole : (Token.mark m).role = .inside) (hm : m.goesOn = []) :
    Prints width next [.mark m, .space] [.leaf (.mark m)] :=
  (mark hrole fun _ _ => hm ▸ List.not_mem_nil).append space

/-- Parts with a comma between them, where a comma and what follows the last
one may stand behind a part. -/
theorem commaSeparated {α : Type} {may : Option Char → Prop} (hcomma : may (some ','))
    (hnext : may next) {items : List α} {f : α → List Token} {g : α → List Tree}
    (h : ∀ x ∈ items, ∀ next, may next → Prints width next (f x) (g x)) :
    Prints width next (Token.commaSeparated (items.map f)) (commas (items.map g)) := by
  have hchars : Mark.comma.text.toList = [','] := rfl
  exact intercalate (fun _ => Token.start_mark hchars _)
    (fun _ => markAndSpace rfl rfl) hcomma hnext h

/-- A keyword with a blank behind it may stand anywhere. -/
theorem wordAndSpace {s : String} (hword : isWord s.toList = true) :
    Prints width next [.word s, .space] [.leaf (.word s)] := by
  have hblank : Prints width (some ' ') [.word s] [.leaf (.word s)] :=
    word hword (wordEnds_some (by decide))
  have hstart : Token.start width [.space] next = some ' ' := Token.start_space []
  rw [← hstart] at hblank
  exact hblank.append .space

/-- The name of a member behind what it is a member of. -/
theorem member (h : ∀ next, WordEnds next → Prints width next ts trees) {name : String}
    (hname : isWord name.toList = true) (hnext : WordEnds next) :
    Prints width next (ts ++ [.mark .dot, .word name])
      (trees ++ [.leaf (.mark .dot), .leaf (.word name)]) := by
  obtain ⟨⟨c, cs, hchars, hdigit⟩, hall⟩ := isWord_iff.mp hname
  have hdot : ∀ d ∈ Token.start width [.word name] next, d ∉ Mark.dot.goesOn := by
    rw [Token.start_cons (t := .word name) hchars]
    rintro d ⟨⟩ hgoes
    have hdigits : Mark.dot.goesOn.all (fun d => d.isDigit || !isWordChar d) = true := by decide
    have hword : isWordChar c = true := hall c (hchars ▸ List.mem_cons_self)
    simpa [hdigit, hword] using List.all_eq_true.mp hdigits c hgoes
  refine append ?_ ((mark rfl hdot).append (word hname hnext))
  rw [Token.start_mark (m := .dot) rfl]
  exact h _ (wordEnds_some (by decide))

/-- Arguments behind what they are for. -/
theorem arguments (h : ∀ next, WordEnds next → Prints width next ts trees)
    (hargs : ∀ next, WordEnds next → Prints width next us others) :
    Prints width next (ts ++ Token.parenthesised us) (trees ++ [.group .paren others]) := by
  refine append ?_ (hargs _ (wordEnds_some (by decide))).parenthesised
  rw [Token.parenthesised, Token.start_mark (m := .openParen) rfl]
  exact h _ (wordEnds_some (by decide))

end Prints

end AbiBindings.Script
