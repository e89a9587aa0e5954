import AbiBindings.Pattern.Nesting

/-!
# Valid patterns

A pattern is matched against well-formed text, by an automaton that knows the
code points but neither the properties of characters nor their pairs of capitals
and small letters.  It is valid if its tokens need nothing else, if it is not
nested too deeply, and if no two groups have the same name.
-/

namespace AbiBindings.Pattern

/-- Why a pattern is not valid. -/
inductive Flaw where
  | unreadable
  /-- a boundary of words under a mode that matches characters -/
  | wordBoundary
deriving DecidableEq, Repr

/-- The wording of a flaw. -/
def Flaw.message : Flaw → String
  | .unreadable => "error building NFA"
  | .wordBoundary =>
      "unsupported regex feature for DFAs: cannot build DFAs for regexes with Unicode word " ++
        "boundaries; switch to ASCII word boundaries, or heuristically enable Unicode word " ++
        "boundaries or use a different regex engine"

/-- Whether a character is one of ASCII. -/
def isAscii (c : Char) : Bool :=
  c.toNat < 128

/-- Whether a token can be matched.  Under a mode that matches characters, what
has to compare capitals with small letters or needs a class of all scripts
cannot; under one that matches bytes, what could match a part of a character
cannot. -/
def Mark.isMatchable (mark : Mark) : Bool :=
  let m := mark.mode
  match mark.token with
  | .literal c isByte =>
      if m.unicode then !m.caseless else isAscii c || !(isByte || m.caseless)
  | .member first last =>
      if m.unicode then !m.caseless else isAscii first && isAscii last
  | .asciiClass negated => if m.unicode then !m.caseless else !negated
  | .shorthand negated => !m.unicode && !negated
  | .openSet negated => m.unicode || !negated
  | .dot => m.unicode
  | _ => true

/-- The name of a group that the token opens. -/
def Token.name? : Token → Option String
  | .openGroup name => name
  | _ => none

/-- Whether no name comes twice. -/
def areDistinct : List String → Bool
  | [] => true
  | name :: names => !names.contains name && areDistinct names

/-- The greatest depth of a pattern. -/
def depthLimit : Nat := 250

/-- Whether the marks are those of a pattern that an automaton can be built for,
boundaries of words aside. -/
def isReadable (marks : List Mark) : Bool :=
  let tokens := marks.map (·.token)
  marks.all (·.isMatchable) && areDistinct (tokens.filterMap (·.name?)) &&
    match depth? tokens with
    | some depth => depth ≤ depthLimit
    | none => false

/-- The flaw of a pattern, if it has one. -/
def flaw? (cs : List Char) : Option Flaw :=
  match scan? cs with
  | none => some .unreadable
  | some marks =>
      if !isReadable marks then some .unreadable
      else if marks.any fun mark => mark.mode.unicode && mark.token == .boundary then
        some .wordBoundary
      else none

end AbiBindings.Pattern
