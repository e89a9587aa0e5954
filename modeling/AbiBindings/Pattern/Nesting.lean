import AbiBindings.Pattern.Token

/-!
# Nesting of a pattern

The depth of a pattern counts the groups, sets, repetitions, and sequences or
alternatives of two parts or more that stand inside each other.  It is found in
one pass over the tokens, which also tells whether every repetition has
something to repeat.
-/

namespace AbiBindings.Pattern

/-- The depth of parts that are taken together; a single part stays as it is. -/
def joinedDepth : List Nat → Nat
  | [] => 0
  | [depth] => depth
  | depths => depths.foldl max 0 + 1

/-- What is known of an open group or set: the depths of the parts of its last
branch and those of the branches before it, nearest first, and whether the last
part may be repeated. -/
structure Level where
  parts : List Nat := []
  branches : List Nat := []
  repeatable : Bool := false
deriving DecidableEq, Repr

/-- The depth of what the level holds. -/
def Level.depth (l : Level) : Nat :=
  joinedDepth (joinedDepth l.parts :: l.branches)

/-- The level with one more part that may be repeated. -/
def Level.add (l : Level) (depth : Nat) : Level :=
  { l with parts := depth :: l.parts, repeatable := true }

/-- The levels with a token, innermost first; nothing when a repetition has
nothing to repeat. -/
def addToken (l : Level) (outer : List Level) : Token → Option (Level × List Level)
  | .openGroup _ | .openSet _ => some ({}, l :: outer)
  | .closeGroup | .closeSet =>
      match outer with
      | next :: outer => some (next.add (l.depth + 1), outer)
      | [] => none
  | .bar => some ({ branches := joinedDepth l.parts :: l.branches }, outer)
  | .setOperator => some ({ branches := [l.depth] }, outer)
  | .flags => some ({ l with parts := 0 :: l.parts, repeatable := false }, outer)
  | .repeats =>
      match l.parts with
      | depth :: parts =>
          if l.repeatable then some ({ l with parts := (depth + 1) :: parts }, outer) else none
      | [] => none
  | .literal .. | .dot | .anchor | .boundary | .shorthand _ | .member .. | .asciiClass _ =>
      some (l.add 0, outer)

/-- The depth of a pattern of these tokens. -/
def depth? (tokens : List Token) : Option Nat := do
  let start : Level × List Level := ({}, [])
  let (l, _) ← tokens.foldlM (fun (l, outer) token => addToken l outer token) start
  some l.depth

end AbiBindings.Pattern
