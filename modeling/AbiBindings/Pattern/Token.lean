import AbiBindings.Text.Alphanumeric
import AbiBindings.Text.Blank
import AbiBindings.Text.Digits

/-!
# Tokens of a pattern

A pattern is a regular expression with groups, alternatives, repetitions and
sets of characters.  It is read into tokens, each under the mode that is in
force at its place: a group may change the mode up to its end, and a change of
flags up to the end of the group that it stands in.

A pattern is the value of a field, so that it holds no comma, no equals sign and
no closing brace.  A counted repetition, a code point or a property in braces
would need such a brace: it is never complete.
-/

namespace AbiBindings.Pattern

/-- How a pattern is read at a place. -/
structure Mode where
  /-- capitals and small letters match each other -/
  caseless : Bool := false
  /-- characters are matched, and not bytes -/
  unicode : Bool := true
  /-- blanks and comments stand between tokens -/
  spaced : Bool := false
deriving DecidableEq, Repr

/-- A token of a pattern. -/
inductive Token where
  /-- a character, perhaps written as a byte of two hexadecimal digits -/
  | literal (c : Char) (isByte : Bool)
  /-- any character -/
  | dot
  /-- an end of the text or of a line -/
  | anchor
  /-- the start, the end or the inside of a word -/
  | boundary
  /-- the class of the digits, of the blanks or of the characters of words -/
  | shorthand (negated : Bool)
  /-- what comes before it is repeated -/
  | repeats
  | bar
  | openGroup (name : Option String)
  | closeGroup
  | flags
  | openSet (negated : Bool)
  | closeSet
  /-- the characters of a set from one to another -/
  | member (first last : Char)
  /-- a named class of ASCII characters in a set -/
  | asciiClass (negated : Bool)
  /-- what stands between two operands of a set -/
  | setOperator
deriving DecidableEq, Repr

/-- A token and the mode that it stands under. -/
structure Mark where
  mode : Mode
  token : Token
deriving DecidableEq, Repr

/-- What has been read so far leaves open: the mode, those to return to at the
ends of the open groups, innermost first, and the number of open sets. -/
structure Place where
  mode : Mode := {}
  outer : List Mode := []
  sets : Nat := 0
deriving DecidableEq, Repr

/-- The text without the blanks and the comments that it starts with; it may
start inside a comment. -/
def dropComments (inside : Bool) : List Char → List Char
  | [] => []
  | c :: cs =>
      if inside then dropComments (c != '\n') cs
      else if Text.isBlank c then dropComments false cs
      else if c = '#' then dropComments true cs
      else c :: cs

/-- The text without what does not count at its start. -/
def Mode.skip (m : Mode) (cs : List Char) : List Char :=
  if m.spaced then dropComments false cs else cs

/-- The mode with a flag switched. -/
def Mode.switch (m : Mode) (flag : Char) (on : Bool) : Mode :=
  match flag with
  | 'i' => { m with caseless := on }
  | 'u' => { m with unicode := on }
  | 'x' => { m with spaced := on }
  | _ => m

/-- The flags; those that do not change the mode tell how lines end and what is
matched first. -/
def flagLetters : List Char := ['i', 'm', 's', 'U', 'u', 'R', 'x']

/-- Whether a character is an ASCII character without a meaning of its own
behind a backslash. -/
def isEscapable (c : Char) : Bool :=
  c.toNat < 128 && !c.isAlphanum

/-- The letters that stand for control characters behind a backslash. -/
def controls : List (Char × Nat) :=
  [('a', 0x7), ('t', 0x9), ('n', 0xa), ('v', 0xb), ('f', 0xc), ('r', 0xd)]

/-- A number of hexadecimal digits, blanks between them aside, and what follows
them. -/
def hexDigits? (m : Mode) : Nat → List Char → Option (List Char × List Char)
  | 0, cs => some ([], m.skip cs)
  | n + 1, cs =>
      match m.skip cs with
      | c :: rest => do
          if (Text.digitValue? c).isNone then none
          let (digits, rest) ← hexDigits? m n rest
          some (c :: digits, rest)
      | [] => none

/-- The character of a code point of so many digits, and what follows it. -/
def codePoint? (m : Mode) (digits : Nat) (cs : List Char) : Option (Token × List Char) := do
  let (written, rest) ← hexDigits? m digits cs
  let code ← Text.hexValue? written
  if code.isValidChar then some (.literal (Char.ofNat code) (digits == 2), rest) else none

/-- What a backslash and the text behind it stand for, and what follows that. -/
def escape? (m : Mode) : List Char → Option (Token × List Char)
  | [] => none
  | c :: rest =>
      match c with
      | 'x' => codePoint? m 2 rest
      | 'u' => codePoint? m 4 rest
      | 'U' => codePoint? m 8 rest
      | 'd' | 's' | 'w' => some (.shorthand false, rest)
      | 'D' | 'S' | 'W' => some (.shorthand true, rest)
      | 'A' | 'z' => some (.anchor, rest)
      | 'b' | 'B' | '<' | '>' => some (.boundary, rest)
      | _ =>
          if isEscapable c then some (.literal c false, rest)
          else (controls.lookup c).map fun code => (.literal (Char.ofNat code) false, rest)

/-- The mode after the flags at the start of a text, the flags nearest first,
the character that ended them, and what follows it.  No flag and no minus sign
is repeated, and a flag follows the minus sign. -/
def scanFlags? (on : Bool) (seen : List Char) (m : Mode) :
    List Char → Option (Mode × List Char × Char × List Char)
  | [] => none
  | c :: rest =>
      if c = ':' || c = ')' then
        if seen.head? = some '-' then none else some (m, seen, c, rest)
      else if seen.contains c then none
      else if c = '-' then scanFlags? false (c :: seen) m rest
      else if flagLetters.contains c then scanFlags? on (c :: seen) (m.switch c on) rest
      else none

/-- Whether a text may name a group. -/
def isGroupName : List Char → Bool
  | [] => false
  | c :: cs =>
      (c == '_' || Text.isLetter c) &&
        cs.all fun c => ['_', '.', '[', ']'].contains c || Text.isAlphanumeric c

/-- The name at the start of a text, and what follows the bracket that closes
it. -/
def groupName? (cs : List Char) : Option (String × List Char) :=
  let name := cs.takeWhile (· != '>')
  match cs.dropWhile (· != '>') with
  | _ :: rest => if isGroupName name then some (String.ofList name, rest) else none
  | [] => none

/-- A step of the reading of a pattern: the tokens read, the place after them,
and the rest. -/
abbrev Step := Option (List Token × Place × List Char)

/-- Opens a group under a mode. -/
def Place.enter (p : Place) (m : Mode) (name : Option String) (rest : List Char) : Step :=
  some ([.openGroup name], { p with mode := m, outer := p.mode :: p.outer }, rest)

/-- Reads on behind the parenthesis that opens a group or a change of flags. -/
def Place.group? (p : Place) (cs : List Char) : Step :=
  match p.mode.skip cs with
  | '?' :: 'P' :: '<' :: rest | '?' :: '<' :: rest => do
      let (name, rest) ← groupName? rest
      p.enter p.mode (some name) rest
  | '?' :: rest => do
      let (m, seen, stop, rest) ← scanFlags? true [] p.mode rest
      if stop = ':' then p.enter m none rest
      else if seen.isEmpty then none
      else some ([.flags], { p with mode := m }, rest)
  | rest => p.enter p.mode none rest

/-- The number of minus signs at the start of a text, and what follows them. -/
def scanMinuses (m : Mode) : Nat → List Char → Nat × List Char
  | fuel + 1, '-' :: rest =>
      let (n, rest) := scanMinuses m fuel (m.skip rest)
      (n + 1, rest)
  | _, cs => (0, cs)

/-- Reads on behind the bracket that opens a set.  Minus signs stand for
themselves there, and so does a closing bracket. -/
def Place.set? (p : Place) (cs : List Char) : Step :=
  let (negated, cs) := match p.mode.skip cs with
    | '^' :: rest => (true, p.mode.skip rest)
    | rest => (false, rest)
  let inside := { p with sets := p.sets + 1 }
  match scanMinuses p.mode cs.length cs with
  | (0, ']' :: rest) => some ([.openSet negated, .member ']' ']'], inside, rest)
  | (n, rest) => some (.openSet negated :: List.replicate n (.member '-' '-'), inside, rest)

/-- The names of the classes of ASCII characters. -/
def asciiClassNames : List String :=
  ["alnum", "alpha", "ascii", "blank", "cntrl", "digit", "graph", "lower", "print", "punct",
    "space", "upper", "word", "xdigit"]

/-- Whether the class named behind an opening bracket is negated, and what
follows it; nothing when no class is named there. -/
def asciiClass? : List Char → Option (Bool × List Char)
  | ':' :: cs =>
      let (negated, cs) := match cs with
        | '^' :: rest => (true, rest)
        | _ => (false, cs)
      match cs.dropWhile (· != ':') with
      | ':' :: ']' :: rest =>
          if asciiClassNames.contains (String.ofList (cs.takeWhile (· != ':'))) then
            some (negated, rest)
          else none
      | _ => none
  | _ => none

/-- A character or an escape in a set, and what follows it. -/
def setItem? (m : Mode) : List Char → Option (Token × List Char)
  | [] => none
  | '\\' :: rest => escape? m rest
  | c :: rest => some (.literal c false, rest)

/-- The next character that a look ahead finds.  It passes by the sign of a
comment, not the comment. -/
def Mode.peek? (m : Mode) (cs : List Char) : Option Char :=
  if m.spaced then
    match cs.dropWhile Text.isBlank with
    | '#' :: rest => (rest.dropWhile Text.isBlank).head?
    | rest => rest.head?
  else cs.head?

/-- Reads a member of a set: a character, a class, or a range. -/
def Place.member? (p : Place) (cs : List Char) : Step := do
  let (first, rest) ← setItem? p.mode cs
  let rest := p.mode.skip rest
  let single : Step :=
    match first with
    | .literal c _ => some ([.member c c], p, rest)
    | .shorthand negated => some ([.shorthand negated], p, rest)
    | _ => none
  match rest with
  | '-' :: behind =>
      if p.mode.peek? behind = some ']' || p.mode.peek? behind = some '-' then single
      else do
        let (last, rest) ← setItem? p.mode (p.mode.skip behind)
        match first, last with
        | .literal a _, .literal b _ => if a ≤ b then some ([.member a b], p, rest) else none
        | _, _ => none
  | _ => single

/-- A step inside a set. -/
def Place.inSet? (p : Place) (cs : List Char) : Step :=
  match cs with
  | '[' :: rest =>
      match asciiClass? rest with
      | some (negated, rest) => some ([.asciiClass negated], p, rest)
      | none => p.set? rest
  | ']' :: rest => some ([.closeSet], { p with sets := p.sets - 1 }, rest)
  | '&' :: '&' :: rest | '-' :: '-' :: rest | '~' :: '~' :: rest => some ([.setOperator], p, rest)
  | _ => p.member? cs

/-- A step outside of sets. -/
def Place.outside? (p : Place) : List Char → Step
  | [] => none
  | c :: rest =>
      match c with
      | '(' => p.group? rest
      | ')' =>
          match p.outer with
          | m :: outer => some ([.closeGroup], { p with mode := m, outer }, rest)
          | [] => none
      | '|' => some ([.bar], p, rest)
      | '[' => p.set? rest
      | '?' | '*' | '+' =>
          match rest with
          | '?' :: rest => some ([.repeats], p, rest)
          | _ => some ([.repeats], p, rest)
      | '\x7b' => none
      | '\\' => do
          let (token, rest) ← escape? p.mode rest
          some ([token], p, rest)
      | '.' => some ([.dot], p, rest)
      | '^' | '$' => some ([.anchor], p, rest)
      | _ => some ([.literal c false], p, rest)

/-- The marks of the rest of a pattern from a place on; nothing when a group or
a set stays open. -/
def scanFrom : Nat → Place → List Char → Option (List Mark)
  | 0, _, _ => none
  | fuel + 1, p, cs =>
      match p.mode.skip cs with
      | [] => if p.sets = 0 && p.outer.isEmpty then some [] else none
      | cs => do
          let (tokens, next, rest) ← if p.sets = 0 then p.outside? cs else p.inSet? cs
          let more ← scanFrom fuel next rest
          some (tokens.map (⟨p.mode, ·⟩) ++ more)

/-- The marks of a pattern. -/
def scan? (cs : List Char) : Option (List Mark) :=
  scanFrom (cs.length + 1) {} cs

end AbiBindings.Pattern
