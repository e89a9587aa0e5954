import AbiBindings.Text.Quoted

/-!
# Tokens of the generated code

Printed code is a list of tokens: words, numbers, string literals, punctuation
marks and layout.  Only layout tokens carry blanks, and an indentation token
carries the depth it stands for, so that a statement on nesting or on
indentation can be made on tokens, before any text exists.  `Token.render` turns
the list into text for a given indentation width.
-/

namespace AbiBindings.Script

/-- Punctuation marks and operators. -/
inductive Mark where
  | openBrace | closeBrace | openParen | closeParen | openBracket | closeBracket
  | openAngle | closeAngle | comma | colon | semicolon | dot | ellipsis | question
  | equals | arrow | bar | plus | strictEq | strictNe | and | or
deriving DecidableEq, Repr, Inhabited

/-- The spelling of a mark. -/
def Mark.text : Mark → String
  | .openBrace => "\x7b"
  | .closeBrace => "\x7d"
  | .openParen => "("
  | .closeParen => ")"
  | .openBracket => "["
  | .closeBracket => "]"
  | .openAngle => "<"
  | .closeAngle => ">"
  | .comma => ","
  | .colon => ":"
  | .semicolon => ";"
  | .dot => "."
  | .ellipsis => "..."
  | .question => "?"
  | .equals => "="
  | .arrow => "=>"
  | .bar => "|"
  | .plus => "+"
  | .strictEq => "==="
  | .strictNe => "!=="
  | .and => "&&"
  | .or => "||"

/-- A piece of printed code.  A `word` is a name or a keyword and is written as
it is; `quoted` is a string literal given by the string it denotes. -/
inductive Token where
  | word (text : String)
  | number (value : Nat)
  | quoted (value : String)
  | mark (m : Mark)
  | space
  | newline
  | indent (level : Nat)
deriving DecidableEq, Repr, Inhabited

namespace Token

/-- The text of a token, where one level of indentation is `width` blanks. -/
def text (width : Nat) : Token → String
  | .word s => s
  | .number n => toString n
  | .quoted s => Text.quote s
  | .mark m => m.text
  | .space => " "
  | .newline => "\n"
  | .indent level => String.ofList (List.replicate (level * width) ' ')

/-- The text of a list of tokens. -/
def render (width : Nat) (ts : List Token) : String :=
  String.ofList (ts.flatMap fun t => (t.text width).toList)

/-- The parts with a comma and a blank between them. -/
def commaSeparated (parts : List (List Token)) : List Token :=
  List.intercalate [mark .comma, space] parts

/-- The tokens between parentheses. -/
def parenthesised (ts : List Token) : List Token :=
  mark .openParen :: (ts ++ [mark .closeParen])

/-- The tokens between brackets. -/
def bracketed (ts : List Token) : List Token :=
  mark .openBracket :: (ts ++ [mark .closeBracket])

/-- The parts between angle brackets, or nothing when there are none. -/
def angled (parts : List (List Token)) : List Token :=
  if parts.isEmpty then [] else mark .openAngle :: (commaSeparated parts ++ [mark .closeAngle])

/-- Lines between braces: the closing brace stands on a line of its own at
`level`. -/
def linesBetweenBraces (level : Nat) (lines : List Token) : List Token :=
  [mark .openBrace, newline] ++ lines ++ [newline, indent level, mark .closeBrace]

/-- The parts, a line each, between braces; bare braces when there are none. -/
def block (level : Nat) (parts : List (List Token)) : List Token :=
  if parts.isEmpty then [mark .openBrace, mark .closeBrace]
  else linesBetweenBraces level (List.intercalate [newline] parts)

/-- The tokens in parentheses where `needed`, else as they are. -/
def parenthesisedIf (needed : Bool) (ts : List Token) : List Token :=
  if needed then parenthesised ts else ts

end Token

end AbiBindings.Script
