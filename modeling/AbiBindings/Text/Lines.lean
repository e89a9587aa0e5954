/-!
# Lines

A line ends at a line feed, or at a carriage return with a line feed behind it.
A carriage return anywhere else belongs to its line, and so does one at the end
of a text that stops without a line feed.
-/

namespace AbiBindings.Text

namespace Lines

/-- A line from its characters before the line feed, nearest first. -/
def closed : List Char → String
  | '\r' :: before => String.ofList before.reverse
  | before => String.ofList before.reverse

/-- The lines of a text whose first line begins with the characters `before`,
nearest first. -/
def linesFrom (before : List Char) : List Char → List String
  | [] => if before.isEmpty then [] else [String.ofList before.reverse]
  | c :: cs => if c = '\n' then closed before :: linesFrom [] cs else linesFrom (c :: before) cs

end Lines

/-- The lines of a text, without what ends them. -/
def lines (s : String) : List String :=
  Lines.linesFrom [] s.toList

end AbiBindings.Text
