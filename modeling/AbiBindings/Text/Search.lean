/-!
# Searching in text

Whether a text holds another one somewhere, and cutting text at offsets that
count UTF-8 bytes.
-/

namespace AbiBindings.Text

/-- Whether `needle` stands somewhere in the text. -/
def holds (needle : List Char) : List Char → Bool
  | [] => needle.isEmpty
  | c :: cs => needle.isPrefixOf (c :: cs) || holds needle cs

/-- The text behind its first `n` bytes; nothing when it is shorter or `n` falls
inside a character. -/
def dropBytes? : Nat → List Char → Option (List Char)
  | 0, cs => some cs
  | _ + 1, [] => none
  | n + 1, c :: cs => if c.utf8Size ≤ n + 1 then dropBytes? (n + 1 - c.utf8Size) cs else none
termination_by structural _ cs => cs

/-- The first `n` bytes of the text; nothing when it is shorter or `n` falls
inside a character. -/
def takeBytes? : Nat → List Char → Option (List Char)
  | 0, _ => some []
  | _ + 1, [] => none
  | n + 1, c :: cs =>
      if c.utf8Size ≤ n + 1 then (c :: ·) <$> takeBytes? (n + 1 - c.utf8Size) cs else none
termination_by structural _ cs => cs

/-- The `length` bytes of `s` from byte `start` on; nothing when the range
leaves the text or cuts a character. -/
def sliceBytes? (s : String) (start length : Nat) : Option String := do
  let behind ← dropBytes? start s.toList
  String.ofList <$> takeBytes? length behind

end AbiBindings.Text
