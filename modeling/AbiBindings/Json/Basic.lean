import AbiBindings.Json.Raw

/-!
# JSON values

A value is a document whose strings are texts, whose numerals fit into a double
and whose nesting is limited.  An object keeps its fields in written order, and
of a repeated key the last field counts.
-/

namespace AbiBindings

/-- A JSON value. -/
inductive Json where
  | null
  | bool (b : Bool)
  | number (n : Json.Numeral)
  | string (s : String)
  | array (items : List Json)
  | object (fields : List (String × Json))
deriving Inhabited

namespace Json

/-- The value of the last field of that key. -/
def lastField? {α : Type} (fields : List (String × α)) (key : String) : Option α :=
  fields.foldl (fun found f => if f.1 == key then some f.2 else found) none

/-- The field of an object; any other value has none. -/
def get? (key : String) : Json → Option Json
  | .object fields => lastField? fields key
  | _ => none

/-- The text of a string. -/
def text? : Json → Option String
  | .string s => some s
  | _ => none

/-- The truth value. -/
def flag? : Json → Option Bool
  | .bool b => some b
  | _ => none

/-- The items of an array. -/
def items? : Json → Option (List Json)
  | .array items => some items
  | _ => none

/-- The text of a field; nothing when it is missing or no string. -/
def textField? (j : Json) (key : String) : Option String := (j.get? key).bind text?

/-- The truth value of a field; nothing when it is missing or none. -/
def flagField? (j : Json) (key : String) : Option Bool := (j.get? key).bind flag?

mutual

/-- The value that a document holds, of at most `depth` levels of nesting. -/
def ofRaw? (depth : Nat) : Raw → Option Json
  | .null => some .null
  | .bool b => some (.bool b)
  | .number n => if n.isFinite then some (.number n) else none
  | .string s => Json.string <$> s
  | .array items =>
      match depth with
      | 0 => none
      | depth + 1 => Json.array <$> ofRaws? depth items
  | .object fields =>
      match depth with
      | 0 => none
      | depth + 1 => Json.object <$> ofFields? depth fields

/-- The values of items. -/
def ofRaws? (depth : Nat) : List Raw → Option (List Json)
  | [] => some []
  | r :: rest => do
      let j ← ofRaw? depth r
      let js ← ofRaws? depth rest
      some (j :: js)

/-- The values of fields. -/
def ofFields? (depth : Nat) : List (Option String × Raw) → Option (List (String × Json))
  | [] => some []
  | (key, r) :: rest => do
      let key ← key
      let j ← ofRaw? depth r
      let js ← ofFields? depth rest
      some ((key, j) :: js)

end

/-- How deep a value may nest when it is a whole document. -/
def maxDepth : Nat := 127

/-- The value that a text holds. -/
def parse? (text : String) : Option Json := do
  ofRaw? maxDepth (← Raw.read? text)

end Json

end AbiBindings
