import AbiBindings.Json.Basic
import AbiBindings.Table

/-!
# Reading documents into data

Readers for the shapes that data of fixed types takes in a document.  A record
is written either as an object, where unknown fields are skipped and a known one
may not be repeated, or as an array of the field values in order, where fields
may be missing at the end.  A table is an object, and of a repeated key the last
field counts.
-/

namespace AbiBindings.Json.Raw

variable {α : Type}

/-- The text of a string literal. -/
def text? : Raw → Option String
  | .string s => s
  | _ => none

/-- The truth value. -/
def flag? : Raw → Option Bool
  | .bool b => some b
  | _ => none

/-- The natural number of 64 bits. -/
def natural? : Raw → Option Nat
  | .number n => n.natural?
  | _ => none

/-- What `read` makes of a document other than null. -/
def nullable? (read : Raw → Option α) : Raw → Option (Option α)
  | .null => some none
  | raw => some <$> read raw

/-- What `read` makes of each item of an array. -/
def list? (read : Raw → Option α) : Raw → Option (List α)
  | .array items => items.mapM read
  | _ => none

/-- The fields of an object, provided that every key is a text. -/
def fields? : Raw → Option (List (String × Raw))
  | .object fields => fields.mapM fun (key, raw) => (·, raw) <$> key
  | _ => none

/-- What `read` makes of each field of an object. -/
def table? (read : Raw → Option α) (raw : Raw) : Option (Table α) := do
  let fields ← raw.fields?
  Table.ofList <$> fields.mapM fun (key, value) => (key, ·) <$> read value

/-- The fields of a record whose field names, in order, are given. -/
def record? (names : List String) : Raw → Option (List (String × Raw))
  | .array items => if items.length ≤ names.length then some (names.zip items) else none
  | raw => do
      let known := (← raw.fields?).filter fun f => names.contains f.1
      if (known.map (·.1)).eraseDups.length = known.length then some known else none

/-- What `read` makes of a field of a record, which may not be missing. -/
def field? (read : Raw → Option α) (fields : List (String × Raw)) (name : String) : Option α :=
  (fields.lookup name).bind read

/-- What `read` makes of a field of a record, or the default when it is
missing. -/
def fieldOr? (read : Raw → Option α) (default : α) (fields : List (String × Raw)) (name : String) :
    Option α :=
  match fields.lookup name with
  | some raw => read raw
  | none => some default

/-- The name of a case without contents: a string, or an object whose only key
it is, with null behind it. -/
def caseName? : Raw → Option String
  | .object [(key, .null)] => key
  | raw => raw.text?

end AbiBindings.Json.Raw
