/-!
# TOML documents

A document is a tree of tables.  How a table came to be decides what may be
added to it later: a table with a header of its own and an inline table are
complete, a table that a longer header only passed through still may get its own
header, and one that dotted keys made may be extended by dotted keys.  `descend`
is the one place that knows these rules.
-/

namespace AbiBindings.Toml

/-- How a table came to be. -/
inductive Origin where
  /-- by a header of its own, or as the document itself -/
  | header
  /-- on the way to a longer header -/
  | passed
  /-- on the way to a dotted key -/
  | dotted
  /-- between braces -/
  | braces
deriving DecidableEq, Repr, Inhabited

/-- A value or a table.  A float and a moment in time are kept as they are
written. -/
inductive Node where
  | string (s : String)
  | integer (n : Int)
  | float (text : String)
  | boolean (b : Bool)
  | moment (text : String)
  | array (items : List Node)
  | table (origin : Origin) (entries : List (String × Node))
  | tables (items : List (List (String × Node)))
deriving Inhabited

/-- The entries of a table. -/
abbrev Entries := List (String × Node)

/-- A dotted key: the tables it leads through and the key in the last of
them. -/
structure Path where
  through : List String
  key : String
deriving DecidableEq, Repr, Inhabited

/-- What leads through tables: a header or a dotted key. -/
inductive Guide where
  | header | dottedKey
deriving DecidableEq, Repr

/-- The origin of a table that is made on the way. -/
def Guide.origin : Guide → Origin
  | .header => .passed
  | .dottedKey => .dotted

/-- Whether the guide may lead into a table of that origin. -/
def Guide.enters (g : Guide) (origin : Origin) : Bool :=
  match g, origin with
  | _, .braces => false
  | .header, _ => true
  | .dottedKey, .header => false
  | .dottedKey, _ => true

/-- The entries with another value for a key that is there. -/
def setEntry (entries : Entries) (key : String) (node : Node) : Entries :=
  entries.map fun e => if e.1 = key then (key, node) else e

/-- Changes the entries of the table that a list of keys leads to, making the
tables that are missing.  The last table of an array of tables stands for the
array. -/
def descend (g : Guide) (change : Origin → Entries → Option Entries) :
    List String → Origin → Entries → Option Entries
  | [], origin, entries => change origin entries
  | key :: rest, _, entries =>
      match entries.lookup key with
      | none => do
          let inner ← descend g change rest g.origin []
          some (entries ++ [(key, .table g.origin inner)])
      | some (.table origin inner) =>
          if g.enters origin then do
            let inner ← descend g change rest origin inner
            some (setEntry entries key (.table origin inner))
          else none
      | some (.tables items) => do
          let last ← items.getLast?
          let last ← descend g change rest .header last
          some (setEntry entries key (.tables (items.dropLast ++ [last])))
      | some _ => none

/-- The entries with one more, whose key may not be there yet. -/
def addEntry (entries : Entries) (key : String) (node : Node) : Option Entries :=
  if (entries.lookup key).isSome then none else some (entries ++ [(key, node)])

/-- The entries with the value of a dotted key.  Dotted keys add only to tables
that dotted keys made. -/
def addValue (entries : Entries) (path : Path) (node : Node) : Option Entries :=
  let add := fun origin inner =>
    if path.through.isEmpty || origin == .dotted then addEntry inner path.key node else none
  descend .dottedKey add path.through .header entries

/-- The entries with the values of several dotted keys. -/
def addValues (entries : Entries) : List (Path × Node) → Option Entries
  | [] => some entries
  | (path, node) :: rest => do addValues (← addValue entries path node) rest

/-- A header and the keys below it; `repeated` is told of a header that adds to
an array of tables. -/
structure Section where
  repeated : Bool
  path : Path
  values : List (Path × Node)

/-- The entries of the table that a header opens, with the keys below it. -/
def openTable (s : Section) (entries : Entries) : Option Entries :=
  match entries.lookup s.path.key with
  | none => do
      let inner ← addValues [] s.values
      some (entries ++ [(s.path.key, .table .header inner)])
  | some (.table .passed inner) => do
      let inner ← addValues inner s.values
      some (setEntry entries s.path.key (.table .header inner))
  | some _ => none

/-- The entries with one more table in the array of tables that a header
opens. -/
def openRepeated (s : Section) (entries : Entries) : Option Entries := do
  let inner ← addValues [] s.values
  match entries.lookup s.path.key with
  | none => some (entries ++ [(s.path.key, .tables [inner])])
  | some (.tables items) => some (setEntry entries s.path.key (.tables (items ++ [inner])))
  | some _ => none

/-- The document with one more section. -/
def addSection (entries : Entries) (s : Section) : Option Entries :=
  let change := fun _ inner => if s.repeated then openRepeated s inner else openTable s inner
  descend .header change s.path.through .header entries

end AbiBindings.Toml
