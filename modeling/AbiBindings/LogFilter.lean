import AbiBindings.Pattern.Validity
import AbiBindings.Text.Alphanumeric
import AbiBindings.Text.Blank
import AbiBindings.Text.Digits
import AbiBindings.Text.Lowercase
import AbiBindings.Text.Search

/-!
# Log filters

A log filter lists directives, with commas between them.  A directive says from
which level on a target is logged, perhaps only inside of a span whose fields
have certain values: it is a level, a target, or has the form
`target[span{field=value}]=level`, where each part may be missing.

The ends of the parts are looked for in the directive without the blanks around
it, but the parts are taken out of the directive as it was written, at the same
numbers of bytes.  Blanks before a directive thus shift its parts to the left,
and a part that then ends inside of a character cannot be taken at all.  That is
the only flaw that no reader of filters gets past; any other one makes the
directive, or the whole filter, invalid.
-/

namespace AbiBindings.LogFilter

/-- What is wrong with a directive. -/
inductive Flaw where
  | malformed
  | unknownLevel
  | badValue (cause : Pattern.Flaw)
  /-- a part starts or ends inside of a character -/
  | cutCharacter
deriving DecidableEq, Repr

/-- The wording of a flaw. -/
def Flaw.message : Flaw → String
  | .malformed => "invalid filter directive"
  | .unknownLevel =>
      "error parsing level filter: expected one of \"off\", \"error\", \"warn\", \"info\", " ++
        "\"debug\", \"trace\", or a number 0-5"
  | .badValue cause => "invalid field filter: " ++ cause.message
  | .cutCharacter => "filter directive with a part that cuts a character"

/-- The names of the levels; their places are their numbers. -/
def levelNames : List String := ["off", "error", "warn", "info", "debug", "trace"]

/-- Whether a text is the name of a level, in capitals or not, or its number,
perhaps with a plus sign and zeros before it. -/
def isLevel (cs : List Char) : Bool :=
  let digits := match cs with
    | '+' :: rest => rest
    | _ => cs
  let isNumber := !digits.isEmpty && digits.all Char.isDigit
  if isNumber then Text.decimalValue digits < levelNames.length
  else levelNames.contains (String.ofList (Text.lowercaseAscii cs))

/-- The number of bytes of a text. -/
def width (cs : List Char) : Nat :=
  (String.ofList cs).utf8ByteSize

/-- The part of a directive between two numbers of bytes. -/
def part (written : String) (first last : Nat) : Except Flaw String :=
  match Text.sliceBytes? written first (last - first) with
  | some s => .ok s
  | none => .error .cutCharacter

/-- A part of a directive, the character that ended it, and what follows that
character together with its place. -/
structure Piece where
  part : String
  stop : Char
  place : Nat
  rest : List Char

/-- The piece up to the first of the stops in the characters from `place` on;
nothing when there is none.  A stop is a character of one byte. -/
def pieceTo? (stops : List Char) (written : String) (place : Nat) (cs : List Char) :
    Option (Except Flaw Piece) :=
  let isInside := fun c => !stops.contains c
  match cs.dropWhile isInside with
  | [] => none
  | stop :: rest =>
      let last := place + width (cs.takeWhile isInside)
      some ((fun s => ⟨s, stop, last + 1, rest⟩) <$> part written place last)

/-- Checks the level, which is what was written from `place` on; none at all
stands for the last one. -/
def checkLevel (written : String) (place : Nat) : Except Flaw Unit := do
  let level ← part written place (width written.toList)
  if level.isEmpty || isLevel level.toList then .ok () else .error .unknownLevel

/-- Checks what follows the bracket that closes a span. -/
def checkEnd (written : String) (place : Nat) : List Char → Except Flaw Unit
  | [] => .ok ()
  | '=' :: _ => checkLevel written (place + 1)
  | _ => .error .malformed

/-- Checks a field: a name, or a name and a value with an equals sign between
them.  A value is a number, or else the pattern of the values that are meant. -/
def checkField (field : String) : Except Flaw Unit :=
  match field.splitOn "=" with
  | _ :: value :: _ =>
      if Text.isFloat value.toList then .ok ()
      else match Pattern.flaw? value.toList with
        | some cause => .error (.badValue cause)
        | none => .ok ()
  | _ => if field.isEmpty then .error .malformed else .ok ()

/-- Checks the field of a span and what follows it. -/
def checkFields (written : String) (place : Nat) (cs : List Char) : Except Flaw Unit :=
  match pieceTo? ['\x7d'] written place cs with
  | none => .error .malformed
  | some piece => do
      let field ← piece
      checkField field.part
      match field.rest with
      | ']' :: rest => checkEnd written (field.place + 1) rest
      | _ => .error .malformed

/-- Checks a span and what follows it. -/
def checkSpan (written : String) (place : Nat) (cs : List Char) : Except Flaw Unit :=
  match pieceTo? [']', '\x7b'] written place cs with
  | none => .error .malformed
  | some piece => do
      let span ← piece
      if span.stop = ']' then checkEnd written span.place span.rest
      else checkFields written span.place span.rest

/-- Whether a target or a level may start with `c`. -/
def isStart (c : Char) : Bool :=
  c == '-' || c == ':' || c == '_' || Text.isAlphanumeric c

/-- Checks a directive. -/
def check (written : String) : Except Flaw Unit :=
  match (Text.trim written).toList with
  | [] => .error .malformed
  | '[' :: cs => checkSpan written 1 cs
  | c :: cs =>
      if isStart c then
        match pieceTo? ['=', '['] written 0 (c :: cs) with
        | none => .ok ()
        | some piece => do
            let target ← piece
            if target.stop = '=' then checkLevel written target.place
            else checkSpan written target.place target.rest
      else .error .malformed

/-- The flaw of a directive, if it has one. -/
def flaw? (written : String) : Option Flaw :=
  match check written with
  | .ok () => none
  | .error flaw => some flaw

/-- The directives of a filter. -/
def directives (filter : String) : List String :=
  (filter.splitOn ",").filter (· != "")

/-- The first flaw of a filter. -/
def firstFlaw? (filter : String) : Option Flaw :=
  (directives filter).findSome? flaw?

/-- What is said of a directive that is left out. -/
def complaint (written : String) (flaw : Flaw) : String :=
  "ignoring `" ++ written ++ "`: " ++ flaw.message

/-- What is said of the directives of a filter that have to be left out; nothing
when one of them cannot be read at all. -/
def complaints? (filter : String) : Option (List String) :=
  (directives filter).foldrM (fun written said =>
    match flaw? written with
    | none => some said
    | some .cutCharacter => none
    | some flaw => some (complaint written flaw :: said)) []

/-- What is said when the log of a run is set up: a filter that is asked for and
valid is taken without a word, and else the flawed directives of the usual one
are left out.  Nothing when a directive that had to be looked at cannot be read
at all. -/
def setUp? (asked : Option String) (usual : String) : Option (List String) :=
  match asked.map firstFlaw? with
  | some none => some []
  | some (some .cutCharacter) => none
  | _ => complaints? usual

end AbiBindings.LogFilter
