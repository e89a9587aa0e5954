import AbiBindings.Policy

/-!
# Command-line arguments

Arguments are read from left to right, and the first one that is wrong, or asks
for help or for the version, decides.  An option takes its value from behind an
equals sign, from the rest of its own argument after a single letter, or from
the next argument; no option is given twice on one level.  The options of the
program may stand before the command or behind it, and what stands behind it
counts.
-/

namespace AbiBindings.CommandLine

/-- An option. -/
inductive Flag where
  | config | verbose | help | version | solc | policy
deriving DecidableEq, Repr

namespace Flag

/-- The long name. -/
def long : Flag → String
  | .config => "config"
  | .verbose => "verbose"
  | .help => "help"
  | .version => "version"
  | .solc => "solc"
  | .policy => "policy"

/-- The letter, for options that have one. -/
def letter? : Flag → Option Char
  | .config => some 'c'
  | .verbose => some 'v'
  | .help => some 'h'
  | .version => some 'V'
  | _ => none

/-- Whether the option has a value. -/
def takesValue : Flag → Bool
  | .config | .solc | .policy => true
  | _ => false

/-- Whether the option may have the value. -/
def accepts (value : String) : Flag → Bool
  | .config => !value.isEmpty
  | .policy => (Policy.parse value).toOption.isSome
  | _ => true

end Flag

/-- Why reading stopped. -/
inductive Stop where
  | usage | help | version
deriving DecidableEq, Repr

/-- What may stand on one level: its options, its commands and the number of its
operands. -/
structure Level where
  flags : List Flag
  commands : List String
  operands : Nat

/-- What was read on one level.  `pending` is an option whose value comes next,
and `closed` is told of a level where only operands follow. -/
structure Reading where
  values : List (Flag × String) := []
  operands : List String := []
  pending : Option Flag := none
  closed : Bool := false
deriving Repr

namespace Reading

/-- Whether the option was given. -/
def has (r : Reading) (flag : Flag) : Bool := (r.values.lookup flag).isSome

/-- The reading with an option of that value. -/
def give (r : Reading) (flag : Flag) (value : String) : Except Stop Reading :=
  if r.has flag || !flag.accepts value then .error .usage
  else .ok { r with values := (flag, value) :: r.values, pending := none }

/-- The reading with an option without value. -/
def raise (r : Reading) : Flag → Except Stop Reading
  | .help => .error .help
  | .version => .error .version
  | flag => r.give flag ""

/-- The reading with an option that is followed by its value or, for `none`,
waits for it. -/
def expect (r : Reading) (flag : Flag) : Option String → Except Stop Reading
  | some value => r.give flag value
  | none => .ok { r with pending := some flag }

/-- The reading with a long option, which may have a value behind an equals
sign. -/
def long (level : Level) (r : Reading) (word : List Char) : Except Stop Reading :=
  let name := String.ofList (word.takeWhile (· != '='))
  let value := match word.dropWhile (· != '=') with
    | _ :: rest => some (String.ofList rest)
    | [] => none
  match level.flags.find? fun f => f.long == name with
  | none => .error .usage
  | some flag =>
      if flag.takesValue then r.expect flag value
      else if value.isSome then .error .usage
      else r.raise flag

/-- The value in the letters behind an option, if any. -/
def attached : List Char → Option String
  | [] => none
  | '=' :: rest => some (String.ofList rest)
  | rest => some (String.ofList rest)

/-- The reading with the options of several letters; one that has a value takes
the letters behind it. -/
def letters (level : Level) (r : Reading) : List Char → Except Stop Reading
  | [] => .ok r
  | c :: rest =>
      match level.flags.find? fun f => f.letter? == some c with
      | none => .error .usage
      | some flag =>
          if flag.takesValue then r.expect flag (attached rest)
          else do letters level (← r.raise flag) rest

/-- The reading with an operand. -/
def operand (level : Level) (r : Reading) (arg : String) : Except Stop Reading :=
  if r.operands.length < level.operands && !arg.isEmpty then
    .ok { r with operands := r.operands ++ [arg] }
  else .error .usage

/-- The reading with one more argument. -/
def step (level : Level) (r : Reading) (arg : String) : Except Stop Reading :=
  if r.closed then r.operand level arg
  else
    match arg.toList, r.pending with
    | ['-', '-'], none => .ok { r with closed := true }
    | '-' :: '-' :: word, none => r.long level word
    | '-' :: c :: word, none => r.letters level (c :: word)
    | '-' :: _ :: _, some _ => .error .usage
    | _, some flag => r.give flag arg
    | _, none => r.operand level arg

/-- Reads arguments up to a command of the level.  Gives what was read and the
command with what follows it. -/
def run (level : Level) (r : Reading) :
    List String → Except Stop (Reading × Option (String × List String))
  | [] => if r.pending.isSome then .error .usage else .ok (r, none)
  | arg :: rest =>
      if !r.closed && r.pending.isNone && level.commands.contains arg then .ok (r, some (arg, rest))
      else do run level (← r.step level arg) rest

end Reading

/-- What is asked of a run that generates code. -/
structure Request where
  source : String
  destination : Option String := none
  config : Option String := none
  solc : Option String := none
  policy : Option Policy := none
  verbose : Bool := false
deriving DecidableEq, Repr, Inhabited

/-- The level of the program. -/
def programLevel : Level := ⟨[.config, .verbose, .help, .version], ["generate", "help"], 0⟩

/-- The level of the command that generates code. -/
def generateLevel : Level := ⟨[.config, .verbose, .help, .solc, .policy], [], 2⟩

/-- The request of the command that generates code, below what was read before
the command. -/
def requestOf (outer : Reading) (args : List String) : Except Stop Request := do
  let (inner, _) ← Reading.run generateLevel {} args
  match inner.operands with
  | [] => .error .usage
  | source :: others =>
      .ok {
        source
        destination := others.head?
        config := inner.values.lookup .config <|> outer.values.lookup .config
        solc := inner.values.lookup .solc
        policy := (inner.values.lookup .policy).bind fun p => (Policy.parse p).toOption
        verbose := inner.has .verbose || outer.has .verbose }

/-- What the command that gives help is asked about has to be a command. -/
def helpOn : List String → Stop
  | [] => .help
  | command :: rest =>
      if programLevel.commands.contains command && rest.isEmpty then .help else .usage

/-- The request in the arguments of the program. -/
def parse (args : List String) : Except Stop Request := do
  let (outer, command) ← Reading.run programLevel {} args
  match command with
  | none => .error .usage
  | some ("generate", rest) => requestOf outer rest
  | some (_, rest) => .error (helpOn rest)

end AbiBindings.CommandLine
