import AbiBindings.Proofs.Text.Replacing
import AbiBindings.Script.Tree

/-!
# What text methods of the generated code compute

A small semantics for expressions over texts: names that stand for texts,
literals, and the three methods that the generated code calls on texts and on
lists of them.  `split` cuts a text at a text that is not empty, `join` puts a
text between the items of a list, and `padEnd` lengthens a text to a number of
units by one that is a single unit.  Lengths count units of 16 bits, as the
language has it; a character outside the basic plane takes two.

An expression outside of this part of the language has no value here.  A
function whose body returns such an expression is applied to texts by position
(`Decl.applyToTexts?`).
-/

namespace AbiBindings.Script

/-- What an expression over texts stands for. -/
inductive TextValue where
  | text (cs : List Char)
  | texts (parts : List (List Char))
  | count (n : Nat)
deriving DecidableEq

/-- The number of units of 16 bits of a text. -/
def units (cs : List Char) : Nat :=
  cs.length + cs.countP fun c => 0x10000 ≤ c.toNat

/-- What a method call on a value gives. -/
def TextValue.invoke? (receiver : TextValue) (method : String) (args : List TextValue) :
    Option TextValue :=
  match receiver, args with
  | .text cs, [.text sep] =>
      if method = "split" ∧ sep ≠ [] then some (.texts (Text.split sep cs)) else none
  | .texts parts, [.text sep] =>
      if method = "join" then some (.text (List.intercalate sep parts)) else none
  | .text cs, [.count n, .text [fill]] =>
      if method = "padEnd" ∧ units [fill] = 1 then
        some (.text (cs ++ List.replicate (n - units cs) fill))
      else none
  | _, _ => none

mutual

/-- The value of an expression over texts. -/
def Expr.textValue? (env : String → Option (List Char)) : Expr → Option TextValue
  | .ident name => (env name).map .text
  | .str s => some (.text s.toList)
  | .num n => some (.count n)
  | .call (.prop receiver method) [] args => do
      let value ← receiver.textValue? env
      let values ← Expr.textValues? env args
      value.invoke? method values
  | _ => none

/-- The value of each expression. -/
def Expr.textValues? (env : String → Option (List Char)) : List Expr → Option (List TextValue)
  | [] => some []
  | e :: rest => do
      let value ← e.textValue? env
      let values ← Expr.textValues? env rest
      some (value :: values)

end

/-- The text that a function returns for texts, one for each parameter. -/
def Decl.applyToTexts? (args : List (List Char)) : Decl → Option (List Char)
  | .function _ _ _ params _ [.ret (some e)] =>
      if params.length = args.length then
        match e.textValue? fun name => ((params.map Param.name).zip args).lookup name with
        | some (.text cs) => some cs
        | _ => none
      else none
  | _ => none

end AbiBindings.Script
