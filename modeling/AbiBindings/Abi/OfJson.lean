import AbiBindings.Abi.Canonical
import AbiBindings.Json.Basic
import AbiBindings.Outcome

/-!
# Reading interface descriptions

An interface description is a JSON array with an object per entry.  A field that
is missing or of another type than expected takes its default almost everywhere;
only an event without a name, a parameter without a type and a parameter list
that is no array are faults.  Entries of an unknown type are left out with a
warning.
-/

namespace AbiBindings.Abi

/-- The mutability that a word stands for. -/
def Mutability.ofWord (word : String) : Mutability :=
  match word with
  | "pure" => .pure
  | "view" => .view
  | "payable" => .payable
  | _ => .nonpayable

/-- The mutability of an entry.  Old descriptions do not name it and have the
flags `constant` and `payable` in its place. -/
def Mutability.ofJson (entry : Json) : Mutability :=
  match entry.textField? "stateMutability" with
  | some word => .ofWord word
  | none =>
      if entry.flagField? "constant" == some true then .view
      else if entry.flagField? "payable" == some true then .payable
      else .nonpayable

/-- Whether a type is written as a tuple. -/
def isTuple (kind : String) : Bool := (tupleSuffix? kind).isSome

mutual

/-- The parameters of a parameter list; null stands for no parameters. -/
def paramsOfJson : Json → Except AbiFault (List Param)
  | .null => .ok []
  | .array items => paramsOfItems items
  | _ => .error .parametersNotAnArray

/-- The parameter of each item. -/
def paramsOfItems : List Json → Except AbiFault (List Param)
  | [] => .ok []
  | item :: rest => do
      let p ← paramOfJson item
      let ps ← paramsOfItems rest
      .ok (p :: ps)

/-- The parameter that an object describes. -/
def paramOfJson : Json → Except AbiFault Param
  | .object fields =>
      let name := ((Json.lastField? fields "name").bind Json.text?).getD ""
      match (Json.lastField? fields "type").bind Json.text? with
      | none => .error (.untypedParameter name)
      | some kind => do
          let components ←
            if isTuple kind then some <$> componentsOfFields (.ok []) fields else .ok none
          .ok {
            name
            kind
            internalType := (Json.lastField? fields "internalType").bind Json.text?
            components
            indexed := (Json.lastField? fields "indexed").bind Json.flag? }
  | _ => .error (.untypedParameter "")

/-- The parameters of the last field that lists components, or `found` when
there is none. -/
def componentsOfFields (found : Except AbiFault (List Param)) :
    List (String × Json) → Except AbiFault (List Param)
  | [] => found
  | (key, value) :: rest =>
      componentsOfFields (if key == "components" then paramsOfJson value else found) rest

end

/-- The parameters in a field of an entry; a missing field stands for none. -/
def paramsField (entry : Json) (key : String) : Except AbiFault (List Param) :=
  paramsOfJson ((entry.get? key).getD .null)

/-- The function that an entry describes. -/
def functionOfJson (entry : Json) : Except AbiFault Function := do
  let inputs ← paramsField entry "inputs"
  let outputs ← paramsField entry "outputs"
  .ok ⟨(entry.textField? "name").getD "", inputs, outputs, .ofJson entry⟩

/-- The event that an entry describes. -/
def eventOfJson (entry : Json) : Except AbiFault Event :=
  match entry.textField? "name" with
  | none => .error .unnamedEvent
  | some name => do
      let inputs ← paramsField entry "inputs"
      .ok ⟨name, inputs, entry.flagField? "anonymous" == some true⟩

/-- The constructor that an entry describes. -/
def constructorOfJson (entry : Json) : Except AbiFault Constructor := do
  let inputs ← paramsField entry "inputs"
  .ok ⟨inputs, .ofJson entry⟩

/-- The type of an entry; a function does not have to say that it is one. -/
def entryKind (entry : Json) : String := (entry.textField? "type").getD "function"

/-- What an object describes; nothing for an unknown type. -/
def entryOfJson? (entry : Json) : Except AbiFault (Option Entry) :=
  match entryKind entry with
  | "function" => (some ∘ Entry.function) <$> functionOfJson entry
  | "fallback" | "receive" => .ok (some (.function ⟨"", [], [], .ofJson entry⟩))
  | "event" => (some ∘ Entry.event) <$> eventOfJson entry
  | "constructor" => (some ∘ Entry.constructor) <$> constructorOfJson entry
  | _ => .ok none

/-- The entries of a list of objects. -/
def entriesOfItems : List Json → Outcome (List Entry)
  | [] => pure []
  | item :: rest => do
      let found ← Outcome.ofExcept ((entryOfJson? item).mapError Fault.abi)
      if found.isNone then
        Outcome.warn (.skippedEntry (entryKind item) ((item.textField? "name").getD ""))
      let entries ← entriesOfItems rest
      pure (found.toList ++ entries)

/-- The entries of an interface description. -/
def ofJson (value : Json) : Outcome (List Entry) :=
  match value.items? with
  | some items => entriesOfItems items
  | none => Outcome.fail (.abi .notAnArray)

/-- The entries of the interface description that a text holds. -/
def parse (text : String) : Outcome (List Entry) :=
  match Json.parse? text with
  | some value => ofJson value
  | none => Outcome.fail (.abi .notJson)

end AbiBindings.Abi
