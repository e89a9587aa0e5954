import AbiBindings.Proofs.Abi.Reading

/-!
# Reading back what was written

An entry is written as an object with its type, its name and its parameters,
and a parameter as an object with its name and its type; the components, the
internal type and the mark of an indexed input are fields only where there are
any (`Entry.json`, `Param.json`).

Reading takes all of it from the level where it was written: a proper
parameter is read from its object, by induction on the components
(`paramOfJson_json`), then an entry from its own (`entryOfJson?_json`) and a
list of entries from the array (`ofJson_json`).  Foreign objects between them
change nothing (`result_ofJson_withForeign`).  The main result,
`reading_inverts_rendering`, puts this beside what every reading gives.
-/

namespace AbiBindings.Abi

/-- The word that stands for a mutability. -/
def Mutability.word : Mutability → String
  | .pure => "pure"
  | .view => "view"
  | .nonpayable => "nonpayable"
  | .payable => "payable"

@[simp]
theorem ofWord_word (m : Mutability) : Mutability.ofWord m.word = m := by
  cases m <;> rfl

/-- The field of that key, if there is a value for it. -/
def fieldIfAny {α : Type} (key : String) (json : α → Json) : Option α → List (String × Json)
  | none => []
  | some a => [(key, json a)]

mutual

/-- The object of a parameter. -/
def Param.json : Param → Json
  | ⟨name, kind, internalType, components, indexed⟩ =>
      .object ([("name", .string name), ("type", .string kind)]
        ++ fieldIfAny "internalType" .string internalType
        ++ componentsJson components
        ++ fieldIfAny "indexed" .bool indexed)

/-- The field with the components. -/
def componentsJson : Option (List Param) → List (String × Json)
  | none => []
  | some ps => [("components", .array (jsons ps))]

/-- The objects of parameters. -/
def jsons : List Param → List Json
  | [] => []
  | p :: rest => p.json :: jsons rest

end

/-- The object of an entry. -/
def Entry.json : Entry → Json
  | .function f => .object [
      ("type", .string "function"),
      ("name", .string f.name),
      ("inputs", .array (jsons f.inputs)),
      ("outputs", .array (jsons f.outputs)),
      ("stateMutability", .string f.mutability.word)]
  | .event e => .object [
      ("type", .string "event"),
      ("name", .string e.name),
      ("inputs", .array (jsons e.inputs)),
      ("anonymous", .bool e.anonymous)]
  | .constructor c => .object [
      ("type", .string "constructor"),
      ("inputs", .array (jsons c.inputs)),
      ("stateMutability", .string c.mutability.word)]

section Params

/-- Parameters that are all read from their objects are read from the list of
these. -/
theorem paramsOfItems_jsons : ∀ {ps : List Param},
    (∀ p ∈ ps, paramOfJson p.json = .ok p) → paramsOfItems (jsons ps) = .ok ps
  | [], _ => rfl
  | p :: rest, h => by
      obtain ⟨hp, hrest⟩ := List.forall_mem_cons.mp h
      rw [jsons, paramsOfItems, hp, paramsOfItems_jsons hrest]
      rfl

/-- **Step.**  A parameter is read from its object if its components are read
from theirs. -/
theorem paramOfJson_json_of_components {p : Param}
    (hkind : p.components.isSome = isTuple p.kind)
    (hcomponents : ∀ ps, p.components = some ps → paramsOfItems (jsons ps) = .ok ps) :
    paramOfJson p.json = .ok p := by
  obtain ⟨name, kind, internalType, components, indexed⟩ := p
  -- the optional fields are there or not, and the last field of a key is looked up through them
  cases components with
  | none =>
      have htuple : isTuple kind = false := hkind.symm
      cases internalType <;> cases indexed <;>
        simp [Param.json, componentsJson, fieldIfAny, paramOfJson, Json.lastField?, Json.text?,
          Json.flag?, htuple, bind, Except.bind]
  | some ps =>
      have htuple : isTuple kind = true := hkind.symm
      have hps : paramsOfItems (jsons ps) = .ok ps := hcomponents ps rfl
      cases internalType <;> cases indexed <;>
        simp [Param.json, componentsJson, fieldIfAny, paramOfJson, Json.lastField?, Json.text?,
          Json.flag?, componentsOfFields, paramsOfJson, htuple, hps, bind, Except.bind,
          Functor.map, Except.map]

/-- **Run.**  A proper parameter is read from its object. -/
theorem paramOfJson_json {p : Param} (h : p.Proper) : paramOfJson p.json = .ok p := by
  induction h with
  | intro hkind _ ih =>
      refine paramOfJson_json_of_components ?_ fun ps hps => paramsOfItems_jsons (ih ps hps)
      exact Bool.eq_iff_iff.mpr (hkind.trans isTuple_iff.symm)

/-- Proper parameters are read from the array of their objects. -/
theorem paramsOfJson_jsons {ps : List Param} (h : ∀ p ∈ ps, p.Proper) :
    paramsOfJson (.array (jsons ps)) = .ok ps := by
  rw [paramsOfJson]
  exact paramsOfItems_jsons fun p hp => paramOfJson_json (h p hp)

end Params

section Entries

/-- A proper entry is read from its object. -/
theorem entryOfJson?_json {e : Entry} (h : e.Proper) : entryOfJson? e.json = .ok (some e) := by
  cases e with
  | function f =>
      obtain ⟨hinputs, houtputs⟩ := List.forall_mem_append.mp h
      simp [entryOfJson?, entryKind, Entry.json, Json.textField?, Json.get?, Json.lastField?,
        Json.text?, functionOfJson, paramsField, Mutability.ofJson, paramsOfJson_jsons hinputs,
        paramsOfJson_jsons houtputs, bind, Except.bind, Functor.map, Except.map]
  | event e =>
      have hinputs : paramsOfJson (.array (jsons e.inputs)) = .ok e.inputs := paramsOfJson_jsons h
      simp [entryOfJson?, entryKind, Entry.json, Json.textField?, Json.flagField?, Json.get?,
        Json.lastField?, Json.text?, Json.flag?, eventOfJson, paramsField, hinputs, bind,
        Except.bind, Functor.map, Except.map]
  | constructor c =>
      have hinputs : paramsOfJson (.array (jsons c.inputs)) = .ok c.inputs := paramsOfJson_jsons h
      simp [entryOfJson?, entryKind, Entry.json, Json.textField?, Json.get?, Json.lastField?,
        Json.text?, constructorOfJson, paramsField, Mutability.ofJson, hinputs, bind,
        Except.bind, Functor.map, Except.map]

/-- **Round trip.**  Proper entries are read from the array of their objects,
without a warning. -/
theorem ofJson_json {entries : List Entry} (h : ∀ e ∈ entries, e.Proper) :
    ofJson (.array (entries.map Entry.json)) = pure entries := by
  change entriesOfItems (entries.map Entry.json) = pure entries
  induction entries with
  | nil => rfl
  | cons e rest ih =>
      obtain ⟨he, hrest⟩ := List.forall_mem_cons.mp h
      rw [List.map_cons, entriesOfItems, entryOfJson?_json he, ih hrest]
      rfl

end Entries

section Foreign

/-- The second list is the first one with foreign objects put in at some
places. -/
inductive WithForeign : List Json → List Json → Prop
  | nil : WithForeign [] []
  | keep {items others : List Json} (item : Json) (h : WithForeign items others) :
      WithForeign (item :: items) (item :: others)
  | insert {items others : List Json} {item : Json} (hforeign : isForeign item = true)
      (h : WithForeign items others) : WithForeign items (item :: others)

/-- Foreign objects change neither the entries nor the fault. -/
theorem result_ofJson_withForeign {items others : List Json} (h : WithForeign items others) :
    (ofJson (.array others)).result = (ofJson (.array items)).result := by
  change (entriesOfItems others).result = (entriesOfItems items).result
  induction h with
  | nil => rfl
  | keep item _ ih => rw [result_entriesOfItems_cons, result_entriesOfItems_cons, ih]
  | insert hforeign _ ih => rw [result_entriesOfItems_foreign hforeign, ih]

end Foreign

/-- The entry is what the item describes; only an object with a string for its
name describes an event. -/
def ReadFrom (item : Json) (e : Entry) : Prop :=
  entryOfJson? item = .ok (some e) ∧
    ∀ event, e = .event event → ∃ fields, item = .object fields ∧
      Json.lastField? fields "type" = some (.string "event") ∧
      Json.lastField? fields "name" = some (.string event.name)

/-- **Reading inverts writing.**  Proper entries are read back from what is
written for them, and foreign objects at any places change nothing, neither
there nor elsewhere.  Everything that is read is proper, the entries stand
beside the items that are not foreign, and an event comes from an object with a
string for its name. -/
theorem reading_inverts_rendering :
    (∀ entries : List Entry, (∀ e ∈ entries, e.Proper) →
      ofJson (.array (entries.map Entry.json)) = pure entries ∧
        ∀ others, WithForeign (entries.map Entry.json) others →
          (ofJson (.array others)).result = .ok entries) ∧
    (∀ items others, WithForeign items others →
      (ofJson (.array others)).result = (ofJson (.array items)).result) ∧
    ∀ value entries, (ofJson value).result = .ok entries →
      (∀ e ∈ entries, e.Proper) ∧ ∃ items, value = .array items ∧
        List.Forall₂ ReadFrom (items.filter fun item => !isForeign item) entries := by
  refine ⟨fun entries hproper => ⟨ofJson_json hproper, fun others hothers => ?_⟩,
    fun items others => result_ofJson_withForeign, fun value entries h => ?_⟩
  case refine_1 =>
    rw [result_ofJson_withForeign hothers, ofJson_json hproper]
    rfl
  case refine_2 =>
    obtain ⟨items, hitems, hentries⟩ := ofJson_eq_ok.mp h
    refine ⟨proper_of_ofJson h, items, hitems, hentries.imp fun item e he => ⟨he, ?_⟩⟩
    rintro event rfl
    exact fields_of_entryOfJson he

/-- An order: who gets it, and the amounts. -/
def orderParts : List Param := [
  { name := "to", kind := "address", internalType := some "address payable" },
  { name := "lines", kind := "tuple[]", components := some [
    { name := "", kind := "uint256" },
    { name := "paid", kind := "bool[2]" }] }]

/-- A shop: the constructor, a function that takes an order, and an event. -/
def shop : List Entry := [
  .constructor ⟨[], .nonpayable⟩,
  .function ⟨"submit",
    [{ name := "order", kind := "tuple", internalType := some "struct Shop.Order",
       components := some orderParts }],
    [{ name := "", kind := "bool" }], .payable⟩,
  .event ⟨"Submitted", [
    { name := "number", kind := "uint256", indexed := some true },
    { name := "order", kind := "tuple", components := some orderParts, indexed := some false }],
    true⟩]

/-- A fault that the shop may end with; faults are left out. -/
def shopFault : Json :=
  .object [("type", .string "error"), ("name", .string "Closed"), ("inputs", .array [])]

/-- The shop and its orders are proper. -/
theorem proper_of_mem_shop : ∀ e ∈ shop, e.Proper := by
  have hparts : ∀ p ∈ orderParts, p.Proper := by
    simp only [orderParts, List.forall_mem_cons, List.not_mem_nil, false_implies, implies_true,
      and_true]
    refine ⟨.word rfl rfl, .tuple rfl rfl ?_⟩
    simp only [List.forall_mem_cons, List.not_mem_nil, false_implies, implies_true, and_true]
    exact ⟨.word rfl rfl, .word rfl rfl⟩
  simp only [shop, List.forall_mem_cons, List.not_mem_nil, false_implies, implies_true, and_true,
    true_and, Entry.Proper, Entry.params, List.nil_append, List.cons_append]
  exact ⟨⟨.tuple rfl rfl hparts, .word rfl rfl⟩, .word rfl rfl, .tuple rfl rfl hparts⟩

/-- The shop is read back, also with a fault before the function and another
one at the end, and then its event comes from the object of that name. -/
theorem reading_inverts_rendering_shop :
    (∀ e ∈ shop, e.Proper) ∧ ∃ first rest, shop.map Entry.json = first :: rest ∧
      (ofJson (.array (first :: shopFault :: rest ++ [shopFault]))).result = .ok shop ∧
      ∃ items, Json.array (first :: shopFault :: rest ++ [shopFault]) = .array items ∧
        List.Forall₂ ReadFrom (items.filter fun item => !isForeign item) shop := by
  have hforeign : isForeign shopFault = true := rfl
  have hread := (reading_inverts_rendering.1 shop proper_of_mem_shop).2 _
    (.keep _ (.insert hforeign (.keep _ (.keep _ (.insert hforeign .nil)))))
  exact ⟨proper_of_mem_shop, _, _, rfl, hread,
    (reading_inverts_rendering.2.2 _ shop hread).2⟩

end AbiBindings.Abi
