import AbiBindings.Abi.OfJson
import AbiBindings.Proofs.Sequencing

/-!
# What can be read from a description

Reading goes through the items of an array.  An item of an unknown type is
left out (`isForeign`), and every other one becomes one entry or ends the
reading, so the entries that are read stand beside the items that are not left
out (`entriesOfItems_eq_ok`).

What is read is `Proper`: a parameter has components exactly when its type
starts with the word `tuple`, at every depth (`proper_of_ofJson`).
-/

namespace AbiBindings.Abi

/-- The parameter has components exactly when its type starts with the word
`tuple`, and its components are like it in this. -/
inductive Param.Proper : Param → Prop
  | intro {p : Param} (hkind : p.components.isSome = true ↔ "tuple".toList <+: p.kind.toList)
      (hinside : ∀ ps, p.components = some ps → ∀ c ∈ ps, c.Proper) : p.Proper

/-- All parameters of an entry. -/
def Entry.params : Entry → List Param
  | .function f => f.inputs ++ f.outputs
  | .event e => e.inputs
  | .constructor c => c.inputs

/-- The parameters of the entry have components exactly where they are
tuples. -/
def Entry.Proper (e : Entry) : Prop := ∀ p ∈ e.params, p.Proper

/-- The types of the objects that become entries. -/
def entryKinds : List String := ["function", "fallback", "receive", "event", "constructor"]

/-- The item is an object of some other type. -/
def isForeign (item : Json) : Bool :=
  match item.textField? "type" with
  | some kind => !entryKinds.contains kind
  | none => false

theorem isTuple_iff {kind : String} : isTuple kind = true ↔ "tuple".toList <+: kind.toList := by
  rw [isTuple, tupleSuffix?, List.isSome_isPrefixOf?_eq_isPrefixOf, List.isPrefixOf_iff_prefix]

/-- A parameter that is no tuple has no components. -/
theorem Param.Proper.word {p : Param} (hkind : isTuple p.kind = false)
    (hnone : p.components = none) : p.Proper := by
  refine ⟨iff_of_false (by simp [hnone]) (mt isTuple_iff.mpr (by simp [hkind])), ?_⟩
  simp [hnone]

/-- A tuple has components. -/
theorem Param.Proper.tuple {p : Param} {ps : List Param} (hkind : isTuple p.kind = true)
    (hsome : p.components = some ps) (hinside : ∀ c ∈ ps, c.Proper) : p.Proper := by
  refine ⟨iff_of_true (by simp [hsome]) (isTuple_iff.mp hkind), ?_⟩
  simpa [hsome] using hinside

section Params

mutual

/-- **Reading parameters.** -/
theorem proper_of_paramOfJson : (item : Json) → ∀ {p : Param},
    paramOfJson item = .ok p → p.Proper
  | .object fields, p, h => by
      simp only [paramOfJson] at h
      split at h
      case h_1 => cases h
      case h_2 kind hkind =>
        by_cases htuple : isTuple kind = true
        case pos =>
          rw [if_pos htuple, bind_eq_ok] at h
          obtain ⟨components, hcomponents, h⟩ := h
          obtain ⟨ps, hps, rfl⟩ := map_eq_ok.mp hcomponents
          cases h
          exact .tuple htuple rfl (proper_of_componentsOfFields fields (by simp) hps)
        case neg =>
          rw [if_neg htuple] at h
          cases h
          exact .word (by simpa using htuple) rfl
  | .null, _, h | .bool _, _, h | .number _, _, h | .string _, _, h | .array _, _, h => by
      cases h

theorem proper_of_componentsOfFields : (fields : List (String × Json)) →
    ∀ {found : Except AbiFault (List Param)} {ps : List Param},
    (∀ qs, found = .ok qs → ∀ c ∈ qs, c.Proper) →
    componentsOfFields found fields = .ok ps → ∀ c ∈ ps, c.Proper
  | [], found, ps, hfound, h => hfound ps h
  | (key, value) :: rest, found, ps, hfound, h => by
      rw [componentsOfFields] at h
      refine proper_of_componentsOfFields rest ?_ h
      split
      · exact fun qs hqs => proper_of_paramsOfJson value hqs
      · exact hfound

theorem proper_of_paramsOfJson : (value : Json) → ∀ {ps : List Param},
    paramsOfJson value = .ok ps → ∀ c ∈ ps, c.Proper
  | .array items, ps, h => proper_of_paramsOfItems items h
  | .null, _, h => by
      cases h
      simp
  | .bool _, _, h | .number _, _, h | .string _, _, h | .object _, _, h => by cases h

theorem proper_of_paramsOfItems : (items : List Json) → ∀ {ps : List Param},
    paramsOfItems items = .ok ps → ∀ c ∈ ps, c.Proper
  | [], _, h => by
      cases h
      simp
  | item :: rest, ps, h => by
      rw [paramsOfItems, bind_eq_ok] at h
      obtain ⟨p, hp, h⟩ := h
      obtain ⟨others, hothers, h⟩ := bind_eq_ok.mp h
      cases h
      rw [List.forall_mem_cons]
      exact ⟨proper_of_paramOfJson item hp, proper_of_paramsOfItems rest hothers⟩

end

end Params

section Entries

variable {item : Json} {e : Entry}

/-- What is read from an object is proper. -/
theorem proper_of_entryOfJson (h : entryOfJson? item = .ok (some e)) : e.Proper := by
  unfold entryOfJson? at h
  split at h
  · obtain ⟨f, hf, heq⟩ := map_eq_ok.mp h
    cases heq
    simp only [functionOfJson, bind_eq_ok] at hf
    obtain ⟨inputs, hinputs, outputs, houtputs, hf⟩ := hf
    cases hf
    exact List.forall_mem_append.mpr
      ⟨proper_of_paramsOfJson _ hinputs, proper_of_paramsOfJson _ houtputs⟩
  · cases h
    simp [Entry.Proper, Entry.params]
  · cases h
    simp [Entry.Proper, Entry.params]
  · obtain ⟨event, hevent, heq⟩ := map_eq_ok.mp h
    cases heq
    unfold eventOfJson at hevent
    split at hevent
    · cases hevent
    · obtain ⟨inputs, hinputs, hevent⟩ := bind_eq_ok.mp hevent
      cases hevent
      exact proper_of_paramsOfJson _ hinputs
  · obtain ⟨c, hc, heq⟩ := map_eq_ok.mp h
    cases heq
    obtain ⟨inputs, hinputs, hc⟩ := bind_eq_ok.mp hc
    cases hc
    exact proper_of_paramsOfJson _ hinputs
  · cases h

/-- An event is read from an object that says so and that names it. -/
theorem named_of_entryOfJson {event : Event} (h : entryOfJson? item = .ok (some (.event event))) :
    item.textField? "type" = some "event" ∧ item.textField? "name" = some event.name := by
  unfold entryOfJson? at h
  split at h
  case h_4 hkind =>
    obtain ⟨event', hevent, heq⟩ := map_eq_ok.mp h
    cases heq
    constructor
    · cases htype : item.textField? "type" with
      | none => simp [entryKind, htype] at hkind
      | some kind => simpa [entryKind, htype] using hkind
    · unfold eventOfJson at hevent
      split at hevent
      · cases hevent
      · obtain ⟨inputs, -, hevent⟩ := bind_eq_ok.mp hevent
        cases hevent
        assumption
  all_goals
    first
    | cases h
    | obtain ⟨_, _, heq⟩ := map_eq_ok.mp h
      cases heq

/-- The text of a field of an object. -/
theorem textField?_eq_some {key text : String} :
    item.textField? key = some text ↔
      ∃ fields, item = .object fields ∧ Json.lastField? fields key = some (.string text) := by
  have htext : ∀ value : Json, value.text? = some text ↔ value = .string text := by
    intro value
    cases value <;> simp [Json.text?]
  cases item <;> simp [Json.textField?, Json.get?, Option.bind_eq_some_iff, htext]

/-- The object of an event, with its type and its name. -/
theorem fields_of_entryOfJson {event : Event} (h : entryOfJson? item = .ok (some (.event event))) :
    ∃ fields, item = .object fields ∧
      Json.lastField? fields "type" = some (.string "event") ∧
      Json.lastField? fields "name" = some (.string event.name) := by
  obtain ⟨htype, hname⟩ := named_of_entryOfJson h
  obtain ⟨fields, rfl, hlast⟩ := textField?_eq_some.mp htype
  obtain ⟨_, heq, hlast'⟩ := textField?_eq_some.mp hname
  cases heq
  exact ⟨fields, rfl, hlast, hlast'⟩

/-- An object that does not say what it is is a function. -/
theorem isForeign_iff : isForeign item = true ↔ entryKind item ∉ entryKinds := by
  unfold isForeign entryKind
  cases item.textField? "type" with
  | none => simp [entryKinds]
  | some kind => simp

/-- The items that are left out are those of some other type. -/
theorem entryOfJson?_eq_none_iff : entryOfJson? item = .ok none ↔ isForeign item = true := by
  rw [isForeign_iff]
  unfold entryOfJson?
  split
  case h_6 hfunction hfallback hreceive hevent hconstructor =>
    simpa [entryKinds] using ⟨hfunction, hfallback, hreceive, hevent, hconstructor⟩
  all_goals simp [*, entryKinds, map_eq_ok]

/-- **Step.**  An item ends the reading, or it brings its entry if it has
one. -/
theorem result_entriesOfItems_cons (item : Json) (rest : List Json) :
    (entriesOfItems (item :: rest)).result =
      (entryOfJson? item).mapError Fault.abi >>= fun found =>
        (found.toList ++ ·) <$> (entriesOfItems rest).result := by
  simp only [entriesOfItems, Outcome.result_bind, Outcome.result_ofExcept]
  congr 1
  funext found
  cases found with
  | none =>
      -- the warning has the value `()`
      simp only [Option.isNone_none, if_true, Outcome.result_bind, Outcome.result_warn,
        map_eq_pure_bind]
      rfl
  | some e => simp

/-- A foreign item changes no entry. -/
theorem result_entriesOfItems_foreign (h : isForeign item = true) (rest : List Json) :
    (entriesOfItems (item :: rest)).result = (entriesOfItems rest).result := by
  rw [result_entriesOfItems_cons, entryOfJson?_eq_none_iff.mpr h]
  cases (entriesOfItems rest).result <;> rfl

/-- **Run.**  The entries stand beside the items that are not foreign. -/
theorem entriesOfItems_eq_ok {items : List Json} {entries : List Entry} :
    (entriesOfItems items).result = .ok entries ↔
      List.Forall₂ (fun item e => entryOfJson? item = .ok (some e))
        (items.filter fun item => !isForeign item) entries := by
  induction items generalizing entries with
  | nil => simp [entriesOfItems, eq_comm]
  | cons item rest ih =>
      by_cases hforeign : isForeign item = true
      case pos =>
        rw [result_entriesOfItems_foreign hforeign, ih,
          List.filter_cons_of_neg (by simpa using hforeign)]
      case neg =>
        rw [result_entriesOfItems_cons, List.filter_cons_of_pos (by simpa using hforeign),
          List.forall₂_cons_left_iff]
        cases hentry : entryOfJson? item with
        | error fault => simp [Except.mapError, bind_eq_ok]
        | ok found =>
            cases found with
            | none => exact absurd (entryOfJson?_eq_none_iff.mp hentry) hforeign
            | some e =>
                calc
                  _ ↔ ∃ others, (entriesOfItems rest).result = .ok others ∧
                        e :: others = entries := map_eq_ok
                  _ ↔ _ := by simp [ih, eq_comm]

end Entries

section Descriptions

variable {value : Json} {entries : List Entry}

/-- Only an array has entries, and they are those of its items. -/
theorem ofJson_eq_ok :
    (ofJson value).result = .ok entries ↔ ∃ items, value = .array items ∧
      List.Forall₂ (fun item e => entryOfJson? item = .ok (some e))
        (items.filter fun item => !isForeign item) entries := by
  unfold ofJson
  cases value <;> simp [Json.items?, entriesOfItems_eq_ok]

/-- **Reading.**  Everything that is read from a description is proper. -/
theorem proper_of_ofJson (h : (ofJson value).result = .ok entries) : ∀ e ∈ entries, e.Proper := by
  obtain ⟨items, rfl, hitems⟩ := ofJson_eq_ok.mp h
  intro e he
  obtain ⟨item, -, hitem⟩ := SideBySide.exists_item hitems he
  exact proper_of_entryOfJson hitem

end Descriptions

end AbiBindings.Abi
