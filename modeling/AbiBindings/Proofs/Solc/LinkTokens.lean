import AbiBindings.Proofs.Solc.Conversion
import AbiBindings.Proofs.Text.ByteOrder

/-!
# The order of link tokens

The libraries that a link table lists stand in the order of their files, and of
their own names within a file.  A token joins the two by a colon, and joining
keeps the order of two files unless one name continues the other
(`lt_cases`): then the colon of the shorter one is compared with a character of
the longer one.  Where that character is less than the colon the two tokens
stand the wrong way round, and where it is the colon itself the library is
compared with what follows (`linkToken_lt_linkToken_iff`).

So the tokens are sorted exactly for the tables in which this never happens
(`linkTokens_sorted_iff`), and there are tables in which it does
(`linkTokens_not_sorted`).
-/

namespace AbiBindings

section Order

variable {α : Type}

/-- Sorted items that are related wherever one stands behind the other are
related whenever they are in order. -/
theorem rel_of_sorted {lt rel : α → α → Prop} (hasymm : ∀ {a b}, lt a b → ¬ lt b a)
    {items : List α} (hsorted : items.Pairwise lt) (hrel : items.Pairwise rel) {a b : α}
    (ha : a ∈ items) (hb : b ∈ items) (hless : lt a b) : rel a b := by
  induction items with
  | nil => cases ha
  | cons first rest ih =>
      obtain ⟨hfirst, hrest⟩ := List.pairwise_cons.mp hsorted
      obtain ⟨hrelFirst, hrelRest⟩ := List.pairwise_cons.mp hrel
      rcases List.mem_cons.mp ha with rfl | haRest
      · rcases List.mem_cons.mp hb with rfl | hbRest
        · exact absurd hless (hasymm hless)
        · exact hrelFirst b hbRest
      · rcases List.mem_cons.mp hb with rfl | hbRest
        · exact absurd hless (hasymm (hfirst a haRest))
        · exact ih hrest hrelRest haRest hbRest

end Order

section Characters

variable {cs ds xs ys : List Char}

theorem append_left_lt_iff : cs ++ xs < cs ++ ys ↔ xs < ys := by
  induction cs with
  | nil => rfl
  | cons c cs ih => simp [ih]

/-- Of two lists in order the second one continues the first, or they are in
order whatever is put behind them. -/
theorem lt_cases (h : cs < ds) :
    (∃ next rest, ds = cs ++ next :: rest) ∨ ∀ xs ys, cs ++ xs < ds ++ ys := by
  induction h with
  | @nil d ds => exact .inl ⟨d, ds, rfl⟩
  | rel hless => exact .inr fun _ _ => .rel hless
  | cons _ ih =>
      rcases ih with ⟨next, rest, rfl⟩ | hall
      · exact .inl ⟨next, rest, rfl⟩
      · exact .inr fun xs ys => .cons (hall xs ys)

/-- What is put behind two lists in order can only put them out of order where
the second one continues the first. -/
theorem append_lt_append_iff (h : cs < ds) :
    ds ++ ys < cs ++ xs ↔ ∃ next rest, ds = cs ++ next :: rest ∧ next :: (rest ++ ys) < xs := by
  constructor
  · intro hless
    rcases lt_cases h with ⟨next, rest, rfl⟩ | hall
    · refine ⟨next, rest, rfl, ?_⟩
      rwa [List.append_assoc, append_left_lt_iff, List.cons_append] at hless
    · exact absurd (hall xs ys) (List.lt_asymm hless)
  · rintro ⟨next, rest, rfl, hless⟩
    rwa [List.append_assoc, append_left_lt_iff, List.cons_append]

end Characters

namespace Solc

/-- The table has places for the library of the file. -/
def LinkTable.Lists (links : LinkTable) (file library : String) : Prop :=
  ∃ libraries offsets, (file, libraries) ∈ links.entries ∧
    (library, offsets) ∈ libraries.entries

/-- A table lists a library exactly when there is a link for it. -/
theorem lists_iff {links : LinkTable} {file library : String} :
    links.Lists file library ↔
      ∃ link ∈ linkReferences links, link.file = file ∧ link.library = library := by
  constructor
  · rintro ⟨libraries, offsets, hfile, hlibrary⟩
    exact ⟨⟨file, library, offsets⟩, mem_linkReferences.mpr ⟨libraries, hfile, hlibrary⟩, rfl, rfl⟩
  · rintro ⟨link, hlink, rfl, rfl⟩
    obtain ⟨libraries, hfile, hlibrary⟩ := mem_linkReferences.mp hlink
    exact ⟨libraries, link.offsets, hfile, hlibrary⟩

section Tokens

variable {file other library library' : String}

/-- The token of a library of a file. -/
def linkToken (file library : String) : String := file ++ ":" ++ library

theorem toList_linkToken (file library : String) :
    (linkToken file library).toList = file.toList ++ ':' :: library.toList := by
  simp [linkToken]

/-- Tokens of one file are in the order of their libraries. -/
theorem linkToken_lt_linkToken (h : library < library') :
    linkToken file library < linkToken file library' := by
  show (linkToken file library).toList < (linkToken file library').toList
  rw [toList_linkToken, toList_linkToken]
  exact List.append_left_lt (.cons h)

/-- Tokens of two files are out of order exactly if the name of the second one
continues that of the first, with a character that is less than the colon, or
with the colon and something that joins to less than the library. -/
theorem linkToken_lt_linkToken_iff (h : file < other) :
    linkToken other library' < linkToken file library ↔ ∃ next rest,
      other = file ++ String.singleton next ++ rest ∧
        (next < ':' ∨ next = ':' ∧ linkToken rest library' < library) := by
  have hlist : file.toList < other.toList := h
  show (linkToken other library').toList < (linkToken file library).toList ↔ _
  rw [toList_linkToken, toList_linkToken, append_lt_append_iff hlist]
  constructor
  · rintro ⟨next, rest, hother, hless⟩
    refine ⟨next, String.ofList rest, ?_, ?_⟩
    · rw [← String.toList_inj, hother]
      simp
    · show _ ∨ _ ∧ (linkToken _ _).toList < _
      rwa [toList_linkToken, String.toList_ofList, ← List.cons_lt_cons_iff]
  · rintro ⟨next, rest, rfl, hless⟩
    refine ⟨next, rest.toList, by simp, ?_⟩
    rw [List.cons_lt_cons_iff, ← toList_linkToken]
    exact hless

/-- A name that continues another one stands behind it. -/
theorem lt_continued (file : String) (next : Char) (rest : String) :
    file < file ++ String.singleton next ++ rest := by
  show file.toList < (file ++ String.singleton next ++ rest).toList
  have hlist : file.toList ++ [] < file.toList ++ next :: rest.toList :=
    List.append_left_lt (List.nil_lt_cons _ _)
  simpa using hlist

end Tokens

section Table

variable {links : LinkTable}

/-- The order in which the links of a table stand. -/
def Precedes (a b : LinkReference) : Prop :=
  a.file < b.file ∨ a.file = b.file ∧ a.library < b.library

theorem Precedes.asymm {a b : LinkReference} (h : Precedes a b) : ¬ Precedes b a := by
  rintro (hfile | ⟨hfile, hlibrary⟩)
  · rcases h with hless | ⟨heq, -⟩
    · exact String.lt_asymm hfile hless
    · exact String.lt_irrefl _ (heq ▸ hfile)
  · rcases h with hless | ⟨-, hless⟩
    · exact String.lt_irrefl _ (hfile ▸ hless)
    · exact String.lt_asymm hlibrary hless

/-- Tokens are sorted as soon as those of different files are in order. -/
theorem pairwise_linkTokens_iff :
    (linkTokens links).Pairwise (· ≤ ·) ↔ ∀ a ∈ linkReferences links, ∀ b ∈ linkReferences links,
      a.file < b.file → linkToken a.file a.library ≤ linkToken b.file b.library := by
  have hsorted : (linkReferences links).Pairwise Precedes := linkReferences_sorted links
  rw [linkTokens, List.pairwise_map]
  constructor
  · intro htokens a ha b hb hless
    exact rel_of_sorted Precedes.asymm hsorted htokens ha hb (.inl hless)
  · intro hall
    refine hsorted.imp_of_mem fun {a b} ha hb hprecedes => ?_
    rcases hprecedes with hless | ⟨hfile, hless⟩
    · exact hall a ha b hb hless
    · have htokens : linkToken a.file a.library < linkToken b.file b.library :=
        hfile ▸ linkToken_lt_linkToken hless
      exact String.not_lt.mp (String.lt_asymm htokens)

end Table

/-- **Order of tokens.**  A table gives one token for each library of each file
that it lists.  The tokens are sorted by their bytes exactly if the name of no
file continues that of another with a character less than the colon, nor with
the colon and something that joins to less than a library of the shorter one. -/
theorem linkTokens_sorted_iff (links : LinkTable) :
    (∃ pairs : List (String × String), pairs.Nodup ∧
      (∀ file library, (file, library) ∈ pairs ↔ links.Lists file library) ∧
      linkTokens links = pairs.map fun p => linkToken p.1 p.2) ∧
    ((linkTokens links).Pairwise (fun s t => Text.bytes s ≤ Text.bytes t) ↔
      ∀ file next rest library library', links.Lists file library →
        links.Lists (file ++ String.singleton next ++ rest) library' →
        ¬ (next < ':' ∨
          next = ':' ∧ Text.bytes (linkToken rest library') < Text.bytes library)) := by
  constructor
  case left =>
    refine ⟨(linkReferences links).map fun link => (link.file, link.library), ?_, ?_, ?_⟩
    · refine List.pairwise_map.mpr ((linkReferences_sorted links).imp fun hprecedes heq => ?_)
      obtain ⟨hfile, hlibrary⟩ := Prod.mk.inj heq
      rcases hprecedes with hless | ⟨-, hless⟩
      · exact String.lt_irrefl _ (hfile ▸ hless)
      · exact String.lt_irrefl _ (hlibrary ▸ hless)
    · intro file library
      simp [lists_iff]
    · rw [List.map_map]
      rfl
  case right =>
    simp only [Text.bytes_le_bytes_iff, Text.bytes_lt_bytes_iff, pairwise_linkTokens_iff]
    constructor
    · intro hall file next rest library library' hlists hlists' hless
      obtain ⟨a, ha, rfl, rfl⟩ := lists_iff.mp hlists
      obtain ⟨b, hb, hfile, rfl⟩ := lists_iff.mp hlists'
      have hbehind : a.file < b.file := hfile ▸ lt_continued a.file next rest
      have htokens := (linkToken_lt_linkToken_iff hbehind).mpr ⟨next, rest, hfile, hless⟩
      exact String.not_lt.mpr (hall a ha b hb hbehind) htokens
    · intro hall a ha b hb hbehind
      refine String.not_lt.mp fun htokens => ?_
      obtain ⟨next, rest, hfile, hless⟩ := (linkToken_lt_linkToken_iff hbehind).mp htokens
      exact hall a.file next rest _ _ (lists_iff.mpr ⟨a, ha, rfl, rfl⟩)
        (lists_iff.mpr ⟨b, hb, hfile, rfl⟩) hless

/-- Two files, one of which continues the name of the other with a character
less than the colon. -/
def exclaimedLinks : LinkTable :=
  .ofList [("a", .ofList [("X", [])]), ("a!", .ofList [("Y", [])])]

/-- The tokens of such files stand the wrong way round. -/
theorem linkTokens_not_sorted :
    linkTokens exclaimedLinks = ["a:X", "a!:Y"] ∧
      ¬ (linkTokens exclaimedLinks).Pairwise fun s t => Text.bytes s ≤ Text.bytes t := by
  have htokens : linkTokens exclaimedLinks = ["a:X", "a!:Y"] := rfl
  refine ⟨htokens, ?_⟩
  rw [htokens]
  decide

end Solc

end AbiBindings
