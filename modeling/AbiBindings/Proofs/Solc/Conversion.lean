import AbiBindings.Solc.Contracts
import AbiBindings.Proofs.Sequencing
import Mathlib.Data.List.TakeWhile

/-!
# What becomes of an answer of the compiler

An answer is converted for one file, and one of three things comes out.

1.  A diagnostic says `error`, in whatever case its letters are.  Then the
    conversion ends with the texts of all such diagnostics
    (`result_of_saysError`).
2.  Otherwise an interface description of the file may be unreadable, and the
    conversion ends with the fault of the first one.
3.  Otherwise there is a contract for each artifact of the file.

The last two are told apart along the artifacts (`contractsOf_cases`).  A table
is sorted by its keys, so the first artifact of the list is the first by name,
and what was converted is sorted as well.  The result does not mention lists of
artifacts any more: `Response.Records` says which artifacts a file has,
`Response.FirstUnreadable` which of them ends the conversion, and
`Response.CompleteFor` what all contracts together are.
-/

namespace AbiBindings

section Tables

variable {α : Type}

/-- Among sorted entries the one of a key is found by it. -/
theorem lookup_eq_some_iff {key : String} {a : α} {entries : List (String × α)}
    (hsorted : entries.Pairwise fun x y => x.1 < y.1) :
    entries.lookup key = some a ↔ (key, a) ∈ entries := by
  induction entries with
  | nil => simp
  | cons e rest ih =>
      obtain ⟨k, b⟩ := e
      obtain ⟨hless, hrest⟩ := List.pairwise_cons.mp hsorted
      by_cases hkey : key = k
      case pos =>
        subst hkey
        have hout : (key, a) ∉ rest := fun hmem => String.lt_irrefl key (hless _ hmem)
        simp [hout, eq_comm]
      case neg =>
        rw [List.lookup_cons, beq_eq_false_iff_ne.mpr hkey, ih hrest, List.mem_cons]
        simp [hkey]

/-- A table has the values that are found in it. -/
theorem Table.lookup?_eq_some {t : Table α} {key : String} {a : α} :
    t.lookup? key = some a ↔ (key, a) ∈ t.entries :=
  lookup_eq_some_iff t.sorted

/-- A table has one value for a key. -/
theorem Table.value_unique {t : Table α} {key : String} {a b : α} (ha : (key, a) ∈ t.entries)
    (hb : (key, b) ∈ t.entries) : a = b := by
  rw [← lookup?_eq_some] at ha hb
  exact Option.some.inj (ha.symm.trans hb)

end Tables

namespace Text

/-- The second text is the first one without the blanks at its end. -/
def RightTrimmed (s t : String) : Prop :=
  (∃ blanks, s.toList = t.toList ++ blanks ∧ ∀ c ∈ blanks, isBlank c = true) ∧
    ∀ c, t.toList.getLast? = some c → isBlank c = false

/-- Trimming does just this. -/
theorem rightTrimmed_iff {s t : String} : RightTrimmed s t ↔ t = trimRight s := by
  constructor
  case mp =>
    rintro ⟨⟨blanks, hs, hblanks⟩, hlast⟩
    have hkept : t.toList.reverse.dropWhile isBlank = t.toList.reverse := by
      cases hrev : t.toList.reverse with
      | nil => rfl
      | cons c rest =>
          have hc : isBlank c = false := hlast c (by rw [← List.head?_reverse, hrev]; rfl)
          rw [List.dropWhile_cons_of_neg (by simp [hc])]
    rw [trimRight, hs, List.reverse_append,
      List.dropWhile_append_of_pos (by simpa using hblanks), hkept, List.reverse_reverse,
      String.ofList_toList]
  case mpr =>
    rintro rfl
    have hsplit : s.toList.reverse.takeWhile isBlank ++ s.toList.reverse.dropWhile isBlank =
        s.toList.reverse := List.takeWhile_append_dropWhile
    refine ⟨⟨(s.toList.reverse.takeWhile isBlank).reverse, ?_, ?_⟩, ?_⟩
    · rw [trimRight, String.toList_ofList, ← List.reverse_append, hsplit, List.reverse_reverse]
    · intro c hc
      exact List.mem_takeWhile_imp (List.mem_reverse.mp hc)
    · intro c hc
      rw [trimRight, String.toList_ofList, List.getLast?_reverse] at hc
      have := List.head?_dropWhile_not isBlank s.toList.reverse
      simpa [hc] using this

/-- Taking the lower case moves the upper case letters only. -/
theorem toNat_toLower (c : Char) :
    c.toLower.toNat = if 65 ≤ c.toNat ∧ c.toNat ≤ 90 then c.toNat + 32 else c.toNat := by
  have hiff : (c.val ≥ 'A'.val ∧ c.val ≤ 'Z'.val) ↔ 65 ≤ c.toNat ∧ c.toNat ≤ 90 := by
    simp [UInt32.le_iff_toNat_le, ← Char.toNat_val]
  unfold Char.toLower
  by_cases hupper : 65 ≤ c.toNat ∧ c.toNat ≤ 90
  case pos =>
    rw [dif_pos (hiff.mpr hupper), if_pos hupper]
    calc (c.val + 32).toNat
        = (c.toNat + 32) % 2 ^ 32 := UInt32.toNat_add c.val 32
      _ = c.toNat + 32 := Nat.mod_eq_of_lt (by omega)
  case neg => rw [dif_neg (mt hiff.mp hupper), if_neg hupper]

/-- The pair is a letter in lower and in upper case. -/
def IsLetter (letter : Char × Char) : Prop :=
  97 ≤ letter.1.toNat ∧ letter.1.toNat ≤ 122 ∧ letter.2.toNat + 32 = letter.1.toNat

theorem toLower_eq_iff {letter : Char × Char} (h : IsLetter letter) {c : Char} :
    c.toLower = letter.1 ↔ c = letter.1 ∨ c = letter.2 := by
  obtain ⟨hleast, hgreatest, hcase⟩ := h
  rw [← Char.toNat_inj, ← Char.toNat_inj, ← Char.toNat_inj, toNat_toLower]
  split <;> omega

/-- A word is one of letters in any case if its lower case is that of the
letters. -/
theorem forall₂_letters_iff {letters : List (Char × Char)} (h : ∀ l ∈ letters, IsLetter l)
    {word : List Char} :
    List.Forall₂ (fun c letter => c = letter.1 ∨ c = letter.2) word letters ↔
      word.map Char.toLower = letters.map Prod.fst := by
  induction letters generalizing word with
  | nil => simp
  | cons l rest ih =>
      obtain ⟨hl, hrest⟩ := List.forall_mem_cons.mp h
      cases word with
      | nil => simp
      | cons c others =>
          rw [List.forall₂_cons, List.map_cons, List.map_cons, List.cons.injEq,
            toLower_eq_iff hl, ih hrest]

end Text

namespace Solc

section Diagnostics

/-- The letters of the word `error`, in lower and in upper case. -/
def errorLetters : List (Char × Char) :=
  [('e', 'E'), ('r', 'R'), ('r', 'R'), ('o', 'O'), ('r', 'R')]

/-- The severity is the word `error`, whatever the case of each letter. -/
def Diagnostic.SaysError (d : Diagnostic) : Prop :=
  List.Forall₂ (fun c letter => c = letter.1 ∨ c = letter.2) d.severity.toList errorLetters

theorem Diagnostic.saysError_iff {d : Diagnostic} : d.SaysError ↔ d.isError = true := by
  have hletters : ∀ l ∈ errorLetters, Text.IsLetter l := by
    simp [errorLetters, Text.IsLetter]
  rw [SaysError, Text.forall₂_letters_iff hletters, isError, beq_iff_eq]
  rfl

instance (d : Diagnostic) : Decidable d.SaysError :=
  decidable_of_iff _ Diagnostic.saysError_iff.symm

end Diagnostics

section Contracts

/-- The contract is the one of the artifact: its interface description is what
is read, its bytecode is the same, and for every library of a file that the
link table lists it has one link with the same offsets. -/
structure IsContractOf (artifact : Artifact) (c : Contract) : Prop where
  abi : (Abi.ofJson artifact.abi).result = .ok c.abi
  bytecode : c.bytecode = artifact.bytecode
  mem_links : ∀ link, link ∈ c.links ↔ ∃ libraries,
    (link.file, libraries) ∈ artifact.links.entries ∧
      (link.library, link.offsets) ∈ libraries.entries
  links_sorted : c.links.Pairwise fun a b =>
    a.file < b.file ∨ a.file = b.file ∧ a.library < b.library

/-- The links are those that the table lists. -/
theorem mem_linkReferences {links : LinkTable} {link : LinkReference} :
    link ∈ linkReferences links ↔ ∃ libraries, (link.file, libraries) ∈ links.entries ∧
      (link.library, link.offsets) ∈ libraries.entries := by
  simp only [linkReferences, List.mem_flatMap, List.mem_map, Prod.exists]
  constructor
  · rintro ⟨file, libraries, hfile, library, offsets, hlibrary, rfl⟩
    exact ⟨libraries, hfile, hlibrary⟩
  · rintro ⟨libraries, hfile, hlibrary⟩
    exact ⟨_, _, hfile, _, _, hlibrary, rfl⟩

/-- Two tables of keys give the links in order, by file and then by library. -/
theorem linkReferences_sorted (links : LinkTable) :
    (linkReferences links).Pairwise fun a b =>
      a.file < b.file ∨ a.file = b.file ∧ a.library < b.library := by
  rw [linkReferences, List.pairwise_flatMap]
  constructor
  · rintro ⟨file, libraries⟩ -
    exact List.pairwise_map.mpr (libraries.sorted.imp fun hless => .inr ⟨rfl, hless⟩)
  · refine links.sorted.imp fun {a b} hless => ?_
    intro x hx y hy
    obtain ⟨_, -, rfl⟩ := List.mem_map.mp hx
    obtain ⟨_, -, rfl⟩ := List.mem_map.mp hy
    exact .inl hless

/-- **Step.**  An artifact becomes its contract, or its interface description
cannot be read and the conversion ends with the fault of it. -/
theorem contractOf_cases (name : String) (artifact : Artifact) :
    (∃ fault, (Abi.ofJson artifact.abi).result = .error fault ∧
      (contractOf name artifact).result = .error fault) ∨
    ∃ c, (contractOf name artifact).result = .ok c ∧ c.name = name ∧ IsContractOf artifact c := by
  rw [contractOf, Outcome.result_bind]
  cases habi : (Abi.ofJson artifact.abi).result with
  | error fault => exact .inl ⟨fault, rfl, rfl⟩
  | ok abi =>
      exact .inr ⟨_, rfl, rfl, habi, rfl, fun _ => mem_linkReferences, linkReferences_sorted _⟩

/-- **Run.**  The conversion ends with the fault of the first artifact whose
interface description cannot be read, or every artifact becomes its contract. -/
theorem contractsOf_cases (artifacts : List (String × Artifact)) :
    (∃ before name artifact after fault, artifacts = before ++ (name, artifact) :: after ∧
      (∀ e ∈ before, ∃ abi, (Abi.ofJson e.2.abi).result = .ok abi) ∧
      (Abi.ofJson artifact.abi).result = .error fault ∧
      (contractsOf artifacts).result = .error fault) ∨
    ∃ cs, (contractsOf artifacts).result = .ok cs ∧
      List.Forall₂ (fun e c => c.name = e.1 ∧ IsContractOf e.2 c) artifacts cs := by
  induction artifacts with
  | nil => exact .inr ⟨[], rfl, .nil⟩
  | cons e rest ih =>
      obtain ⟨name, artifact⟩ := e
      rcases contractOf_cases name artifact with ⟨fault, habi, hc⟩ | ⟨c, hc, hname, hkept⟩
      case inl =>
        refine .inl ⟨[], name, artifact, rest, fault, rfl, by simp, habi, ?_⟩
        rw [contractsOf, Outcome.result_bind, hc]
        rfl
      case inr =>
        have hnext : (contractsOf ((name, artifact) :: rest)).result =
            (c :: ·) <$> (contractsOf rest).result := by
          rw [contractsOf, Outcome.result_bind, hc, map_eq_pure_bind]
          exact Outcome.result_bind _ _
        rcases ih with ⟨before, n, a, after, fault, rfl, hbefore, habi, hfault⟩ | ⟨cs, hcs, hall⟩
        case inl =>
          refine .inl ⟨(name, artifact) :: before, n, a, after, fault, rfl, ?_, habi, ?_⟩
          · exact List.forall_mem_cons.mpr ⟨⟨c.abi, hkept.abi⟩, hbefore⟩
          · rw [hnext, hfault]
            rfl
        case inr =>
          refine .inr ⟨c :: cs, ?_, .cons ⟨hname, hkept⟩ hall⟩
          rw [hnext, hcs]
          rfl

end Contracts

section Files

variable {r : Response} {file : String}

/-- The answer has the artifact for the contract of that name in the file. -/
def Response.Records (r : Response) (file name : String) (artifact : Artifact) : Prop :=
  ∃ artifacts, (file, artifacts) ∈ r.contracts.entries ∧ (name, artifact) ∈ artifacts.entries

/-- The artifact is the first one of the file, by name, with an interface
description that cannot be read, and this is the fault of it. -/
structure Response.FirstUnreadable (r : Response) (file name : String) (artifact : Artifact)
    (fault : Fault) : Prop where
  recorded : r.Records file name artifact
  unreadable : (Abi.ofJson artifact.abi).result = .error fault
  earlier : ∀ other a, r.Records file other a → other < name →
    ∃ abi, (Abi.ofJson a.abi).result = .ok abi

/-- The contracts are those of the artifacts of the file.  Their names increase
strictly, so there is one contract for each artifact. -/
structure Response.CompleteFor (r : Response) (file : String) (cs : List Contract) : Prop where
  sorted : cs.Pairwise fun a b => a.name < b.name
  recorded : ∀ c ∈ cs, ∃ artifact, r.Records file c.name artifact ∧ IsContractOf artifact c
  converted : ∀ name artifact, r.Records file name artifact →
    ∃ c ∈ cs, c.name = name ∧ IsContractOf artifact c

/-- What is recorded for a file that the answer has. -/
theorem Response.records_iff {artifacts : Table Artifact}
    (hfile : r.contracts.lookup? file = some artifacts) {name : String} {artifact : Artifact} :
    r.Records file name artifact ↔ (name, artifact) ∈ artifacts.entries := by
  have hmem := Table.lookup?_eq_some.mp hfile
  constructor
  · rintro ⟨others, hothers, hartifact⟩
    rwa [Table.value_unique hmem hothers]
  · exact fun hartifact => ⟨artifacts, hmem, hartifact⟩

/-- Nothing is recorded for other files. -/
theorem Response.not_records (hfile : r.contracts.lookup? file = none) {name : String}
    {artifact : Artifact} : ¬ r.Records file name artifact := by
  rintro ⟨artifacts, hmem, -⟩
  rw [← Table.lookup?_eq_some, hfile] at hmem
  cases hmem

/-- Where artifacts are sorted by name, those before one are all that have a
lesser name. -/
theorem mem_before {before after : List (String × Artifact)} {name other : String}
    {artifact a : Artifact}
    (hsorted : (before ++ (name, artifact) :: after).Pairwise fun x y => x.1 < y.1)
    (hmem : (other, a) ∈ before ++ (name, artifact) :: after) (hless : other < name) :
    (other, a) ∈ before := by
  obtain ⟨hafter, -⟩ := List.pairwise_cons.mp (List.pairwise_append.mp hsorted).2.1
  rcases List.mem_append.mp hmem with hbefore | hrest
  · exact hbefore
  · rcases List.mem_cons.mp hrest with heq | hlater
    · cases heq
      exact absurd hless (String.lt_irrefl _)
    · exact absurd (hafter _ hlater) (String.lt_asymm hless)

/-- What the artifacts of a table become is sorted like the table. -/
theorem completeFor_of_forall₂ {artifacts : Table Artifact} {cs : List Contract}
    (hfile : r.contracts.lookup? file = some artifacts)
    (hall : List.Forall₂ (fun e c => c.name = e.1 ∧ IsContractOf e.2 c) artifacts.entries cs) :
    r.CompleteFor file cs where
  sorted := by
    have hnames : cs.map Contract.name = artifacts.entries.map Prod.fst :=
      SideBySide.map_eq_map hall fun _ _ h => h.1
    rw [← List.pairwise_map, hnames, List.pairwise_map]
    exact artifacts.sorted
  recorded := by
    intro c hc
    obtain ⟨⟨name, artifact⟩, hmem, rfl, hkept⟩ := SideBySide.exists_item hall hc
    exact ⟨artifact, (r.records_iff hfile).mpr hmem, hkept⟩
  converted := by
    intro name artifact hrecords
    exact SideBySide.exists_value hall ((r.records_iff hfile).mp hrecords)

/-- An error ends the conversion, whatever contracts there are. -/
theorem result_of_saysError (h : ∃ d ∈ r.diagnostics, d.SaysError) :
    (r.contractsOfFile file).result = .error (.ofDiagnostics r.errors) := by
  obtain ⟨d, hd, herror⟩ := h
  have hmem : d.text ∈ r.errors :=
    List.mem_map.mpr ⟨d, List.mem_filter.mpr ⟨hd, Diagnostic.saysError_iff.mp herror⟩, rfl⟩
  have hsome : r.errors.isEmpty = false := by
    rw [List.isEmpty_eq_false_iff]
    exact List.ne_nil_of_mem hmem
  rw [Response.contractsOfFile, hsome]
  rfl

/-- Without errors the artifacts of the file are converted. -/
theorem result_of_not_saysError (h : ∀ d ∈ r.diagnostics, ¬ d.SaysError) :
    (r.contractsOfFile file).result =
      (contractsOf (((r.contracts.lookup? file).map Table.entries).getD [])).result := by
  have hnone : r.errors = [] := by
    rw [Response.errors, List.map_eq_nil_iff, List.filter_eq_nil_iff]
    exact fun d hd => mt Diagnostic.saysError_iff.mpr (h d hd)
  rw [Response.contractsOfFile, hnone]
  cases r.contracts.lookup? file <;> rfl

/-- **Completely or not at all.**  Errors among the diagnostics end the
conversion with their texts, in order and without the blanks at their ends.
Without errors the first contract of the file whose interface description
cannot be read ends it, and if all can be read there is a contract for each. -/
theorem converted_completely_or_not_at_all (r : Response) (file : String) :
    ((∃ d ∈ r.diagnostics, d.SaysError) → ∃ texts,
      List.Forall₂ (fun d text => Text.RightTrimmed (d.formatted.getD d.message) text)
        (r.diagnostics.filter fun d => d.SaysError) texts ∧
      (r.contractsOfFile file).result = .error (.compilation texts) ∧
      (Fault.compilation texts).message = "Compilation failed:\n" ++ "\n".intercalate texts) ∧
    ((∀ d ∈ r.diagnostics, ¬ d.SaysError) →
      (∃ name artifact fault, r.FirstUnreadable file name artifact fault ∧
        (r.contractsOfFile file).result = .error fault) ∨
      ∃ cs, (r.contractsOfFile file).result = .ok cs ∧ r.CompleteFor file cs) := by
  constructor
  case left =>
    intro h
    refine ⟨r.errors.map Text.trimRight, ?_, result_of_saysError h, rfl⟩
    have hfilter : (r.diagnostics.filter fun d => d.SaysError) =
        r.diagnostics.filter Diagnostic.isError :=
      List.filter_congr fun d _ => by simp [Diagnostic.saysError_iff]
    rw [Response.errors, hfilter, List.map_map, List.forall₂_map_right_iff, List.forall₂_same]
    exact fun d _ => Text.rightTrimmed_iff.mpr rfl
  case right =>
    intro h
    rw [result_of_not_saysError h]
    cases hfile : r.contracts.lookup? file with
    | none =>
        have hnone : ∀ {name artifact}, ¬ r.Records file name artifact := r.not_records hfile
        exact .inr ⟨[], rfl, .nil, by simp, fun _ _ hrecords => absurd hrecords hnone⟩
    | some artifacts =>
        rcases contractsOf_cases artifacts.entries with
          ⟨before, name, artifact, after, fault, hsplit, hbefore, habi, hfault⟩ | ⟨cs, hcs, hall⟩
        case inl =>
          refine .inl ⟨name, artifact, fault, ⟨?_, habi, ?_⟩, hfault⟩
          · rw [r.records_iff hfile, hsplit]
            simp
          · intro other a hrecords hless
            rw [r.records_iff hfile, hsplit] at hrecords
            exact hbefore _ (mem_before (hsplit ▸ artifacts.sorted) hrecords hless)
        case inr => exact .inr ⟨cs, hcs, completeFor_of_forall₂ hfile hall⟩

/-- An answer for two files.  The first one has a vault, which needs two
libraries, and its base; nothing can be read of the contract of the second. -/
def vaultAnswer : Response where
  diagnostics := [{ severity := "warning", message := "unused variable" }]
  contracts := .ofList [
    ("Vault.sol", .ofList [
      ("Vault", {
        abi := .array [.object [("type", .string "constructor")]]
        bytecode := "6080"
        links := .ofList [
          ("Maths.sol", .ofList [("Roots", [⟨41, 20⟩]), ("Powers", [⟨1, 20⟩, ⟨61, 20⟩])])] }),
      ("Base", {})]),
    ("Broken.sol", .ofList [("Broken", { abi := .null })])]

/-- The same answer with two errors. -/
def faultyAnswer : Response :=
  { vaultAnswer with diagnostics := [
      { severity := "Error", message := "no pragma\n" },
      { severity := "warning", message := "unused variable" },
      { severity := "ERROR", message := "bad", formatted := some "Vault.sol:1: bad \n\n" }] }

/-- The vault and its base are converted, the broken file ends with the fault of
its contract, and the errors end everything. -/
theorem converted_completely_or_not_at_all_vault :
    (∀ d ∈ vaultAnswer.diagnostics, ¬ d.SaysError) ∧
    (∃ cs, (vaultAnswer.contractsOfFile "Vault.sol").result = .ok cs ∧
      vaultAnswer.CompleteFor "Vault.sol" cs ∧ cs.map Contract.name = ["Base", "Vault"]) ∧
    (∃ name artifact, vaultAnswer.FirstUnreadable "Broken.sol" name artifact (.abi .notAnArray) ∧
      (vaultAnswer.contractsOfFile "Broken.sol").result = .error (.abi .notAnArray)) ∧
    (∃ d ∈ faultyAnswer.diagnostics, d.SaysError) ∧
    (faultyAnswer.contractsOfFile "Vault.sol").result =
      .error (.compilation ["no pragma", "Vault.sol:1: bad"]) ∧
    List.Forall₂ (fun d text => Text.RightTrimmed (d.formatted.getD d.message) text)
      (faultyAnswer.diagnostics.filter fun d => d.SaysError)
      ["no pragma", "Vault.sol:1: bad"] := by
  have hquiet : ∀ d ∈ vaultAnswer.diagnostics, ¬ d.SaysError := by
    simp only [Diagnostic.saysError_iff]
    decide
  have herror : ∃ d ∈ faultyAnswer.diagnostics, d.SaysError := by
    simp only [Diagnostic.saysError_iff]
    decide
  have hvault : ∃ cs, (vaultAnswer.contractsOfFile "Vault.sol").result = .ok cs ∧
      cs.map Contract.name = ["Base", "Vault"] := ⟨_, rfl, rfl⟩
  have hbroken : (vaultAnswer.contractsOfFile "Broken.sol").result =
      .error (.abi .notAnArray) := rfl
  have hfaulty : (faultyAnswer.contractsOfFile "Vault.sol").result =
      .error (.compilation ["no pragma", "Vault.sol:1: bad"]) := rfl
  refine ⟨hquiet, ?_, ?_, herror, hfaulty, ?_⟩
  · obtain ⟨cs, hcs, hnames⟩ := hvault
    rcases (converted_completely_or_not_at_all vaultAnswer "Vault.sol").2 hquiet with
      ⟨name, artifact, fault, -, hfault⟩ | ⟨cs', hcs', hcomplete⟩
    · cases hcs.symm.trans hfault
    · cases hcs.symm.trans hcs'
      exact ⟨cs, hcs, hcomplete, hnames⟩
  · rcases (converted_completely_or_not_at_all vaultAnswer "Broken.sol").2 hquiet with
      ⟨name, artifact, fault, hfirst, hfault⟩ | ⟨cs, hcs, -⟩
    · cases hbroken.symm.trans hfault
      exact ⟨name, artifact, hfirst, hbroken⟩
    · cases hbroken.symm.trans hcs
  · obtain ⟨texts, htexts, hfault, -⟩ :=
      (converted_completely_or_not_at_all faultyAnswer "Vault.sol").1 herror
    cases hfaulty.symm.trans hfault
    exact htexts

end Files

end Solc

end AbiBindings
