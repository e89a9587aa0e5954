import AbiBindings.Client.Links
import AbiBindings.Client.Shared
import AbiBindings.Proofs.Script.TextMethods
import Mathlib.Data.List.Nodup

/-!
# Linking

Bytecode that is not linked yet is made of hexadecimal digits and placeholders
(`Segment`).  A placeholder starts with a mark that no other place of the
bytecode starts with (`openingMark_not_inside`), neither inside of a placeholder nor
where two parts meet, so it is found where it stands and nowhere else
(`exists_segment`), and the helper for replacing it leaves every other part
alone (`replace_code`).

What is put in its place are digits, which make no new placeholder.  So
replacing once for each library gives the same in any order: the bytecode with
the address of each library for its placeholder
(`linking_replaces_placeholders`).
-/

namespace AbiBindings.Client

open Script

/-- Whether the character is a hexadecimal digit. -/
def isHexDigit (c : Char) : Bool :=
  c.isDigit || ('a' ≤ c && c ≤ 'f') || ('A' ≤ c && c ≤ 'F')

/-- A hexadecimal digit. -/
structure HexDigit where
  char : Char
  isHex : isHexDigit char = true
deriving DecidableEq

/-- The placeholder of a library: 34 digits without capital letters between two
marks. -/
structure Placeholder where
  digits : List HexDigit
  length_digits : digits.length = placeholderDigits
  lower : ∀ d ∈ digits, d.char.isUpper = false
deriving DecidableEq

/-- The text of a placeholder. -/
def Placeholder.text (p : Placeholder) : List Char :=
  '_' :: '_' :: '$' :: (p.digits.map HexDigit.char ++ ['$', '_', '_'])

/-- The address of a library: 40 digits. -/
structure Address where
  digits : List HexDigit
  length_digits : digits.length = addressDigits

/-- The text of an address. -/
def Address.text (a : Address) : List Char := a.digits.map HexDigit.char

/-- A part of bytecode. -/
inductive Segment where
  | digit (d : HexDigit)
  | placeholder (p : Placeholder)
deriving DecidableEq

/-- The text of a part. -/
def Segment.text : Segment → List Char
  | .digit d => [d.char]
  | .placeholder p => p.text

/-- The text of bytecode. -/
def codeText (code : List Segment) : List Char := code.flatMap Segment.text

/-- The text that every placeholder starts with. -/
def openingMark : List Char := ['_', '_', '$']

namespace HexDigit

theorem char_ne (d : HexDigit) : d.char ≠ '_' ∧ d.char ≠ '$' := by
  refine ⟨?_, ?_⟩ <;>
  · intro heq
    have hhex := d.isHex
    rw [heq] at hhex
    revert hhex
    decide

theorem char_injective : Function.Injective char := by
  rintro ⟨c, _⟩ ⟨d, _⟩ rfl
  rfl

/-- A hexadecimal digit is a character of one byte. -/
theorem utf8Size_char (d : HexDigit) : d.char.utf8Size = 1 := by
  rw [Char.utf8Size_eq_one_iff]
  have hhex := d.isHex
  simp only [isHexDigit, Char.isDigit, Bool.or_eq_true, Bool.and_eq_true, decide_eq_true_eq,
    ge_iff_le, Char.le_def, UInt32.le_iff_toNat_le] at hhex
  rw [UInt32.le_iff_toNat_le]
  rcases hhex with (⟨-, h⟩ | ⟨-, h⟩) | ⟨-, h⟩ <;> exact Nat.le_trans h (by decide)

end HexDigit

namespace Placeholder

variable {p q : Placeholder} {rest : List Char}

theorem text_ne_nil (p : Placeholder) : p.text ≠ [] := List.cons_ne_nil _ _

theorem length_text (p : Placeholder) : p.text.length = 40 := by
  simp [text, p.length_digits, placeholderDigits]

theorem text_injective : Function.Injective text := by
  rintro ⟨ds, _, _⟩ ⟨es, _, _⟩ h
  have hchars : ds.map HexDigit.char = es.map HexDigit.char := by simpa [text] using h
  have hdigits : ds = es := List.map_injective_iff.mpr HexDigit.char_injective hchars
  subst hdigits
  rfl

theorem openingMark_starts_text (p : Placeholder) : openingMark <+: p.text := by
  simp [openingMark, text]

/-- Two placeholders at one place are the same. -/
theorem eq_of_starts (h : p.text <+: q.text ++ rest) : p = q := by
  have hq : q.text <+: q.text ++ rest := List.prefix_append _ _
  have hlength : p.text.length = q.text.length := by rw [length_text, length_text]
  have hstarts := List.prefix_of_prefix_length_le h hq (Nat.le_of_eq hlength)
  exact text_injective (hstarts.eq_of_length hlength)

end Placeholder

@[simp]
theorem codeText_nil : codeText [] = [] := rfl

@[simp]
theorem codeText_cons (s : Segment) (code : List Segment) :
    codeText (s :: code) = s.text ++ codeText code := List.flatMap_cons

theorem codeText_append (code more : List Segment) :
    codeText (code ++ more) = codeText code ++ codeText more := List.flatMap_append

/-- The text of digits alone. -/
theorem codeText_digits (ds : List HexDigit) :
    codeText (ds.map Segment.digit) = ds.map HexDigit.char := by
  induction ds with
  | nil => rfl
  | cons d rest ih => simp [Segment.text, ih]

/-- Behind a part of bytecode stands no rest of a mark. -/
theorem not_prefix_codeText (code : List Segment) :
    ¬ ['$'] <+: codeText code ∧ ¬ ['_', '$'] <+: codeText code := by
  cases code with
  | nil => simp
  | cons s code =>
      cases s with
      | digit d => simp [Segment.text, d.char_ne.1.symm, d.char_ne.2.symm]
      | placeholder p => simp [Segment.text, Placeholder.text]

/-- **No mark but in front.**  Inside of a placeholder and up to what follows it
no other one starts. -/
theorem openingMark_not_inside {p : Placeholder} {s : List Char} (hs : s ≠ [])
    (hsuffix : s <:+ p.text) (hne : s ≠ p.text) (code : List Segment) :
    ¬ openingMark <+: s ++ codeText code := by
  obtain ⟨hdollar, hrest⟩ := not_prefix_codeText code
  -- the suffixes of the placeholder from its second character on
  rw [Placeholder.text, List.suffix_cons_iff] at hsuffix
  rcases hsuffix.resolve_left hne with hsuffix
  rw [List.suffix_cons_iff, List.suffix_cons_iff] at hsuffix
  rcases hsuffix with rfl | rfl | hsuffix
  · simp [openingMark]
  · simp [openingMark]
  obtain ⟨front, hfront⟩ := hsuffix
  rcases List.append_eq_append_iff.mp hfront with ⟨ds, hds, rfl⟩ | ⟨ds, hds, hclosing⟩
  · cases hchars : ds with
    | nil => simp [openingMark]
    | cons c rest =>
        obtain ⟨d, -, rfl⟩ : ∃ d ∈ p.digits, d.char = c :=
          List.mem_map.mp (hds ▸ by simp [hchars])
        simp [openingMark, d.char_ne.1.symm]
  · have hcases : s <:+ ['$', '_', '_'] := ⟨ds, hclosing.symm⟩
    simp only [List.suffix_cons_iff, List.suffix_nil, hs, or_false] at hcases
    rcases hcases with rfl | rfl | rfl
    · simp [openingMark]
    · simpa [openingMark] using hdollar
    · simpa [openingMark] using hrest

/-- **Placeholders are found where they stand.**  A placeholder that starts in a
part of bytecode is that part. -/
theorem eq_placeholder_of_starts {p : Placeholder} {s : Segment} {more : List Char}
    {code : List Segment} (hmore : more ≠ []) (hsuffix : more <:+ s.text)
    (h : p.text <+: more ++ codeText code) : s = .placeholder p ∧ more = p.text := by
  have hmark : openingMark <+: more ++ codeText code := p.openingMark_starts_text.trans h
  cases s with
  | digit d =>
      have hdigit : more = [d.char] := by
        simpa [Segment.text, List.suffix_cons_iff, hmore] using hsuffix
      rw [hdigit] at hmark
      simp [openingMark, d.char_ne.1.symm] at hmark
  | placeholder q =>
      have hwhole : more = q.text := by
        by_contra hne
        exact openingMark_not_inside hmore hsuffix hne code hmark
      subst hwhole
      rw [Placeholder.eq_of_starts h]
      exact ⟨rfl, rfl⟩

/-- A placeholder in the text of bytecode is one of its parts. -/
theorem exists_segment {code : List Segment} {p : Placeholder} {before after : List Char}
    (h : codeText code = before ++ p.text ++ after) :
    ∃ front back, code = front ++ .placeholder p :: back ∧ codeText front = before ∧
      codeText back = after := by
  induction code generalizing before with
  | nil => simp [p.text_ne_nil] at h
  | cons s code ih =>
      have hlater : ∀ more : List Char, before = s.text ++ more →
          codeText code = more ++ p.text ++ after →
          ∃ front back, s :: code = front ++ .placeholder p :: back ∧ codeText front = before ∧
            codeText back = after := by
        rintro more rfl hcode
        obtain ⟨front, back, rfl, rfl, rfl⟩ := ih hcode
        exact ⟨s :: front, back, rfl, by simp, rfl⟩
      rw [codeText_cons, List.append_assoc] at h
      rcases List.append_eq_append_iff.mp h with ⟨more, hbefore, hcode⟩ | ⟨more, hs, hcode⟩
      · exact hlater _ hbefore (by rw [hcode, List.append_assoc])
      · by_cases hmore : more = []
        · subst hmore
          exact hlater [] (by simpa using hs.symm) (by simpa using hcode.symm)
        · obtain ⟨rfl, rfl⟩ := eq_placeholder_of_starts hmore ⟨before, hs.symm⟩ ⟨after, hcode⟩
          have hbefore : before = [] := by simpa [Segment.text] using hs
          exact ⟨[], code, rfl, by simp [hbefore], (List.append_cancel_left hcode).symm⟩

/-- A library to link: where its address belongs, what stands there, and its
address. -/
structure Library where
  link : LinkReference
  placeholder : Placeholder
  address : Address

/-- A part of bytecode with the addresses of libraries for their placeholders. -/
def linkSegment (libraries : List Library) : Segment → List Segment
  | .digit d => [.digit d]
  | .placeholder p =>
      match libraries.find? fun l => l.placeholder = p with
      | some l => l.address.digits.map .digit
      | none => [.placeholder p]

/-- Bytecode with the addresses of libraries for their placeholders. -/
def linked (libraries : List Library) (code : List Segment) : List Segment :=
  code.flatMap (linkSegment libraries)

/-- **Step.**  To replace one placeholder is to link one library. -/
theorem replace_code (l : Library) (code : List Segment) :
    Text.replace l.placeholder.text l.address.text (codeText code) =
      codeText (linked [l] code) := by
  induction code with
  | nil => rfl
  | cons s code ih =>
      have hcons : codeText (linked [l] (s :: code)) =
          codeText (linkSegment [l] s) ++ codeText (linked [l] code) := by
        rw [linked, List.flatMap_cons, codeText_append]
        rfl
      rw [codeText_cons, hcons]
      by_cases hs : s = .placeholder l.placeholder
      · subst hs
        have hdigits :
            codeText (linkSegment [l] (.placeholder l.placeholder)) = l.address.text := by
          simp [linkSegment, codeText_digits, Address.text]
        rw [hdigits, ← ih]
        exact Text.replace_self_append l.placeholder.text_ne_nil _
      · have hsame : linkSegment [l] s = [s] := by
          cases s with
          | digit d => rfl
          | placeholder p =>
              have hne : l.placeholder ≠ p := fun heq => hs (heq ▸ rfl)
              simp [linkSegment, hne]
        rw [hsame, ← ih, codeText_cons, codeText_nil, List.append_nil]
        exact Text.replace_append fun more hmore hsuffix hstarts =>
          hs (eq_placeholder_of_starts hmore hsuffix hstarts).1

/-- Addresses hold no placeholder, so libraries can be linked one after the
other. -/
theorem linked_linked (l : Library) (libraries : List Library) (code : List Segment) :
    linked libraries (linked [l] code) = linked (l :: libraries) code := by
  rw [linked, linked, linked, List.flatMap_assoc]
  apply List.flatMap_congr
  intro s _
  cases s with
  | digit d => rfl
  | placeholder p =>
      by_cases hp : l.placeholder = p
      · simp only [linkSegment, hp, List.find?_cons_of_pos, decide_true, List.flatMap_map]
        exact List.flatMap_pure_eq_map _ _
      · simp [linkSegment, hp]

/-- Of libraries with different placeholders each one is found by its own. -/
theorem find?_placeholder_iff {libraries : List Library}
    (hdistinct : (libraries.map Library.placeholder).Nodup) {l : Library} {p : Placeholder} :
    libraries.find? (fun l => l.placeholder = p) = some l ↔ l ∈ libraries ∧ l.placeholder = p := by
  constructor
  · intro hl
    exact ⟨List.mem_of_find?_eq_some hl, by simpa using List.find?_some hl⟩
  · rintro ⟨hl, rfl⟩
    cases hfound : libraries.find? fun other => other.placeholder = l.placeholder with
    | none => exact absurd (List.find?_eq_none.mp hfound l hl) (by simp)
    | some other =>
        have hsame : other.placeholder = l.placeholder := by
          simpa using List.find?_some hfound
        rw [List.inj_on_of_nodup_map hdistinct (List.mem_of_find?_eq_some hfound) hl hsame]

/-- Of libraries with different placeholders the order does not matter. -/
theorem linked_perm {libraries order : List Library} (h : order.Perm libraries)
    (hdistinct : (libraries.map Library.placeholder).Nodup) (code : List Segment) :
    linked order code = linked libraries code := by
  have horder : (order.map Library.placeholder).Nodup :=
    (h.map Library.placeholder).nodup_iff.mpr hdistinct
  apply List.flatMap_congr
  intro s _
  cases s with
  | digit d => rfl
  | placeholder p =>
      have hsame : order.find? (fun l => l.placeholder = p) =
          libraries.find? fun l => l.placeholder = p := by
        ext l
        rw [find?_placeholder_iff horder, find?_placeholder_iff hdistinct, h.mem_iff]
      rw [linkSegment, linkSegment, hsame]

/-- Linking keeps the length of each part. -/
theorem length_linkSegment (libraries : List Library) (s : Segment) :
    (codeText (linkSegment libraries s)).length = s.text.length := by
  cases s with
  | digit d => simp [linkSegment]
  | placeholder p =>
      rw [linkSegment]
      split
      · next l _ =>
          rw [codeText_digits, List.length_map, l.address.length_digits]
          exact p.length_text.symm
      · simp

theorem codeText_linked_cons (libraries : List Library) (s : Segment) (code : List Segment) :
    codeText (linked libraries (s :: code)) =
      codeText (linkSegment libraries s) ++ codeText (linked libraries code) := by
  rw [linked, List.flatMap_cons, codeText_append]
  rfl

/-- Linking keeps the length. -/
theorem length_linked (libraries : List Library) (code : List Segment) :
    (codeText (linked libraries code)).length = (codeText code).length := by
  induction code with
  | nil => rfl
  | cons s code ih =>
      rw [codeText_linked_cons, List.length_append, length_linkSegment, codeText_cons,
        List.length_append, ih]

/-- `result` is `text` with the address of each library at every place of its
placeholder, and without any other change. -/
structure LinkedText (libraries : List Library) (text result : List Char) : Prop where
  length_eq : result.length = text.length
  replaced : ∀ l ∈ libraries, ∀ i, l.placeholder.text <+: text.drop i →
    l.address.text <+: result.drop i
  kept : ∀ i, (∀ l ∈ libraries, ∀ start, l.placeholder.text <+: text.drop start →
      i < start ∨ start + l.placeholder.text.length ≤ i) →
    result[i]? = text[i]?

/-- Where a placeholder of a library stands, the address stands after linking. -/
theorem address_prefix_linked {libraries : List Library}
    (hdistinct : (libraries.map Library.placeholder).Nodup) {code : List Segment} {l : Library}
    (hl : l ∈ libraries) {i : Nat} (h : l.placeholder.text <+: (codeText code).drop i) :
    l.address.text <+: (codeText (linked libraries code)).drop i := by
  obtain ⟨after, hafter⟩ := h
  have hi : i ≤ (codeText code).length := by
    have hlength := congrArg List.length hafter
    rw [List.length_append, List.length_drop, l.placeholder.length_text] at hlength
    omega
  have hcode : codeText code = (codeText code).take i ++ l.placeholder.text ++ after := by
    rw [List.append_assoc, hafter, List.take_append_drop]
  obtain ⟨front, back, rfl, hfront, -⟩ := exists_segment hcode
  have hlinked : codeText (linked libraries (front ++ .placeholder l.placeholder :: back)) =
      codeText (linked libraries front) ++
        (l.address.text ++ codeText (linked libraries back)) := by
    have hfound := (find?_placeholder_iff hdistinct).mpr ⟨hl, rfl⟩
    have haddress : codeText (linkSegment libraries (.placeholder l.placeholder)) =
        l.address.text := by
      simp only [linkSegment, hfound, codeText_digits, Address.text]
    rw [linked, List.flatMap_append, codeText_append, ← linked, ← linked, codeText_linked_cons,
      haddress]
  have hlength : (codeText (linked libraries front)).length = i := by
    rw [length_linked, hfront, List.length_take, Nat.min_eq_left hi]
  rw [hlinked, List.drop_left' hlength]
  exact List.prefix_append _ _

/-- What belongs to no placeholder of a library stays. -/
theorem getElem?_linked {libraries : List Library} {code : List Segment} {i : Nat}
    (h : ∀ l ∈ libraries, ∀ start, l.placeholder.text <+: (codeText code).drop start →
      i < start ∨ start + l.placeholder.text.length ≤ i) :
    (codeText (linked libraries code))[i]? = (codeText code)[i]? := by
  induction code generalizing i with
  | nil => rfl
  | cons s code ih =>
      have hlength := length_linkSegment libraries s
      rw [codeText_linked_cons, codeText_cons]
      by_cases hi : i < s.text.length
      · have hsame : linkSegment libraries s = [s] := by
          cases s with
          | digit d => rfl
          | placeholder p =>
              have hnone : libraries.find? (fun l => l.placeholder = p) = none := by
                rw [List.find?_eq_none]
                intro l hl hp
                have hp : l.placeholder = p := by simpa using hp
                subst hp
                have hhere := h l hl 0 (by simp [Segment.text])
                rw [Segment.text] at hi
                omega
              rw [linkSegment, hnone]
        rw [hsame, codeText_cons, codeText_nil, List.append_nil, List.getElem?_append_left hi,
          List.getElem?_append_left hi]
      · have hi : s.text.length ≤ i := Nat.le_of_not_lt hi
        rw [List.getElem?_append_right (hlength ▸ hi), List.getElem?_append_right hi, hlength]
        apply ih
        intro l hl start hstart
        have hlater := h l hl (s.text.length + start) (by
          rwa [codeText_cons, ← List.drop_drop, List.drop_left])
        omega

theorem linkedText_linked {libraries : List Library}
    (hdistinct : (libraries.map Library.placeholder).Nodup) (code : List Segment) :
    LinkedText libraries (codeText code) (codeText (linked libraries code)) where
  length_eq := length_linked libraries code
  replaced _ hl _ h := address_prefix_linked hdistinct hl h
  kept _ h := getElem?_linked h

/-- The bytecode of a contract. -/
def bytecodeOf (code : List Segment) : String := String.ofList (codeText code)

/-- All recorded places of a library, one at least, are of twenty bytes and hold
its placeholder. -/
structure Library.LinksInto (code : List Segment) (l : Library) : Prop where
  some_offset : l.link.offsets ≠ []
  offsets : ∀ o ∈ l.link.offsets, o.length = 20 ∧
    l.placeholder.text <+: (codeText code).drop (o.start * 2)

/-- A text of characters of one byte each. -/
def IsSingleBytes (cs : List Char) : Prop := ∀ c ∈ cs, c.utf8Size = 1

theorem isSingleBytes_codeText (code : List Segment) : IsSingleBytes (codeText code) := by
  intro c hc
  obtain ⟨s, -, hs⟩ := List.mem_flatMap.mp hc
  cases s with
  | digit d =>
      rw [List.mem_singleton.mp hs]
      exact d.utf8Size_char
  | placeholder p =>
      simp only [Segment.text, Placeholder.text, List.mem_cons, List.mem_append, List.mem_map,
        List.not_mem_nil, or_false] at hs
      rcases hs with rfl | rfl | rfl | ⟨d, -, rfl⟩ | rfl | rfl | rfl
      all_goals first | exact HexDigit.utf8Size_char _ | rfl

namespace IsSingleBytes

variable {cs : List Char}

/-- Single bytes are counted like characters. -/
theorem bytes_eq (h : IsSingleBytes cs) {n : Nat} (hn : n ≤ cs.length) :
    Text.dropBytes? n cs = some (cs.drop n) ∧ Text.takeBytes? n cs = some (cs.take n) := by
  induction cs generalizing n with
  | nil =>
      obtain rfl := Nat.le_zero.mp hn
      exact ⟨rfl, rfl⟩
  | cons c cs ih =>
      cases n with
      | zero => exact ⟨rfl, rfl⟩
      | succ n =>
          have hsize : c.utf8Size = 1 := h c (by simp)
          obtain ⟨hdrop, htake⟩ :=
            ih (fun d hd => h d (List.mem_cons_of_mem c hd)) (Nat.le_of_succ_le_succ hn)
          rw [Text.dropBytes?, Text.takeBytes?, hsize, if_pos (Nat.le_add_left 1 n),
            if_pos (Nat.le_add_left 1 n), Nat.add_sub_cancel, hdrop, htake]
          exact ⟨rfl, rfl⟩

end IsSingleBytes

/-- The table reads the placeholder of a library off the bytecode. -/
theorem placeholder_eq {code : List Segment} {l : Library} (h : l.LinksInto code) :
    Client.placeholder (bytecodeOf code) l.link = String.ofList l.placeholder.text := by
  obtain ⟨o, rest, hoffsets⟩ := List.exists_cons_of_ne_nil h.some_offset
  obtain ⟨hlength, hstarts⟩ := h.offsets o (hoffsets ▸ List.mem_cons_self)
  have hroom : 40 ≤ ((codeText code).drop (o.start * 2)).length :=
    l.placeholder.length_text ▸ hstarts.length_le
  have hbytes := isSingleBytes_codeText code
  have hbehind : IsSingleBytes ((codeText code).drop (o.start * 2)) :=
    fun c hc => hbytes c (List.mem_of_mem_drop hc)
  have hstart : o.start * 2 ≤ (codeText code).length := by
    rw [List.length_drop] at hroom
    omega
  have hslice : Text.sliceBytes? (bytecodeOf code) (o.start * 2) (o.length * 2) =
      some (String.ofList l.placeholder.text) := by
    have htext : ((codeText code).drop (o.start * 2)).take 40 = l.placeholder.text := by
      rw [← l.placeholder.length_text]
      exact (List.prefix_iff_eq_take.mp hstarts).symm
    simp only [Text.sliceBytes?, bytecodeOf, String.toList_ofList, (hbytes.bytes_eq hstart).1,
      hlength, Option.bind_eq_bind, Option.bind_some, Nat.reduceMul, (hbehind.bytes_eq hroom).2,
      htext, Option.map_eq_map, Option.map_some]
  simp only [Client.placeholder, placeholderAt?, hoffsets, List.head?_cons, Option.bind_eq_bind,
    Option.bind_some, hslice, Option.getD_some]

/-- The digits of an address fill the width that the helper pads them to. -/
theorem Address.units_text (a : Address) : units a.text = addressDigits := by
  have hbasic : ∀ c ∈ a.text, ¬ 0x10000 ≤ c.toNat := by
    intro c hc
    obtain ⟨d, -, rfl⟩ := List.mem_map.mp hc
    have hsize := Char.utf8Size_eq_one_iff.mp d.utf8Size_char
    exact Nat.not_le.mpr (Nat.lt_of_le_of_lt (UInt32.le_iff_toNat_le.mp hsize) (by decide))
  have hnone : a.text.countP (fun c => 0x10000 ≤ c.toNat) = 0 :=
    List.countP_eq_zero.mpr fun c hc => by simpa using hbasic c hc
  rw [units, hnone, Nat.add_zero, Address.text, List.length_map, a.length_digits]

/-- What the generated helper returns for a bytecode, a placeholder and an
address. -/
theorem applyToTexts?_replaceHelper (cs : List Char) (p : Placeholder) (a : Address) :
    replaceHelper.applyToTexts? [cs, p.text, a.text] =
      some (Text.replace p.text a.text cs) := by
  have hpadded : TextValue.invoke? (.text a.text) "padEnd" [.count addressDigits, .text ['0']] =
      some (.text a.text) := by
    simp [TextValue.invoke?, a.units_text, show units ['0'] = 1 from rfl]
  have hsplit : TextValue.invoke? (.text cs) "split" [.text p.text] =
      some (.texts (Text.split p.text cs)) := by
    simp [TextValue.invoke?, p.text_ne_nil]
  have hjoin : TextValue.invoke? (.texts (Text.split p.text cs)) "join" [.text a.text] =
      some (.text (Text.replace p.text a.text cs)) := rfl
  simp [replaceHelper, Expr.method, Expr.apply, Stmt.returns, Param.typed, Decl.applyToTexts?,
    Expr.textValue?, Expr.textValues?, List.lookup_cons, hpadded, hsplit, hjoin]

/-- **Run.**  Replacing once for each library, one after the other, links them
all. -/
theorem foldlM_replaceHelper {libraries : List Library} {placeholderOf : Library → List Char}
    (h : ∀ l ∈ libraries, placeholderOf l = l.placeholder.text) (code : List Segment) :
    libraries.foldlM (fun cs l => replaceHelper.applyToTexts? [cs, placeholderOf l, l.address.text])
      (codeText code) = some (codeText (linked libraries code)) := by
  induction libraries generalizing code with
  | nil =>
      have hsame : linked [] code = code := by
        have hstay : linkSegment [] = fun s => [s] := by
          funext s
          cases s <;> rfl
        rw [linked, hstay, List.flatMap_singleton']
      rw [List.foldlM_nil, hsame]
      rfl
  | cons l libraries ih =>
      rw [List.foldlM_cons, h l List.mem_cons_self, applyToTexts?_replaceHelper, replace_code]
      simp only [Option.bind_eq_bind, Option.bind_some]
      rw [ih fun l hl => h l (List.mem_cons_of_mem _ hl), linked_linked]

/-- **Linking.**  The table reads the placeholder of each library off the
bytecode, in order, and replacing each placeholder by the address gives in any
order the bytecode with the addresses in the places of the placeholders. -/
theorem linking_replaces_placeholders {code : List Segment} {libraries : List Library}
    (h : ∀ l ∈ libraries, l.LinksInto code)
    (hdistinct : (libraries.map Library.placeholder).Nodup) :
    linkTable (bytecodeOf code) (libraries.map Library.link) =
        libraries.map (fun l =>
          (l.link.file ++ ":" ++ l.link.library, String.ofList l.placeholder.text)) ∧
      ∃ result, LinkedText libraries (codeText code) result ∧
        ∀ order : List Library, order.Perm libraries →
          order.foldlM (fun cs l => replaceHelper.applyToTexts?
            [cs, (Client.placeholder (bytecodeOf code) l.link).toList, l.address.text])
            (codeText code) = some result := by
  refine ⟨?_, codeText (linked libraries code), linkedText_linked hdistinct code, ?_⟩
  · rw [linkTable, List.map_map]
    apply List.map_congr_left
    intro l hl
    rw [Function.comp_apply, placeholder_eq (h l hl), LinkReference.token]
  · intro order horder
    rw [← linked_perm horder hdistinct]
    apply foldlM_replaceHelper
    intro l hl
    rw [placeholder_eq (h l (horder.mem_iff.mp hl)), String.toList_ofList]

/-- A library with the given digit in its placeholder and in its address. -/
def sampleLibrary (name : String) (d : HexDigit) (lower : d.char.isUpper = false)
    (starts : List Nat) : Library where
  link := { file := "lib/" ++ name ++ ".sol", library := name
            offsets := starts.map fun start => { start, length := 20 } }
  placeholder :=
    { digits := List.replicate placeholderDigits d
      length_digits := List.length_replicate
      lower := fun _ he => List.eq_of_mem_replicate he ▸ lower }
  address :=
    { digits := List.replicate addressDigits d
      length_digits := List.length_replicate }

def mathLibrary : Library := sampleLibrary "Math" ⟨'a', rfl⟩ rfl [1, 41]

def textLibrary : Library := sampleLibrary "Text" ⟨'7', rfl⟩ rfl [21]

/-- Bytecode with two libraries, one of them twice. -/
def sampleCode : List Segment :=
  [.digit ⟨'6', rfl⟩, .digit ⟨'0', rfl⟩, .placeholder mathLibrary.placeholder,
    .placeholder textLibrary.placeholder, .placeholder mathLibrary.placeholder]

theorem linking_replaces_placeholders_sample :
    (∀ l ∈ [mathLibrary, textLibrary], l.LinksInto sampleCode) ∧
      ([mathLibrary, textLibrary].map Library.placeholder).Nodup ∧
      linkTable (bytecodeOf sampleCode) ([mathLibrary, textLibrary].map Library.link) =
        [("lib/Math.sol:Math", String.ofList mathLibrary.placeholder.text),
          ("lib/Text.sol:Text", String.ofList textLibrary.placeholder.text)] ∧
      ∃ result, LinkedText [mathLibrary, textLibrary] (codeText sampleCode) result ∧
        ∀ order : List Library, order.Perm [mathLibrary, textLibrary] →
          order.foldlM (fun cs l => replaceHelper.applyToTexts?
            [cs, (Client.placeholder (bytecodeOf sampleCode) l.link).toList, l.address.text])
            (codeText sampleCode) = some result := by
  have hlinks : ∀ l ∈ [mathLibrary, textLibrary], l.LinksInto sampleCode := by
    have hmath : mathLibrary.LinksInto sampleCode := ⟨by decide, by decide⟩
    have htext : textLibrary.LinksInto sampleCode := ⟨by decide, by decide⟩
    simp [hmath, htext]
  have hdistinct : ([mathLibrary, textLibrary].map Library.placeholder).Nodup := by decide
  obtain ⟨htable, hresult⟩ := linking_replaces_placeholders hlinks hdistinct
  exact ⟨hlinks, hdistinct, htable, hresult⟩

end AbiBindings.Client
