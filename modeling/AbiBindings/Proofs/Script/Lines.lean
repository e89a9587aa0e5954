import AbiBindings.Proofs.Script.Layout

/-!
# Layout of printed text

Without its tokens a text still shows how it is laid out: a reader goes over
its characters, tells string literals from code and matches brackets
(`readCode?`).  A text is laid out when all brackets are closed in the end, no
literal holds a line break, and each line that is not blank is indented by the
width for each open brace, one less where the line starts with a closing one
(`LaidOut`).

The reader that checks all this on its way (`Position.next?`) goes through the
text of a token just as the cursor goes through the token
(`Position.run_text`), so a printed text is laid out when its tokens are
(`Module.laidOut`).
-/

namespace AbiBindings.Script

/-- The role of a character that stands outside of literals. -/
def roleOf : Char → Role
  | '(' => .opens .paren
  | ')' => .closes .paren
  | '[' => .opens .square
  | ']' => .closes .square
  | '\x7b' => .opens .brace
  | '\x7d' => .closes .brace
  | _ => .inside

/-- What a text has been read as so far: code or a literal in it, with the
brackets that are open, the last one first. -/
inductive Reading where
  | code (opened : List Bracket)
  | literal (opened : List Bracket) (escaped : Bool)
deriving DecidableEq, Repr

/-- The reading of one more character; nothing at a bracket that does not
match. -/
def Reading.next? : Reading → Char → Option Reading
  | .code opened, c =>
      if c = '"' then some (.literal opened false) else .code <$> (roleOf c).enclose? opened
  | .literal opened true, _ => some (.literal opened false)
  | .literal opened false, c =>
      some (if c = '"' then .code opened else .literal opened (c = '\\'))

/-- The reading of a text. -/
def readCode? (cs : List Char) : Option Reading := cs.foldlM Reading.next? (.code [])

/-- Brackets of the text match and are closed in the end, no literal holds a
control character, and each line that is not blank is indented by the width for
each open brace, one less where it starts with a closing one. -/
structure LaidOut (width : Nat) (text : List Char) : Prop where
  closed : readCode? text = some (.code [])
  literals : ∀ before c after opened escaped, text = before ++ c :: after →
    readCode? before = some (.literal opened escaped) → ' ' ≤ c
  indented : ∀ before n c after, text = before ++ (List.replicate n ' ' ++ c :: after) →
    (before = [] ∨ before.getLast? = some '\n') → c ≠ ' ' → c ≠ '\n' →
    ∃ opened, readCode? before = some (.code opened) ∧
      n + (if c = '\x7d' then width else 0) = width * braces opened

/-- A place in a text: the reading, and the number of blanks that the line
starts with while nothing else stands on it. -/
structure Position where
  reading : Reading
  blanks : Option Nat

namespace Position

/-- Whether a character that is no blank may stand behind `n` blanks at the
start of a line. -/
def fits (width : Nat) (opened : List Bracket) (c : Char) (n : Nat) : Bool :=
  n + (if c = '\x7d' then width else 0) = width * braces opened

/-- The place behind one more character; nothing where the text is not laid
out. -/
def next? (width : Nat) (p : Position) (c : Char) : Option Position :=
  match p.reading with
  | .literal .. => if ' ' ≤ c then (⟨·, none⟩) <$> p.reading.next? c else none
  | .code opened =>
      if c = '\n' then some ⟨.code opened, some 0⟩
      else if c = ' ' then some ⟨.code opened, p.blanks.map (· + 1)⟩
      else if p.blanks.all (fits width opened c) then (⟨·, none⟩) <$> p.reading.next? c
      else none

/-- The place behind a text. -/
def run (width : Nat) (p : Position) (cs : List Char) : Option Position :=
  cs.foldlM (next? width) p

variable {width n : Nat} {p q : Position} {o o' : List Bracket} {c : Char} {cs ds : List Char}

theorem run_cons : run width p (c :: cs) = (p.next? width c).bind (run width · cs) := by
  rw [run, List.foldlM_cons]
  rfl

theorem run_append : run width p (cs ++ ds) = (run width p cs).bind (run width · ds) := by
  rw [run, List.foldlM_append]
  rfl

/-- The place holds what is read without a check. -/
theorem next?_reading (h : p.next? width c = some q) : p.reading.next? c = some q.reading := by
  obtain ⟨reading, blanks⟩ := p
  cases reading with
  | literal opened escaped =>
      simp only [next?] at h
      split at h
      · obtain ⟨reading, hreading, rfl⟩ := Option.map_eq_some_iff.mp h
        exact hreading
      · cases h
  | code opened =>
      simp only [next?] at h
      split at h
      case isTrue hc =>
        cases h
        subst hc
        rfl
      split at h
      case isTrue hc =>
        cases h
        subst hc
        rfl
      split at h
      · obtain ⟨reading, hreading, rfl⟩ := Option.map_eq_some_iff.mp h
        exact hreading
      · cases h

theorem run_reading (h : run width p cs = some q) :
    cs.foldlM Reading.next? p.reading = some q.reading := by
  induction cs generalizing p with
  | nil =>
      cases h
      rfl
  | cons c cs ih =>
      rw [run_cons, Option.bind_eq_some_iff] at h
      obtain ⟨next, hnext, hrest⟩ := h
      rw [List.foldlM_cons, next?_reading hnext]
      exact ih hrest

/-- Literals hold no control characters. -/
theorem le_of_next?_literal {escaped : Bool} (hp : p.reading = .literal o escaped)
    (h : p.next? width c = some q) : ' ' ≤ c := by
  rw [next?, hp] at h
  by_contra hc
  simp [hc] at h

/-- A line break stands in code. -/
theorem next?_newline (h : p.next? width '\n' = some q) : ∃ o, q = ⟨.code o, some 0⟩ := by
  obtain ⟨reading, blanks⟩ := p
  cases reading with
  | literal opened escaped => exact absurd (le_of_next?_literal rfl h) (by decide)
  | code opened => exact ⟨opened, (Option.some.inj h).symm⟩

/-- Blanks at the start of a line are counted. -/
theorem run_blanks (k : Nat) : run width ⟨.code o, some k⟩ (List.replicate n ' ') =
    some ⟨.code o, some (k + n)⟩ := by
  induction n generalizing k with
  | zero => rfl
  | succ n ih =>
      have hblank : next? width ⟨.code o, some k⟩ ' ' = some ⟨.code o, some (k + 1)⟩ := rfl
      rw [List.replicate_succ, run_cons, hblank, Option.bind_some, ih]
      simp [Nat.add_comm, Nat.add_left_comm]

/-- The first character of a line that is no blank stands where the open braces
ask for. -/
theorem indent_of_next? (h : next? width ⟨.code o, some n⟩ c = some q) (hblank : c ≠ ' ')
    (hbreak : c ≠ '\n') : n + (if c = '\x7d' then width else 0) = width * braces o := by
  by_contra hindent
  simp [next?, hblank, hbreak, fits, hindent] at h

/-- Where it does, the line goes on as it does inside. -/
theorem run_indented (hblank : c ≠ ' ') (hbreak : c ≠ '\n')
    (hindent : n + (if c = '\x7d' then width else 0) = width * braces o) :
    run width ⟨.code o, some n⟩ (c :: cs) = run width ⟨.code o, none⟩ (c :: cs) := by
  have hnext : next? width ⟨.code o, some n⟩ c = next? width ⟨.code o, none⟩ c := by
    simp [next?, hblank, hbreak, fits, hindent]
  rw [run_cons, run_cons, hnext]

/-- At the start of a line nothing has been read of it. -/
theorem eq_of_run_line (h : run width ⟨.code [], some 0⟩ cs = some p)
    (hline : cs = [] ∨ cs.getLast? = some '\n') : ∃ o, p = ⟨.code o, some 0⟩ := by
  rcases hline with rfl | hlast
  · exact ⟨[], (Option.some.inj h).symm⟩
  · obtain ⟨front, rfl⟩ := List.getLast?_eq_some_iff.mp hlast
    rw [run_append, Option.bind_eq_some_iff] at h
    obtain ⟨before, -, hlast⟩ := h
    rw [run_cons, Option.bind_eq_some_iff] at hlast
    obtain ⟨behind, hbreak, hp⟩ := hlast
    cases hp
    exact next?_newline hbreak

/-- **Reading.**  A text that can be read with all checks is laid out. -/
theorem laidOut (h : run width ⟨.code [], some 0⟩ cs = some q) (hclosed : q.reading = .code []) :
    LaidOut width cs := by
  -- the reader comes to every place of the text, and goes on from there
  have hplace : ∀ {before c after}, cs = before ++ c :: after → ∃ p r,
      run width ⟨.code [], some 0⟩ before = some p ∧ readCode? before = some p.reading ∧
        p.next? width c = some r := by
    rintro before c after rfl
    rw [run_append, Option.bind_eq_some_iff] at h
    obtain ⟨p, hp, hafter⟩ := h
    rw [run_cons, Option.bind_eq_some_iff] at hafter
    obtain ⟨r, hr, -⟩ := hafter
    exact ⟨p, r, hp, run_reading hp, hr⟩
  refine ⟨(run_reading h).trans (congrArg some hclosed), ?_, ?_⟩
  · intro before c after opened escaped htext hliteral
    obtain ⟨p, r, -, hreading, hr⟩ := hplace htext
    exact le_of_next?_literal (Option.some.inj (hreading.symm.trans hliteral)) hr
  · intro before n c after htext hline hblank hbreak
    rw [← List.append_assoc] at htext
    obtain ⟨p, r, hp, -, hr⟩ := hplace htext
    rw [run_append, Option.bind_eq_some_iff] at hp
    obtain ⟨first, hfirst, hblanks⟩ := hp
    obtain ⟨o, rfl⟩ := eq_of_run_line hfirst hline
    rw [run_blanks, Nat.zero_add, Option.some.injEq] at hblanks
    subst hblanks
    exact ⟨o, run_reading hfirst, indent_of_next? hr hblank hbreak⟩

theorem roleOf_of_isWordChar (h : isWordChar c = true) : roleOf c = .inside := by
  unfold roleOf
  split <;> first | rfl | exact absurd h (by decide)

/-- Letters and digits change nothing inside of a line. -/
theorem run_wordChars (h : ∀ c ∈ cs, isWordChar c = true) :
    run width ⟨.code o, none⟩ cs = some ⟨.code o, none⟩ := by
  induction cs with
  | nil => rfl
  | cons c cs ih =>
      obtain ⟨hc, hcs⟩ := List.forall_mem_cons.mp h
      obtain ⟨hblank, hquote⟩ := Token.isBlank_of_isWordChar hc
      simp only [not_or] at hblank
      have hnext : next? width ⟨.code o, none⟩ c = some ⟨.code o, none⟩ := by
        simp [next?, Reading.next?, hblank, hquote, roleOf_of_isWordChar hc, Role.enclose?]
      rw [run_cons, hnext, Option.bind_some, ih hcs]

/-- A literal goes on behind what is written for a character of it. -/
theorem run_escape (c : Char) : run width ⟨.literal o false, none⟩ (Text.escape c) =
    some ⟨.literal o false, none⟩ := by
  have hplain : ∀ {d : Char}, ' ' ≤ d → d ≠ '"' → d ≠ '\\' →
      next? width ⟨.literal o false, none⟩ d = some ⟨.literal o false, none⟩ := by
    intro d hd hquote hslash
    simp [next?, Reading.next?, hd, hquote, hslash]
  have hdigit : ∀ d < 16, ' ' ≤ Text.hexDigit d ∧ Text.hexDigit d ≠ '"' ∧
      Text.hexDigit d ≠ '\\' := by decide
  unfold Text.escape
  split
  · rfl
  split
  · rfl
  split
  · rfl
  split
  · rfl
  split
  · rfl
  split
  · rfl
  split
  · rfl
  split
  case isTrue hcontrol =>
    obtain ⟨hhigh, hhighQuote, hhighSlash⟩ := hdigit (c.toNat / 16) (by omega)
    obtain ⟨hlow, hlowQuote, hlowSlash⟩ := hdigit (c.toNat % 16) (by omega)
    have hfront : run width ⟨.literal o false, none⟩ ['\\', 'u', '0', '0'] =
        some ⟨.literal o false, none⟩ := rfl
    have hchars : ∀ a b : Char, ['\\', 'u', '0', '0', a, b] = ['\\', 'u', '0', '0'] ++ [a, b] :=
      fun _ _ => rfl
    rw [hchars, run_append, hfront, Option.bind_some, run_cons,
      hplain hhigh hhighQuote hhighSlash, Option.bind_some, run_cons,
      hplain hlow hlowQuote hlowSlash]
    rfl
  case isFalse hquote hslash _ _ _ _ _ hcontrol =>
    have hc : ' ' ≤ c := by
      rw [Char.le_def, UInt32.le_iff_toNat_le]
      exact Nat.le_of_not_lt hcontrol
    rw [run_cons, hplain hc hquote hslash]
    rfl

/-- A literal leaves the brackets around it as they are. -/
theorem run_quote (s : String) :
    run width ⟨.code o, none⟩ (Text.quote s).toList = some ⟨.code o, none⟩ := by
  have hopen : next? width ⟨.code o, none⟩ '"' = some ⟨.literal o false, none⟩ := rfl
  have hescaped : run width ⟨.literal o false, none⟩ (s.toList.flatMap Text.escape) =
      some ⟨.literal o false, none⟩ := by
    induction s.toList with
    | nil => rfl
    | cons c cs ih => rw [List.flatMap_cons, run_append, run_escape, Option.bind_some, ih]
  have hclose : run width ⟨.literal o false, none⟩ ['"'] = some ⟨.code o, none⟩ := rfl
  rw [Text.quote, Text.quoteChars, String.toList_ofList, run_cons, hopen, Option.bind_some,
    run_append, hescaped, Option.bind_some, hclose]

/-- **Step.**  The text of a token inside of a line does to the brackets what
the token does. -/
theorem run_token {t : Token} (hlayout : t.isLayout = false)
    (hword : ∀ s, t = .word s → isWord s.toList = true)
    (henclose : t.outerRole.enclose? o = some o') :
    run width ⟨.code o, none⟩ (t.text width).toList = some ⟨.code o', none⟩ := by
  cases t with
  | space | newline | indent _ => cases hlayout
  | word s =>
      cases henclose
      exact run_wordChars (isWord_iff.mp (hword s rfl)).2
  | number n =>
      cases henclose
      rw [Token.text, show (toString n).toList = Nat.toDigits 10 n from Nat.toList_repr]
      exact run_wordChars Token.isWordChar_of_mem_toDigits
  | quoted s =>
      cases henclose
      exact run_quote s
  | mark m =>
      have hmark : run width ⟨.code o, none⟩ m.text.toList =
          ((Token.mark m).outerRole.enclose? o).map fun o => ⟨.code o, none⟩ := by
        cases m <;> first
          | rfl
          | simp [Mark.text, run, next?, Reading.next?, roleOf, Token.outerRole, Token.role,
              Function.comp_def]
      rw [Token.text, hmark, henclose, Option.map_some]

/-- The text of a token starts with a character that is no blank, and with a
closing brace only where the token is one. -/
theorem exists_first (width : Nat) {t : Token} (hlayout : t.isLayout = false)
    (hword : ∀ s, t = .word s → isWord s.toList = true) :
    ∃ c cs, (t.text width).toList = c :: cs ∧ c ≠ ' ' ∧ c ≠ '\n' ∧
      (c = '\x7d' ↔ t = .mark .closeBrace) := by
  have hrun : ∀ {run : List Char}, run ≠ [] → (∀ c ∈ run, isWordChar c = true) →
      ∃ c cs, run = c :: cs ∧ c ≠ ' ' ∧ c ≠ '\n' ∧ c ≠ '\x7d' := by
    intro run hsome hall
    obtain ⟨c, cs, rfl⟩ := List.exists_cons_of_ne_nil hsome
    have hc := hall c List.mem_cons_self
    refine ⟨c, cs, rfl, ?_, ?_, ?_⟩ <;>
    · rintro rfl
      exact absurd hc (by decide)
  cases t with
  | space | newline | indent _ => cases hlayout
  | word s =>
      obtain ⟨⟨c, cs, hs, -⟩, hall⟩ := isWord_iff.mp (hword s rfl)
      obtain ⟨c, cs, hchars, hblank, hbreak, hbrace⟩ := hrun (by simp [hs]) hall
      exact ⟨c, cs, hchars, hblank, hbreak, by simp [hbrace]⟩
  | number n =>
      obtain ⟨c, cs, hchars, hblank, hbreak, hbrace⟩ :=
        hrun Nat.toDigits_ne_nil (Token.isWordChar_of_mem_toDigits (n := n))
      rw [Token.text, show (toString n).toList = Nat.toDigits 10 n from Nat.toList_repr]
      exact ⟨c, cs, hchars, hblank, hbreak, by simp [hbrace]⟩
  | quoted s =>
      refine ⟨'"', s.toList.flatMap Text.escape ++ ['"'], ?_, by decide, by decide, by simp⟩
      rw [Token.text, Text.quote, Text.quoteChars, String.toList_ofList]
  | mark m =>
      have htext : (Token.text width (.mark m)).toList = m.text.toList := rfl
      rw [htext]
      cases m <;> exact ⟨_, _, rfl, by decide, by decide, by decide⟩

end Position

/-- The place in the text at a place between tokens. -/
def Cursor.position (width : Nat) (σ : Cursor) : Position where
  reading := .code σ.opened
  blanks :=
    match σ.spot with
    | .start => some 0
    | .indented level => some (level * width)
    | .inside => none

namespace Position

variable {width : Nat} {σ σ' : Cursor}

theorem run_layout {t : Token} (hlayout : t.isLayout = true) (h : σ.next? t = some σ') :
    run width (σ.position width) (t.text width).toList = some (σ'.position width) := by
  obtain ⟨o, spot⟩ := σ
  cases t with
  | word | number | quoted | mark => cases hlayout
  | newline =>
      have htext : (Token.newline.text width).toList = ['\n'] := by simp [Token.text]
      simp only [Cursor.next?] at h
      split at h
      · cases h
        rw [htext]
        rfl
      · cases h
  | space =>
      have htext : (Token.space.text width).toList = [' '] := by simp [Token.text]
      simp only [Cursor.next?] at h
      split at h
      case isTrue hspot =>
        cases h
        cases hspot
        rw [htext]
        rfl
      case isFalse => cases h
  | indent level =>
      simp only [Cursor.next?] at h
      split at h
      case isTrue hspot =>
        cases h
        cases hspot
        rw [Token.text, String.toList_ofList]
        exact (run_blanks 0).trans (by rw [Nat.zero_add]; rfl)
      case isFalse => cases h

/-- **Step.**  The reader goes through the text of a token where the cursor goes
through the token. -/
theorem run_text {t : Token} (hword : ∀ s, t = .word s → isWord s.toList = true)
    (h : σ.next? t = some σ') :
    run width (σ.position width) (t.text width).toList = some (σ'.position width) := by
  cases hlayout : t.isLayout with
  | true => exact run_layout hlayout h
  | false =>
      obtain ⟨o, spot⟩ := σ
      rw [Cursor.next?_of_not_layout _ hlayout] at h
      split at h
      case isFalse => cases h
      case isTrue hadmits =>
        obtain ⟨o', henclose, rfl⟩ := Option.map_eq_some_iff.mp h
        have hinside : run width ⟨.code o, none⟩ (t.text width).toList =
            some ⟨.code o', none⟩ := run_token hlayout hword henclose
        cases spot with
        | start => cases hadmits
        | inside => exact hinside
        | indented level =>
            obtain ⟨c, cs, hchars, hblank, hbreak, hbrace⟩ := exists_first width hlayout hword
            have hlevel : level + (if t = .mark .closeBrace then 1 else 0) = braces o := by
              simpa [Spot.admits] using hadmits
            have hindent : level * width + (if c = '\x7d' then width else 0) =
                width * braces o := by
              rw [← hlevel, Nat.mul_add, Nat.mul_comm]
              by_cases hc : c = '\x7d' <;> simp [hc, ← hbrace]
            rw [hchars] at hinside ⊢
            exact (run_indented hblank hbreak hindent).trans hinside

/-- **Run.**  The reader goes through the text of tokens where the cursor goes
through the tokens. -/
theorem run_chars {ts : List Token}
    (hwords : ∀ s, .word s ∈ ts → isWord s.toList = true) (h : Cursor.Runs σ ts σ') :
    run width (σ.position width) (Token.chars width ts) = some (σ'.position width) := by
  induction ts generalizing σ with
  | nil =>
      cases h
      rfl
  | cons t rest ih =>
      obtain ⟨ρ, hnext, hrest⟩ := Cursor.Runs.cons_iff.mp h
      have hfirst : run width (σ.position width) (t.text width).toList =
          some (ρ.position width) := run_text (fun s hs => hwords s (by simp [hs])) hnext
      have hchars : Token.chars width (t :: rest) =
          (t.text width).toList ++ Token.chars width rest := List.flatMap_cons
      rw [hchars, run_append, hfirst, Option.bind_some]
      exact ih (fun s hs => hwords s (List.mem_cons_of_mem t hs)) hrest

end Position

/-- **Printed text.**  The text of a module is laid out, if its types hold no
default values and what it writes as it is are words. -/
theorem Module.laidOut {m : Module} (hfree : CodeFree m.types)
    (hwords : ∀ s, .word s ∈ m.tokens → isWord s.toList = true) (width : Nat) :
    LaidOut width (m.print width).toList := by
  rw [Module.print, Token.render, String.toList_ofList]
  exact Position.laidOut (Position.run_chars hwords (m.runs_tokens hfree)) rfl

end AbiBindings.Script
