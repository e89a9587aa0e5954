import AbiBindings.Json.Raw
import AbiBindings.Proofs.Script.Identifiers
import AbiBindings.Proofs.Text.Quoting
import AbiBindings.Script.Token

/-!
# Reading tokens back

A text is read as tokens the way the language does it: blanks are skipped, a
word is as long as its letters go, and a mark is the longest operator that
stands there.  So two tokens without a blank between them may be read as
something else than they were printed for.

What keeps a token apart is the character behind it (`Token.EndsBefore`), and
tokens are spaced when each of them ends before the text of the others
(`Spaced`).  Whatever is spaced is read back token by token, with its layout
left out (`lex_render`).
-/

namespace AbiBindings.Script

/-- The marks, longer ones in front of those that they start with. -/
def marks : List Mark :=
  [.strictEq, .arrow, .equals, .ellipsis, .dot, .or, .bar, .strictNe, .and, .plus, .openBrace,
    .closeBrace, .openParen, .closeParen, .openBracket, .closeBracket, .openAngle, .closeAngle,
    .comma, .colon, .semicolon, .question]

/-- The characters behind a mark with which another operator or a number goes
on.  A closing angle bracket stands for itself, as it does among types. -/
def Mark.goesOn : Mark → List Char
  | .dot => ".0123456789".toList
  | .question => "?.".toList
  | .equals => "=>".toList
  | .openAngle => "<=".toList
  | .bar => "|=".toList
  | .plus => "+=".toList
  | .and | .or => "=".toList
  | _ => []

/-- Whether the text starts with the mark. -/
def Mark.standsAt (cs : List Char) (m : Mark) : Bool := m.text.toList.isPrefixOf cs

/-- The mark at the start of a text, and what follows it; nothing where an
operator stands that is none of the marks. -/
def readMark? (cs : List Char) : Option (Token × List Char) :=
  (marks.find? (Mark.standsAt cs)).bind fun m =>
    let rest := cs.drop m.text.toList.length
    if rest.head?.any m.goesOn.contains then none else some (.mark m, rest)

/-- The word or the number that a run of letters, digits and underscores is. -/
def readRun? (run rest : List Char) : Option (Token × List Char) :=
  if isWord run then some (.word (String.ofList run), rest)
  else
    let n := Nat.ofDigitChars 10 run 0
    if Nat.toDigits 10 n = run ∧ rest.head? ≠ some '.' then some (.number n, rest) else none

/-- The token at the start of a text, and what follows it. -/
def readToken? : List Char → Option (Token × List Char)
  | [] => none
  | c :: cs =>
      if c = '"' then
        (Json.scanString cs).bind fun (value?, rest) =>
          value?.map fun value => (.quoted value, rest)
      else if isWordChar c then
        readRun? ((c :: cs).takeWhile isWordChar) ((c :: cs).dropWhile isWordChar)
      else readMark? (c :: cs)

/-- The tokens of a text, at most `fuel` of them. -/
def lexWithin (fuel : Nat) (cs : List Char) : Option (List Token) :=
  match fuel, Json.skipBlanks cs with
  | _, [] => some []
  | 0, _ => none
  | fuel + 1, rest =>
      (readToken? rest).bind fun (t, rest) => (t :: ·) <$> lexWithin fuel rest

/-- The tokens of a text.  Every token takes a character. -/
def lex (text : String) : Option (List Token) :=
  lexWithin text.toList.length text.toList

/-- A mark starts with a character that starts nothing else. -/
theorem Mark.exists_text_cons (m : Mark) :
    ∃ c cs, m.text.toList = c :: cs ∧ c ≠ '"' ∧ isWordChar c = false ∧
      ¬ (c = ' ' ∨ c = '\t' ∨ c = '\n' ∨ c = '\r') := by
  cases m <;> exact ⟨_, _, rfl, by decide, by decide, by decide⟩

namespace Token

/-- Whether a token is a blank or a line break. -/
def isLayout : Token → Bool
  | .space | .newline | .indent _ => true
  | _ => false

/-- The tokens without their layout. -/
def bare (ts : List Token) : List Token := ts.filter fun t => !t.isLayout

/-- The characters of tokens. -/
def chars (width : Nat) (ts : List Token) : List Char :=
  ts.flatMap fun t => (t.text width).toList

/-- The first character of tokens, or `next` where they have none. -/
def start (width : Nat) (ts : List Token) (next : Option Char) : Option Char :=
  (chars width ts).head?.or next

/-- The token can be told from a text that starts with `next`. -/
def EndsBefore (next : Option Char) : Token → Prop
  | .word s => isWord s.toList = true ∧ ∀ c ∈ next, isWordChar c = false
  | .number _ => ∀ c ∈ next, isWordChar c = false ∧ c ≠ '.'
  | .mark m => ∀ c ∈ next, c ∉ m.goesOn
  | _ => True

/-- Each of the tokens can be told from what is printed behind it, if the text
goes on with `next`. -/
def Spaced (width : Nat) (next : Option Char) : List Token → Prop
  | [] => True
  | t :: rest => t.EndsBefore (start width rest next) ∧ Spaced width next rest

section Spacing

variable {width : Nat} {next : Option Char}

theorem chars_append (ts us : List Token) :
    chars width (ts ++ us) = chars width ts ++ chars width us :=
  List.flatMap_append ..

@[simp]
theorem start_nil : start width [] next = next := by simp [start, chars]

theorem start_cons {t : Token} {c : Char} {cs : List Char} (h : (t.text width).toList = c :: cs)
    (ts : List Token) : start width (t :: ts) next = some c := by
  simp [start, chars, h]

theorem start_mark {m : Mark} {c : Char} {cs : List Char} (h : m.text.toList = c :: cs)
    (ts : List Token) : start width (.mark m :: ts) next = some c :=
  start_cons (t := .mark m) h ts

@[simp]
theorem start_space (ts : List Token) : start width (.space :: ts) next = some ' ' := by
  have htext : (Token.space.text width).toList = [' '] := by simp [text]
  exact start_cons htext ts

theorem start_append (ts us : List Token) :
    start width (ts ++ us) next = start width ts (start width us next) := by
  rw [start, start, start, chars_append, List.head?_append, Option.or_assoc]

/-- Tokens are spaced when both parts are, the first one in front of the
second. -/
theorem spaced_append {ts us : List Token} :
    Spaced width next (ts ++ us) ↔
      Spaced width (start width us next) ts ∧ Spaced width next us := by
  induction ts with
  | nil => simp [Spaced]
  | cons t rest ih => rw [List.cons_append, Spaced, Spaced, start_append, ih, and_assoc]

end Spacing

section Reading

variable {width : Nat} {cs rest : List Char}

theorem skipBlanks_cons {c : Char} (h : ¬ (c = ' ' ∨ c = '\t' ∨ c = '\n' ∨ c = '\r')) :
    Json.skipBlanks (c :: cs) = c :: cs := by
  apply List.dropWhile_cons_of_neg
  simpa [not_or, and_assoc] using h

theorem isBlank_of_isWordChar {c : Char} (h : isWordChar c = true) :
    ¬ (c = ' ' ∨ c = '\t' ∨ c = '\n' ∨ c = '\r') ∧ c ≠ '"' := by
  refine ⟨?_, ?_⟩
  · rintro (rfl | rfl | rfl | rfl) <;> exact absurd h (by decide)
  · rintro rfl
    exact absurd h (by decide)

/-- A run of letters, digits and underscores is read up to its end. -/
theorem readToken?_run {run : List Char} (hsome : run ≠ []) (hrun : ∀ c ∈ run, isWordChar c = true)
    (hrest : ∀ c ∈ rest.head?, isWordChar c = false) :
    readToken? (run ++ rest) = readRun? run rest := by
  obtain ⟨c, cs, rfl⟩ := List.exists_cons_of_ne_nil hsome
  have hc := hrun c List.mem_cons_self
  have htake : ((c :: cs) ++ rest).takeWhile isWordChar = c :: cs := by
    rw [List.takeWhile_append_of_pos hrun]
    cases rest with
    | nil => simp
    | cons d ds => simp [List.takeWhile_cons_of_neg, hrest d rfl]
  have hdrop : ((c :: cs) ++ rest).dropWhile isWordChar = rest := by
    rw [List.dropWhile_append_of_pos hrun]
    cases rest with
    | nil => rfl
    | cons d ds => simp [List.dropWhile_cons_of_neg, hrest d rfl]
  rw [List.cons_append] at htake hdrop ⊢
  rw [readToken?, if_neg (isBlank_of_isWordChar hc).2, if_pos hc, htake, hdrop]

theorem readToken?_word {s : String} (hword : isWord s.toList = true)
    (hrest : ∀ c ∈ rest.head?, isWordChar c = false) :
    readToken? (s.toList ++ rest) = some (.word s, rest) := by
  obtain ⟨⟨c, cs, hs, -⟩, hchars⟩ := isWord_iff.mp hword
  rw [readToken?_run (by simp [hs]) hchars hrest, readRun?, if_pos hword, String.ofList_toList]

theorem isWordChar_of_mem_toDigits {n : Nat} : ∀ c ∈ Nat.toDigits 10 n, isWordChar c = true := by
  intro c hc
  have hdigit : c.isDigit = true := Nat.isDigit_of_mem_toDigits (by decide) (by decide) hc
  simp [isWordChar, Char.isAlphanum, hdigit]

theorem readToken?_number {n : Nat}
    (hrest : ∀ c ∈ rest.head?, isWordChar c = false ∧ c ≠ '.') :
    readToken? ((toString n).toList ++ rest) = some (.number n, rest) := by
  have hword : ¬ isWord (Nat.toDigits 10 n) = true := by
    intro hword
    obtain ⟨⟨c, cs, heq, hdigit⟩, -⟩ := isWord_iff.mp hword
    have hc : c.isDigit = true := Nat.isDigit_of_mem_toDigits (b := 10) (n := n) (by decide)
      (by decide) (heq ▸ List.mem_cons_self)
    rw [hdigit] at hc
    cases hc
  have hpoint : rest.head? ≠ some '.' := fun hpoint => (hrest '.' hpoint).2 rfl
  rw [show (toString n).toList = Nat.toDigits 10 n from Nat.toList_repr,
    readToken?_run Nat.toDigits_ne_nil isWordChar_of_mem_toDigits fun c hc => (hrest c hc).1,
    readRun?, if_neg hword]
  simp [Nat.ofDigitChars_ten_toDigits, hpoint]

theorem readToken?_quoted (s : String) :
    readToken? ((Text.quote s).toList ++ rest) = some (.quoted s, rest) := by
  have hchars : (Text.quote s).toList ++ rest =
      '"' :: (s.toList.flatMap Text.escape ++ '"' :: rest) := by
    simp [Text.quote, Text.quoteChars]
  rw [hchars, readToken?, if_pos rfl, Json.scanString_escaped]
  rfl

/-- A text does not start like another one that differs in the second
character. -/
theorem isPrefixOf_of_ne {a b c d : Char} (h : b ≠ d) (as ds : List Char) :
    ¬ (a :: b :: as).isPrefixOf (c :: d :: ds) = true := by
  simp [List.isPrefixOf, h]

/-- No longer mark stands where a mark ends before the rest. -/
theorem find?_marks {m : Mark} (hrest : ∀ c ∈ rest.head?, c ∉ m.goesOn) :
    marks.find? (Mark.standsAt (m.text.toList ++ rest)) = some m := by
  cases rest with
  | nil => cases m <;> rfl
  | cons d ds =>
      have hgoes : ∀ c ∈ m.goesOn, c ≠ d := fun c hc heq => hrest d rfl (heq ▸ hc)
      cases m
      -- three marks are the start of longer ones; of the others the first characters decide
      case equals =>
        refine (List.find?_cons_of_neg ?_).trans ((List.find?_cons_of_neg ?_).trans rfl)
        · exact isPrefixOf_of_ne (hgoes '=' (by decide)) _ _
        · exact isPrefixOf_of_ne (hgoes '>' (by decide)) _ _
      case dot =>
        change (marks.drop 3).find? (Mark.standsAt ('.' :: d :: ds)) = _
        refine (List.find?_cons_of_neg ?_).trans rfl
        exact isPrefixOf_of_ne (hgoes '.' (by decide)) _ _
      case bar =>
        change (marks.drop 5).find? (Mark.standsAt ('|' :: d :: ds)) = _
        refine (List.find?_cons_of_neg ?_).trans rfl
        exact isPrefixOf_of_ne (hgoes '|' (by decide)) _ _
      all_goals rfl

theorem readMark?_mark {m : Mark} (hrest : ∀ c ∈ rest.head?, c ∉ m.goesOn) :
    readMark? (m.text.toList ++ rest) = some (.mark m, rest) := by
  have hends : rest.head?.any m.goesOn.contains = false := by
    simpa [Option.any_eq_false] using hrest
  rw [readMark?, find?_marks hrest, Option.bind_some, List.drop_left]
  simp [hends]

theorem readToken?_mark {m : Mark} (hrest : ∀ c ∈ rest.head?, c ∉ m.goesOn) :
    readToken? (m.text.toList ++ rest) = some (.mark m, rest) := by
  obtain ⟨c, cs, htext, hquote, hword, -⟩ := m.exists_text_cons
  rw [← readMark?_mark hrest, htext, List.cons_append, readToken?, if_neg hquote,
    if_neg (by simp [hword])]

/-- **Step.**  A token that ends before the rest is read first. -/
theorem readToken?_text {t : Token} (hlayout : t.isLayout = false)
    (h : t.EndsBefore rest.head?) :
    readToken? ((t.text width).toList ++ rest) = some (t, rest) := by
  cases t with
  | word s => exact readToken?_word h.1 h.2
  | number n => exact readToken?_number h
  | quoted s => exact readToken?_quoted s
  | mark m => exact readToken?_mark h
  | space | newline | indent _ => cases hlayout

/-- Blanks are skipped. -/
theorem lexWithin_layout {t : Token} (hlayout : t.isLayout = true) (fuel : Nat) :
    lexWithin fuel ((t.text width).toList ++ rest) = lexWithin fuel rest := by
  have hblanks : ∀ c ∈ (t.text width).toList,
      (c == ' ' || c == '\t' || c == '\n' || c == '\r') = true := by
    cases t with
    | space | newline => simp [text]
    | indent level =>
        intro c hc
        rw [text, String.toList_ofList] at hc
        rw [List.eq_of_mem_replicate hc]
        decide
    | word _ | number _ | quoted _ | mark _ => cases hlayout
  have hskip : Json.skipBlanks ((t.text width).toList ++ rest) = Json.skipBlanks rest :=
    List.dropWhile_append_of_pos hblanks
  unfold lexWithin
  rw [hskip]

/-- The text of a token starts with a character that is no blank. -/
theorem exists_text_cons {t : Token} (hlayout : t.isLayout = false) {next : Option Char}
    (h : t.EndsBefore next) :
    ∃ c cs, (t.text width).toList = c :: cs ∧
      ∀ rest, Json.skipBlanks (c :: rest) = c :: rest := by
  have hword : ∀ {run : List Char}, run ≠ [] → (∀ c ∈ run, isWordChar c = true) →
      ∃ c cs, run = c :: cs ∧ ∀ rest, Json.skipBlanks (c :: rest) = c :: rest := by
    intro run hsome hrun
    obtain ⟨c, cs, rfl⟩ := List.exists_cons_of_ne_nil hsome
    exact ⟨c, cs, rfl, fun _ =>
      skipBlanks_cons (isBlank_of_isWordChar (hrun c List.mem_cons_self)).1⟩
  cases t with
  | word s =>
      obtain ⟨⟨c, cs, hs, -⟩, hchars⟩ := isWord_iff.mp h.1
      exact @hword s.toList (by simp [hs]) hchars
  | number n =>
      rw [text, show (toString n).toList = Nat.toDigits 10 n from Nat.toList_repr]
      exact hword Nat.toDigits_ne_nil isWordChar_of_mem_toDigits
  | quoted s =>
      refine ⟨'"', s.toList.flatMap Text.escape ++ ['"'], ?_, fun _ =>
        skipBlanks_cons (by decide)⟩
      rw [text, Text.quote, Text.quoteChars, String.toList_ofList]
  | mark m =>
      obtain ⟨c, cs, htext, -, -, hblank⟩ := m.exists_text_cons
      exact ⟨c, cs, htext, fun _ => skipBlanks_cons hblank⟩
  | space | newline | indent _ => cases hlayout

end Reading

/-- The tokens are read back one by one.  The induction is on the tokens; each
one that is no layout takes a step and a character. -/
theorem lexWithin_chars {width : Nat} {ts : List Token} (h : Spaced width none ts) {fuel : Nat}
    (hfuel : (chars width ts).length ≤ fuel) :
    lexWithin fuel (chars width ts) = some (bare ts) := by
  induction ts generalizing fuel with
  | nil => cases fuel <;> rfl
  | cons t rest ih =>
      obtain ⟨hends, hrest⟩ := h
      have hchars : chars width (t :: rest) = (t.text width).toList ++ chars width rest := rfl
      rw [hchars, List.length_append] at hfuel
      rw [hchars]
      cases hlayout : t.isLayout with
      | true =>
          rw [lexWithin_layout hlayout, ih hrest (by omega)]
          simp [bare, hlayout]
      | false =>
          rw [start, Option.or_none] at hends
          obtain ⟨c, cs, htext, hblank⟩ : ∃ c cs, (t.text width).toList = c :: cs ∧
              ∀ rest, Json.skipBlanks (c :: rest) = c :: rest :=
            exists_text_cons hlayout hends
          rw [htext, List.length_cons] at hfuel
          obtain ⟨fuel, rfl⟩ : ∃ n, fuel = n + 1 := ⟨fuel - 1, by omega⟩
          have hread : readToken? ((t.text width).toList ++ chars width rest) =
              some (t, chars width rest) := readToken?_text hlayout hends
          rw [htext] at hread ⊢
          rw [List.cons_append] at hread ⊢
          unfold lexWithin
          rw [hblank]
          simp only [hread, Option.bind_some,
            ih hrest (show (chars width rest).length ≤ fuel by omega)]
          simp [bare, hlayout]

/-- **Reading back.**  A printed text is read as what was printed, if its tokens
are spaced. -/
theorem lex_render {width : Nat} {ts : List Token} (h : Spaced width none ts) :
    lex (render width ts) = some (bare ts) := by
  rw [lex, render, String.toList_ofList]
  exact lexWithin_chars h (Nat.le_refl _)

end Token

end AbiBindings.Script
