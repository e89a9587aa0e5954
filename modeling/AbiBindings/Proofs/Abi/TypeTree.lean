import AbiBindings.Abi.Canonical
import AbiBindings.Proofs.Splitting

/-!
# Canonical signatures are unambiguous

A canonical signature is one flat text, and the selector is a digest of that
text alone.  What the text says of an input is its `TypeTree`: the word of its
type, or the types of its components with the suffix of the tuple.  Names and
internal types are no part of it.

As long as the words hold no parenthesis and no comma, the text says all of
the tree, but for one thing: an empty list of components is written like a
list of one component whose type is empty.  The key fact is
`TypeTree.chars_append_inj`: wherever a tree without such a list is written in
front of a comma, a closing parenthesis or the end, the tree can be read back
and so can the text behind it.  The induction is on the first tree, and the
list behind a comma goes with it (`TypeTree.behind_append_inj`).
-/

namespace AbiBindings.Abi

/-- The type of a parameter without any names. -/
inductive TypeTree where
  | word (kind : String)
  | tuple (items : List TypeTree) (suffix : List Char)

mutual

/-- The type tree of a parameter.  A parameter is a tuple when its type starts
with the word `tuple` and it has a list of components, empty or not. -/
def Param.typeTree : Param → TypeTree
  | { kind, components := none, .. } => .word kind
  | { kind, components := some components, .. } =>
      match tupleSuffix? kind with
      | some suffix => .tuple (typeTrees components) suffix
      | none => .word kind

/-- The type tree of each parameter. -/
def typeTrees : List Param → List TypeTree
  | [] => []
  | p :: rest => p.typeTree :: typeTrees rest

end

theorem typeTrees_eq_map (params : List Param) : typeTrees params = params.map Param.typeTree := by
  induction params with
  | nil => rfl
  | cons p rest ih => rw [typeTrees, ih, List.map_cons]

/-- The characters by which a signature sets types apart. -/
def delimiters : List Char := ['(', ')', ',']

/-- The text has no delimiter in it. -/
def Undelimited (cs : List Char) : Prop := ∀ c ∈ cs, c ∉ delimiters

-- Goes through the text; the instance that is found for the statement may go
-- through all characters instead.
instance (cs : List Char) : Decidable (Undelimited cs) :=
  List.decidableBAll (· ∉ delimiters) cs

/-- The text is empty or goes on with a delimiter that stands behind types. -/
def Delimited (cs : List Char) : Prop := ∀ c ∈ cs.head?, c = ',' ∨ c = ')'

theorem Delimited.mem_delimiters {cs : List Char} (h : Delimited cs) :
    ∀ c ∈ cs.head?, c ∈ delimiters := by
  intro c hc
  rcases h c hc with rfl | rfl
  · decide
  · decide

namespace TypeTree

mutual

/-- The words of the tree hold no delimiter and none of them is empty; the
suffix of a tuple may be. -/
def WellFormed : TypeTree → Prop
  | .word kind => kind.toList ≠ [] ∧ Undelimited kind.toList
  | .tuple items suffix => AllWellFormed items ∧ Undelimited suffix

/-- Every one of the trees is well formed. -/
def AllWellFormed : List TypeTree → Prop
  | [] => True
  | t :: rest => t.WellFormed ∧ AllWellFormed rest

end

theorem allWellFormed_iff {ts : List TypeTree} :
    AllWellFormed ts ↔ ∀ t ∈ ts, t.WellFormed := by
  induction ts with
  | nil => simp [AllWellFormed]
  | cons t rest ih => simp [AllWellFormed, ih]

mutual

instance decidableWellFormed : (t : TypeTree) → Decidable t.WellFormed
  | .word kind => inferInstanceAs (Decidable (kind.toList ≠ [] ∧ Undelimited kind.toList))
  | .tuple items suffix =>
      haveI := decidableAllWellFormed items
      inferInstanceAs (Decidable (AllWellFormed items ∧ Undelimited suffix))

instance decidableAllWellFormed : (ts : List TypeTree) → Decidable (AllWellFormed ts)
  | [] => inferInstanceAs (Decidable True)
  | t :: rest =>
      haveI := decidableWellFormed t
      haveI := decidableAllWellFormed rest
      inferInstanceAs (Decidable (t.WellFormed ∧ AllWellFormed rest))

end

mutual

/-- The words of the tree hold no delimiter, and no tuple in it has an empty
word for its only component. -/
def Readable : TypeTree → Prop
  | .word kind => Undelimited kind.toList
  | .tuple items suffix => items ≠ [.word ""] ∧ AllReadable items ∧ Undelimited suffix

/-- Every one of the trees is readable. -/
def AllReadable : List TypeTree → Prop
  | [] => True
  | t :: rest => t.Readable ∧ AllReadable rest

end

theorem AllWellFormed.ne_blank {ts : List TypeTree} (h : AllWellFormed ts) :
    ts ≠ [.word ""] := by
  intro hblank
  subst hblank
  exact h.1.1 rfl

mutual

/-- A well-formed tree is readable. -/
theorem WellFormed.readable : {t : TypeTree} → t.WellFormed → t.Readable
  | .word _, h => h.2
  | .tuple _ _, h => ⟨h.1.ne_blank, h.1.readable, h.2⟩

theorem AllWellFormed.readable : {ts : List TypeTree} → AllWellFormed ts → AllReadable ts
  | [], _ => trivial
  | _ :: _, h => ⟨h.1.readable, AllWellFormed.readable h.2⟩

end

mutual

/-- The text of a tree. -/
def chars : TypeTree → List Char
  | .word kind => kind.toList
  | .tuple items suffix => parameterList (parts items) ++ suffix

/-- The text of each tree. -/
def parts : List TypeTree → List (List Char)
  | [] => []
  | t :: rest => t.chars :: parts rest

end

/-- The text of trees behind another one, a comma in front of each. -/
def behind : List TypeTree → List Char
  | [] => []
  | t :: rest => ',' :: (t.chars ++ behind rest)

/-- A list of types is its first one and the others behind it. -/
theorem parameterList_cons (t : TypeTree) (rest : List TypeTree) :
    parameterList (parts (t :: rest)) = '(' :: (t.chars ++ (behind rest ++ [')'])) := by
  have hjoin : ∀ (t : TypeTree) (rest : List TypeTree),
      List.intercalate [','] (parts (t :: rest)) = t.chars ++ behind rest := by
    intro t rest
    induction rest generalizing t with
    | nil => simp [parts, behind, List.intercalate]
    | cons u rest ih =>
        rw [behind, ← ih u]
        simp [parts, List.intercalate]
  rw [parameterList, hjoin, List.append_assoc]

theorem delimited_behind (ts : List TypeTree) (r : List Char) :
    Delimited (behind ts ++ ')' :: r) := by
  cases ts <;> simp [behind, Delimited]

/-- A word in front of a delimiter does not start like a list. -/
theorem word_append_ne {kind : String} (h : (TypeTree.word kind).Readable) {r : List Char}
    (hr : Delimited r) (s : List Char) : kind.toList ++ r ≠ '(' :: s := by
  intro hlist
  cases hkind : kind.toList with
  | nil =>
      rw [hkind, List.nil_append] at hlist
      subst hlist
      simp [Delimited] at hr
  | cons c rest =>
      rw [hkind, List.cons_append] at hlist
      obtain ⟨rfl, -⟩ := List.cons.inj hlist
      have hfree : Undelimited ('(' :: rest) := hkind ▸ h
      exact hfree '(' List.mem_cons_self (by decide)

/-- A list that is not empty does not start like an empty one. -/
theorem chars_behind_ne {u : TypeTree} {us : List TypeTree} (hu : u.Readable)
    (hsome : u :: us ≠ [.word ""]) (r s : List Char) :
    u.chars ++ (behind us ++ ')' :: s) ≠ ')' :: r := by
  intro hend
  cases u with
  | tuple items suffix => exact absurd (List.cons.inj hend).1 (by decide)
  | word kind =>
      cases hkind : kind.toList with
      | cons c rest =>
          rw [chars, hkind, List.cons_append] at hend
          obtain ⟨rfl, -⟩ := List.cons.inj hend
          have hfree : Undelimited (')' :: rest) := hkind ▸ hu
          exact hfree ')' List.mem_cons_self (by decide)
      | nil =>
          -- an empty word stands alone or has a comma behind it
          cases us with
          | nil => exact hsome (by rw [String.toList_eq_nil_iff.mp hkind])
          | cons v vs =>
              rw [chars, hkind, List.nil_append] at hend
              exact absurd (List.cons.inj hend).1 (by decide)

/-- Two lists of types that are written alike are written alike behind another
type. -/
theorem behind_of_parameterList {ts us : List TypeTree} (hts : AllReadable ts)
    (hus : AllReadable us) (hsome : ts ≠ [.word ""]) (hother : us ≠ [.word ""])
    {r s : List Char}
    (h : parameterList (parts ts) ++ r = parameterList (parts us) ++ s) :
    behind ts ++ ')' :: r = behind us ++ ')' :: s := by
  cases ts with
  | nil =>
      cases us with
      | nil => exact (List.cons.inj h).2
      | cons u us =>
          simp only [parameterList_cons, List.cons_append, List.append_assoc] at h
          exact absurd (List.cons.inj h).2.symm (chars_behind_ne hus.1 hother r s)
  | cons t ts =>
      cases us with
      | nil =>
          simp only [parameterList_cons, List.cons_append, List.append_assoc] at h
          exact absurd (List.cons.inj h).2 (chars_behind_ne hts.1 hsome s r)
      | cons u us =>
          simp only [parameterList_cons, List.cons_append, List.append_assoc] at h
          simpa [behind] using (List.cons.inj h).2

mutual

/-- **Reading back.**  A tree in front of a delimiter can be read back, and the
text behind it too. -/
theorem chars_append_inj : (t u : TypeTree) → t.Readable → u.Readable →
    ∀ {r s : List Char}, Delimited r → Delimited s → t.chars ++ r = u.chars ++ s →
      t = u ∧ r = s
  | .word kind, .word other, ht, hu, r, s, hr, hs, h => by
      obtain ⟨hkind, hrest⟩ :=
        append_inj_at (· ∈ delimiters) ht hu hr.mem_delimiters hs.mem_delimiters h
      exact ⟨congrArg TypeTree.word (String.toList_inj.mp hkind), hrest⟩
  | .word kind, .tuple items suffix, ht, _, r, s, hr, _, h =>
      absurd h (word_append_ne ht hr _)
  | .tuple items suffix, .word kind, _, hu, r, s, _, hs, h =>
      absurd h.symm (word_append_ne hu hs _)
  | .tuple items suffix, .tuple others ending, ht, hu, r, s, hr, hs, h => by
      obtain ⟨hsome, hitems, hsuffix⟩ := ht
      obtain ⟨hother, hothers, hending⟩ := hu
      simp only [chars, List.append_assoc] at h
      obtain ⟨rfl, hrest⟩ := behind_append_inj items others hitems hothers
        (behind_of_parameterList hitems hothers hsome hother h)
      obtain ⟨rfl, heq⟩ := append_inj_at (· ∈ delimiters) hsuffix hending hr.mem_delimiters
        hs.mem_delimiters hrest
      exact ⟨rfl, heq⟩

/-- **Reading back.**  The types behind another one can be read back up to the
end of their list. -/
theorem behind_append_inj : (ts us : List TypeTree) → AllReadable ts → AllReadable us →
    ∀ {r s : List Char}, behind ts ++ ')' :: r = behind us ++ ')' :: s → ts = us ∧ r = s
  | [], [], _, _, r, s, h => ⟨rfl, (List.cons.inj h).2⟩
  | [], u :: us, _, _, r, s, h => absurd (List.cons.inj h).1 (by decide)
  | t :: ts, [], _, _, r, s, h => absurd (List.cons.inj h).1 (by decide)
  | t :: ts, u :: us, ht, hu, r, s, h => by
      simp only [behind, List.cons_append, List.append_assoc] at h
      obtain ⟨rfl, hrest⟩ := chars_append_inj t u ht.1 hu.1 (delimited_behind ts r)
        (delimited_behind us s) (List.cons.inj h).2
      obtain ⟨rfl, heq⟩ := behind_append_inj ts us ht.2 hu.2 hrest
      exact ⟨rfl, heq⟩

end

/-- A readable tree is written like no other one. -/
theorem chars_inj {t u : TypeTree} (ht : t.Readable) (hu : u.Readable)
    (h : t.chars = u.chars) : t = u :=
  (chars_append_inj t u ht hu (r := []) (s := []) (by simp [Delimited]) (by simp [Delimited])
    (congrArg (· ++ []) h)).1

/-- A list of types is written like no other one. -/
theorem parameterList_inj {ts us : List TypeTree} (hts : AllWellFormed ts)
    (hus : AllWellFormed us) (h : parameterList (parts ts) = parameterList (parts us)) :
    ts = us :=
  (behind_append_inj ts us hts.readable hus.readable
    (behind_of_parameterList hts.readable hus.readable hts.ne_blank hus.ne_blank
      (congrArg (· ++ []) h))).1

end TypeTree

mutual

/-- The canonical form of a parameter is the text of its type tree. -/
theorem Param.canonicalChars_eq : (p : Param) → p.canonicalChars = p.typeTree.chars
  | ⟨_, kind, _, none, _⟩ => rfl
  | ⟨_, kind, _, some components, _⟩ => by
      simp only [Param.canonicalChars, Param.typeTree]
      cases tupleSuffix? kind with
      | none => rfl
      | some suffix => simp only [TypeTree.chars, canonicalParts_eq components]

theorem canonicalParts_eq : (params : List Param) →
    canonicalParts params = TypeTree.parts (typeTrees params)
  | [] => rfl
  | p :: rest => by
      rw [canonicalParts, typeTrees, TypeTree.parts, p.canonicalChars_eq, canonicalParts_eq rest]

end

/-- Parameters of one canonical type have one type tree, if both are
readable. -/
theorem typeTree_eq_of_readable {p q : Param} (hp : p.typeTree.Readable)
    (hq : q.typeTree.Readable) (h : p.canonicalType = q.canonicalType) :
    p.typeTree = q.typeTree := by
  apply TypeTree.chars_inj hp hq
  rw [← p.canonicalChars_eq, ← q.canonicalChars_eq, String.ofList_injective h]

/-- Parameters of one canonical type have one type tree, if both are well
formed. -/
theorem typeTree_eq_of_canonicalType {p q : Param} (hp : p.typeTree.WellFormed)
    (hq : q.typeTree.WellFormed) (h : p.canonicalType = q.canonicalType) :
    p.typeTree = q.typeTree :=
  typeTree_eq_of_readable hp.readable hq.readable h

/-- **Canonical signatures are unambiguous.**  Names without a parameter list
and inputs of well-formed types have the same canonical signature exactly when
the names are the same and so are the types, one by one and at every depth. -/
theorem canonical_signatures_unambiguous {name other : String} {inputs others : List Param}
    (hname : '(' ∉ name.toList) (hother : '(' ∉ other.toList)
    (hinputs : ∀ p ∈ inputs, p.typeTree.WellFormed)
    (hothers : ∀ p ∈ others, p.typeTree.WellFormed) :
    canonicalSignature name inputs = canonicalSignature other others ↔
      name = other ∧ inputs.map Param.typeTree = others.map Param.typeTree := by
  have hwritten : ∀ {n : String} (ps : List Param), '(' ∉ n.toList →
      canonicalSignature n ps =
        String.ofList (n.toList ++ parameterList (TypeTree.parts (typeTrees ps))) := by
    intro n ps hn
    have hcontains : n.toList.contains '(' = false := by simpa using hn
    rw [canonicalSignature, hcontains, canonicalParts_eq]
    rfl
  rw [hwritten inputs hname, hwritten others hother, ← typeTrees_eq_map, ← typeTrees_eq_map]
  constructor
  · intro h
    have hchars : name.toList ++ parameterList (TypeTree.parts (typeTrees inputs)) =
        other.toList ++ parameterList (TypeTree.parts (typeTrees others)) := by
      simpa using congrArg String.toList h
    -- the list of inputs starts at the first parenthesis
    obtain ⟨hnames, hlists⟩ := append_inj_at (· = '(') (fun c hc heq => hname (heq ▸ hc))
      (fun c hc heq => hother (heq ▸ hc)) (by simp [parameterList]) (by simp [parameterList])
      hchars
    refine ⟨String.toList_inj.mp hnames, TypeTree.parameterList_inj ?_ ?_ hlists⟩
    · rw [TypeTree.allWellFormed_iff, typeTrees_eq_map]
      simpa using hinputs
    · rw [TypeTree.allWellFormed_iff, typeTrees_eq_map]
      simpa using hothers
  · intro h
    obtain ⟨rfl, htrees⟩ := h
    rw [htrees]

/-- Orders in a list, and a word behind it. -/
def orders (maker amount : String) : List Param :=
  [{ name := "orders", kind := "tuple[]",
     components := some [{ name := maker, kind := "address" },
       { name := amount, kind := "uint256" }] },
   { name := "memo", kind := "bytes" }]

/-- The same words with the memo among the components. -/
def memos : List Param :=
  [{ name := "orders", kind := "tuple[]",
     components := some [{ name := "maker", kind := "address" },
       { name := "amount", kind := "uint256" }, { name := "memo", kind := "bytes" }] }]

/-- Other names do not make another signature, and another nesting of the same
words does. -/
theorem canonical_signatures_unambiguous_orders :
    ('(' ∉ "fill".toList ∧ (∀ p ∈ orders "maker" "amount", p.typeTree.WellFormed) ∧
      (∀ p ∈ orders "" "value", p.typeTree.WellFormed) ∧
      ∀ p ∈ memos, p.typeTree.WellFormed) ∧
    canonicalSignature "fill" (orders "maker" "amount") =
      canonicalSignature "fill" (orders "" "value") ∧
    canonicalSignature "fill" (orders "maker" "amount") ≠ canonicalSignature "fill" memos := by
  have hname : '(' ∉ "fill".toList := by decide
  have horders : ∀ p ∈ orders "maker" "amount", p.typeTree.WellFormed := by decide
  have hrenamed : ∀ p ∈ orders "" "value", p.typeTree.WellFormed := by decide
  have hmemos : ∀ p ∈ memos, p.typeTree.WellFormed := by decide
  refine ⟨⟨hname, horders, hrenamed, hmemos⟩,
    (canonical_signatures_unambiguous hname hname horders hrenamed).mpr ⟨rfl, rfl⟩, ?_⟩
  intro h
  have htrees := ((canonical_signatures_unambiguous hname hname horders hmemos).mp h).2
  simp [orders, memos] at htrees

end AbiBindings.Abi
