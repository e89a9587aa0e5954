/-!
# Tables

A table maps texts to values and keeps its entries strictly sorted by their
keys, so it holds each key once and reads the same whatever the order of
insertion.  `Table.insert` replaces the value of a key that is there already;
`lookup_insert_self` and `lookup_insert_of_ne` say what is found afterwards.
-/

namespace AbiBindings

/-- Entries strictly sorted by their keys. -/
structure Table (α : Type) where
  entries : List (String × α)
  sorted : entries.Pairwise fun a b => a.1 < b.1

namespace Table

variable {α β : Type}

/-- The table without entries. -/
def empty : Table α := ⟨[], .nil⟩

instance : Inhabited (Table α) := ⟨empty⟩

/-- Sorted entries with one more, in place of the one of its key if there is
one. -/
def insertEntry (key : String) (a : α) : List (String × α) → List (String × α)
  | [] => [(key, a)]
  | (k, b) :: rest =>
      if key < k then (key, a) :: (k, b) :: rest
      else if key = k then (key, a) :: rest
      else (k, b) :: insertEntry key a rest

theorem mem_insertEntry {key : String} {a : α} {e : String × α} :
    {entries : List (String × α)} → e ∈ insertEntry key a entries → e = (key, a) ∨ e ∈ entries
  | [], h => by simpa [insertEntry] using h
  | (k, b) :: rest, h => by
      rw [insertEntry] at h
      split at h
      · simpa using h
      · split at h
        · rcases List.mem_cons.1 h with h | h
          · exact .inl h
          · exact .inr (List.mem_cons_of_mem _ h)
        · rcases List.mem_cons.1 h with h | h
          · exact .inr (h ▸ List.mem_cons_self)
          · exact (mem_insertEntry h).imp_right (List.mem_cons_of_mem _)

/-- A key that is neither less than nor equal to another is greater. -/
theorem lt_of_not_lt_of_ne {a b : String} (h : ¬a < b) (hne : a ≠ b) : b < a := by
  refine Decidable.byContradiction fun hba => hne ?_
  exact String.le_antisymm (String.not_lt.1 hba) (String.not_lt.1 h)

theorem pairwise_insertEntry {key : String} {a : α} :
    {entries : List (String × α)} → entries.Pairwise (fun x y => x.1 < y.1) →
      (insertEntry key a entries).Pairwise fun x y => x.1 < y.1
  | [], _ => by simp [insertEntry]
  | (k, b) :: rest, h => by
      obtain ⟨hk, hrest⟩ := List.pairwise_cons.1 h
      rw [insertEntry]
      split
      · rename_i hlt
        refine List.pairwise_cons.2 ⟨fun e he => ?_, h⟩
        rcases List.mem_cons.1 he with rfl | he
        · exact hlt
        · exact String.lt_trans hlt (hk e he)
      · rename_i hlt
        split
        · rename_i heq
          exact List.pairwise_cons.2 ⟨fun e he => heq ▸ hk e he, hrest⟩
        · rename_i hne
          refine List.pairwise_cons.2 ⟨fun e he => ?_, pairwise_insertEntry hrest⟩
          rcases mem_insertEntry he with rfl | he
          · exact lt_of_not_lt_of_ne hlt hne
          · exact hk e he

/-- The table with one more entry, in place of the one of its key if there is
one. -/
def insert (t : Table α) (key : String) (a : α) : Table α :=
  ⟨insertEntry key a t.entries, pairwise_insertEntry t.sorted⟩

/-- The value of a key. -/
def lookup? (t : Table α) (key : String) : Option α := t.entries.lookup key

/-- The table of the entries; of several with one key the last one counts. -/
def ofList (entries : List (String × α)) : Table α :=
  entries.foldl (fun t e => t.insert e.1 e.2) empty

theorem lookup_insertEntry_self (key : String) (a : α) :
    (entries : List (String × α)) → (insertEntry key a entries).lookup key = some a
  | [] => by simp [insertEntry]
  | (k, b) :: rest => by
      rw [insertEntry]
      split
      · simp
      · split
        · simp
        · rename_i hne
          rw [List.lookup_cons, beq_eq_false_iff_ne.2 hne]
          exact lookup_insertEntry_self key a rest

theorem lookup_insertEntry_of_ne {key other : String} (h : other ≠ key) (a : α) :
    (entries : List (String × α)) → (insertEntry key a entries).lookup other = entries.lookup other
  | [] => by simp [insertEntry, List.lookup_cons, beq_eq_false_iff_ne.2 h]
  | (k, b) :: rest => by
      rw [insertEntry]
      split
      · rw [List.lookup_cons, beq_eq_false_iff_ne.2 h]
      · split
        · rename_i heq
          rw [List.lookup_cons, List.lookup_cons, ← heq, beq_eq_false_iff_ne.2 h]
        · rw [List.lookup_cons, List.lookup_cons, lookup_insertEntry_of_ne h a rest]

/-- A key that was inserted has the value it was inserted with. -/
theorem lookup_insert_self (t : Table α) (key : String) (a : α) :
    (t.insert key a).lookup? key = some a :=
  lookup_insertEntry_self key a t.entries

/-- An insertion changes no other key. -/
theorem lookup_insert_of_ne (t : Table α) {key other : String} (h : other ≠ key) (a : α) :
    (t.insert key a).lookup? other = t.lookup? other :=
  lookup_insertEntry_of_ne h a t.entries

end Table

end AbiBindings
