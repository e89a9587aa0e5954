import AbiBindings.Interface.OfContract
import AbiBindings.Proofs.FirstAppearance

/-!
# Groups of one base name

Grouping looks for the group of each item and appends the item to it.  Read as
names with their items (`NameGroup.entry`), the result is the closed form of
`entries_group`: the base names in the order of first appearance, each with
all items of that name in declared order.  The plans of a policy split or keep
these groups, and in either way hand on the same items in the same order
(`items_methodPlans`, `items_eventPlans`).
-/

namespace AbiBindings.Interface

namespace NameGroup

variable {α : Type}

/-- A group as its name and its items. -/
def entry (g : NameGroup α) : String × List α := (g.name, g.items)

/-- A name is shared by two items or more. -/
theorem isShared_iff {g : NameGroup α} : g.isShared = true ↔ 2 ≤ g.items.length := by
  cases hothers : g.others <;> simp [isShared, items, hothers]

/-- A name that is not shared has one item. -/
theorem items_of_not_shared {g : NameGroup α} (h : g.isShared = false) :
    g.items = [g.first] := by
  simpa [items, isShared] using h

/-- One more item goes to the end of the group of its name, or into a new
group at the end. -/
theorem entries_add {gs : List (NameGroup α)} (hnodup : (gs.map name).Nodup)
    (n : String) (a : α) :
    (add gs n a).map entry =
      if n ∈ gs.map name then
        (gs.map entry).map fun e => if e.1 = n then (e.1, e.2 ++ [a]) else e
      else gs.map entry ++ [(n, [a])] := by
  induction gs with
  | nil => simp [add, entry, items]
  | cons g rest ih =>
      obtain ⟨hfresh, hrest⟩ := List.nodup_cons.mp hnodup
      by_cases heq : g.name = n
      · -- no later group has the name, so the others stay as they are
        have hothers : ((rest.map entry).map fun e =>
            if e.1 = n then (e.1, e.2 ++ [a]) else e) = rest.map entry := by
          refine (List.map_congr_left ?_).trans (List.map_id _)
          intro e he
          obtain ⟨h, hh, rfl⟩ := List.mem_map.mp he
          have hne : h.name ≠ n := by
            intro heq
            subst heq
            exact hfresh (by simpa [heq] using List.mem_map_of_mem (f := name) hh)
          simp [entry, hne]
        simp only [add, heq, if_true, List.map_cons, List.mem_cons, true_or, hothers]
        simp [entry, items, heq]
      · have hne : n ≠ g.name := fun h => heq h.symm
        simp only [add, heq, if_false, List.map_cons, ih hrest, List.mem_cons, hne,
          false_or]
        split <;> simp [entry, heq]

/-- **Closed form of grouping.** -/
theorem entries_group (label : α → String) (xs : List α) :
    (group label xs).map entry =
      (xs.map fun a => baseName (label a)).eraseDups.map fun n =>
        (n, xs.filter fun a => baseName (label a) = n) := by
  induction xs using List.reverseRecOn with
  | nil => simp [group]
  | append_singleton xs a ih =>
      let key := fun a => baseName (label a)
      have hnames : (group label xs).map name = (xs.map key).eraseDups := by
        simpa [entry, Function.comp_def] using congrArg (List.map Prod.fst) ih
      have hstep : group label (xs ++ [a]) = add (group label xs) (key a) a := by
        simp [group, key]
      rw [hstep, entries_add (hnames ▸ nodup_eraseDups _), hnames, ih, List.map_append,
        List.map_singleton, eraseDups_concat]
      by_cases hmem : key a ∈ xs.map key
      · have hmem' : key a ∈ (xs.map key).eraseDups := by simpa using hmem
        rw [if_pos hmem', if_pos hmem, List.map_map]
        apply List.map_congr_left
        intro n _
        by_cases heq : key a = n
        · simp [key, heq]
        · have hne : n ≠ key a := fun h => heq h.symm
          simp [key, heq, hne]
      · have hmem' : key a ∉ (xs.map key).eraseDups := by simpa using hmem
        rw [if_neg hmem', if_neg hmem, List.map_append]
        congr 1
        · apply List.map_congr_left
          intro n hn
          have hne : key a ≠ n := by
            intro heq
            subst heq
            exact hmem' hn
          simp [key, hne]
        · have hnone : (xs.filter fun b => key b = key a) = [] := by
            apply List.filter_eq_nil_iff.mpr
            intro b hb heq
            exact hmem (List.mem_map.mpr ⟨b, hb, by simpa using heq⟩)
          simp [key, hnone]

/-- The names of the groups are the base names in the order of first
appearance. -/
theorem names_group (label : α → String) (xs : List α) :
    (group label xs).map name = (xs.map fun a => baseName (label a)).eraseDups := by
  simpa [entry, Function.comp_def] using congrArg (List.map Prod.fst) (entries_group label xs)

/-- Every item has a group. -/
theorem exists_group (label : α → String) {xs : List α} {a : α} (ha : a ∈ xs) :
    ∃ g ∈ group label xs, g.name = baseName (label a) := by
  have hname : baseName (label a) ∈ (group label xs).map name := by
    rw [names_group, List.mem_eraseDups]
    exact List.mem_map.mpr ⟨a, ha, rfl⟩
  obtain ⟨g, hg, heq⟩ := List.mem_map.mp hname
  exact ⟨g, hg, heq⟩

/-- A group has all items of its name, in declared order. -/
theorem items_of_mem_group {label : α → String} {xs : List α} {g : NameGroup α}
    (hg : g ∈ group label xs) :
    g.items = xs.filter fun a => baseName (label a) = g.name := by
  have hentry : g.entry ∈ (group label xs).map entry := List.mem_map_of_mem hg
  rw [entries_group] at hentry
  obtain ⟨n, -, hn⟩ := List.mem_map.mp hentry
  obtain ⟨rfl, hitems⟩ := Prod.mk.injEq .. |>.mp hn
  exact hitems.symm

/-- Group by group, the items stand in grouped order. -/
theorem flatMap_items_group (label : α → String) (xs : List α) :
    (group label xs).flatMap items = groupedBy (fun a => baseName (label a)) xs := by
  have hentries := congrArg (List.flatMap Prod.snd) (entries_group label xs)
  simpa [List.flatMap_map, entry, groupedBy] using hentries

end NameGroup

/-- The plans for a group hand on its functions in declared order. -/
theorem items_methodPlans (policy : Policy) (g : NameGroup Abi.Function) :
    ((methodPlans policy g).flatMap fun plan => plan.2.items) = g.items := by
  cases policy with
  | combine => simp [methodPlans]
  | mangle =>
      by_cases hshared : g.isShared
      · simp [methodPlans, hshared, List.flatMap_map, NameGroup.items]
      · simp [methodPlans, hshared]

/-- The plans for a group hand on its events in declared order. -/
theorem items_eventPlans (functionNames : List String) (g : NameGroup Abi.Event) :
    (eventPlans functionNames g).map Prod.snd = g.items := by
  simp [eventPlans, Function.comp_def]

end AbiBindings.Interface
