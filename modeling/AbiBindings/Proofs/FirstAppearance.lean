import Mathlib.Data.List.Induction
import Mathlib.Data.List.Nodup
import Mathlib.Data.List.Perm.Basic

/-!
# Names in the order of their first appearance

Groups and merged parameters both list names once each, in the order in which
they first appear, and the type of a merged parameter lists descriptors in the
same way; on lists this is `List.eraseDups`.  The lemma to build such a list
by is `eraseDups_concat`: one more item is appended, unless it is there.

`groupedBy` is the order in which grouped items stand: names in the order of
first appearance, and the items of one name in the order of the list.  It
moves items and neither drops nor repeats any (`groupedBy_perm`).
-/

namespace AbiBindings

variable {α : Type}

section Listing

variable [DecidableEq α]

/-- One more item at the end is new or it is there. -/
theorem eraseDups_concat (items : List α) (a : α) :
    (items ++ [a]).eraseDups =
      if a ∈ items then items.eraseDups else items.eraseDups ++ [a] := by
  rw [List.eraseDups_append]
  by_cases hmem : a ∈ items
  · simp [hmem, List.removeAll]
  · simp [hmem, List.removeAll, List.eraseDups_cons]

/-- Each item is listed once. -/
theorem nodup_eraseDups (items : List α) : items.eraseDups.Nodup := by
  induction items using List.reverseRecOn with
  | nil => simp
  | append_singleton items a ih =>
      rw [eraseDups_concat]
      by_cases hmem : a ∈ items
      · simpa [hmem] using ih
      · rw [if_neg hmem, List.nodup_append]
        refine ⟨ih, List.nodup_singleton a, ?_⟩
        intro b hb c hc heq
        have hitem : b ∈ items := by simpa using hb
        simp_all

/-- What relates all items to those that are new at the end holds of the whole
listing when it holds of the listing in front. -/
theorem pairwise_eraseDups_append {r : α → α → Prop} {items : List α} (others : List α)
    (h : ∀ a b, b ∉ items → r a b) :
    (items ++ others).eraseDups.Pairwise r ↔ items.eraseDups.Pairwise r := by
  rw [List.eraseDups_append, List.pairwise_append]
  have hnew : ∀ b ∈ (others.removeAll items).eraseDups, b ∉ items := by
    intro b hb
    have hmem : b ∈ others ∧ b ∉ items := by simpa [List.removeAll] using hb
    exact hmem.2
  constructor
  · exact fun hall => hall.1
  · intro hitems
    refine ⟨hitems, ?_, fun a _ b hb => h a b (hnew b hb)⟩
    exact List.pairwise_of_forall_mem_list fun a _ b hb => h a b (hnew b hb)

/-- The same items in another order are listed in another order. -/
theorem eraseDups_perm {items others : List α} (h : items.Perm others) :
    items.eraseDups.Perm others.eraseDups := by
  rw [List.perm_ext_iff_of_nodup (nodup_eraseDups items) (nodup_eraseDups others)]
  intro a
  rw [List.mem_eraseDups, List.mem_eraseDups]
  exact h.mem_iff

end Listing

/-- The items of the same name together, the names in the order in which they
first appear. -/
def groupedBy (key : α → String) (items : List α) : List α :=
  (items.map key).eraseDups.flatMap fun name => items.filter fun a => key a = name

/-- Filtering by each of some distinct names that cover a list gives back all
of its items. -/
private theorem flatMap_filter_perm (key : α → String) {names : List String}
    (hnodup : names.Nodup) :
    ∀ {items : List α}, (∀ a ∈ items, key a ∈ names) →
      (names.flatMap fun name => items.filter fun a => key a = name).Perm items := by
  induction names with
  | nil =>
      intro items hcover
      have hempty : items = [] := List.eq_nil_iff_forall_not_mem.mpr
        fun a ha => by simpa using hcover a ha
      simp [hempty]
  | cons name names ih =>
      intro items hcover
      obtain ⟨hfresh, hrest⟩ := List.nodup_cons.mp hnodup
      let others := items.filter fun a => !decide (key a = name)
      have hothers : ∀ a ∈ others, key a ∈ names := by
        intro a ha
        obtain ⟨hmem, hne⟩ := List.mem_filter.mp ha
        simpa [show key a ≠ name by simpa using hne] using hcover a hmem
      -- the items of another name are all among those that are not of this one
      have hsame : (names.flatMap fun n => items.filter fun a => key a = n) =
          names.flatMap fun n => others.filter fun a => key a = n := by
        apply List.flatMap_congr
        intro n hn
        rw [List.filter_filter]
        apply List.filter_congr
        intro a _
        by_cases hkey : key a = n
        · have hne : n ≠ name := fun heq => hfresh (heq ▸ hn)
          simp [hkey, hne]
        · simp [hkey]
      rw [List.flatMap_cons, hsame]
      exact ((ih hrest hothers).append_left _).trans
        (List.filter_append_perm (fun a => decide (key a = name)) items)

/-- **Grouping moves items only.**  No item is lost and none is repeated. -/
theorem groupedBy_perm (key : α → String) (items : List α) :
    (groupedBy key items).Perm items :=
  flatMap_filter_perm key (nodup_eraseDups _) fun a ha => by
    simpa using ⟨a, ha, rfl⟩

end AbiBindings
