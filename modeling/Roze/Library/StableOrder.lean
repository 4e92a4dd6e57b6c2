import Mathlib

/-!
# The first element of a stable order

A stable sort by descending weight keeps the order of elements of equal weight. The first element
with a property in the sorted list is the first one of the greatest weight in the given list.
-/

namespace Roze.Library

open List

universe u

variable {α : Type u} {weight : α → Nat} {wanted : α → Bool}

/-- Sort by descending weight; elements of equal weight stay in their order. -/
def sortDescending (weight : α → Nat) (items : List α) : List α :=
  items.insertionSort (fun first second => weight second ≤ weight first)

variable {items : List α} {item : α}

theorem mem_sortDescending : item ∈ sortDescending weight items ↔ item ∈ items :=
  (perm_insertionSort _ items).mem_iff

/-- Inserting into a sorted list puts an element before those that are not heavier. -/
theorem find?_orderedInsert {found : α}
    (sorted : items.Pairwise (fun first second => weight second ≤ weight first))
    (first : (items.orderedInsert (fun first second => weight second ≤ weight first) item).find? wanted =
      some found) :
    (found = item ∧ ∀ other, items.find? wanted = some other → weight other ≤ weight item) ∨
      (items.find? wanted = some found ∧ (wanted item = true → weight item < weight found)) := by
  induction items with
  | nil => simp_all
  | cons head rest ih =>
    rw [List.orderedInsert] at first
    obtain ⟨below, restSorted⟩ := pairwise_cons.mp sorted
    split at first
    · rename_i before
      rw [find?_cons] at first
      cases holds : wanted item with
      | true =>
        simp only [holds] at first
        cases first
        grind
      | false => simp_all
    · rw [find?_cons] at first ⊢
      cases holds : wanted head with
      | true | false => simp_all

/-- The first element with the property in the sorted list: elements before it in the given list are
lighter, and those after it are not heavier. -/
theorem find?_sortDescending {found : α}
    (first : (sortDescending weight items).find? wanted = some found) :
    ∃ front back, items = front ++ found :: back ∧ wanted found = true ∧
      (∀ other ∈ front, wanted other = true → weight other < weight found) ∧
      ∀ other ∈ back, wanted other = true → weight other ≤ weight found := by
  induction items generalizing found with
  | nil => cases first
  | cons item rest ih =>
    have holds := find?_some first
    rcases find?_orderedInsert (pairwise_insertionSort _ rest) first with
      ⟨rfl, heaviest⟩ | ⟨later, lighter⟩
    · refine ⟨[], rest, rfl, holds, nofun, fun other member kept => ?_⟩
      cases reached : (sortDescending weight rest).find? wanted with
      | none =>
        have missing := find?_eq_none.mp reached other (mem_sortDescending.mpr member)
        exact absurd kept missing
      | some best =>
        obtain ⟨front, back, rfl, -, before, after⟩ := ih reached
        have bound := heaviest best reached
        rcases mem_append.mp member with early | late
        · exact (before other early kept).le.trans bound
        · rcases mem_cons.mp late with rfl | behind
          · exact bound
          · exact (after other behind kept).trans bound
    · obtain ⟨front, back, rfl, -, before, after⟩ := ih later
      refine ⟨item :: front, back, rfl, holds, fun other member kept => ?_, after⟩
      rcases mem_cons.mp member with rfl | early
      · exact lighter kept
      · exact before other early kept

/-- Two places in a list with different items: one is before the other. -/
theorem before_or_after {front back front' back' : List α} {other : α}
    (same : front ++ item :: back = front' ++ other :: back') (different : item ≠ other) :
    (item ∈ front' ∧ other ∈ back) ∨ (item ∈ back' ∧ other ∈ front) := by
  rcases append_eq_append_iff.mp same with ⟨more, whole, left⟩ | ⟨more, whole, left⟩
  · cases more with
    | nil | cons => simp_all
  · cases more with
    | nil | cons => simp_all

end Roze.Library
