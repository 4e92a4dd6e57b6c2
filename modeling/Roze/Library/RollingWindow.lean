import Mathlib

/-!
# Entries of a rolling window

A window keeps entries by the time at which they start, oldest first. Entries that
start at least one width apart cannot be many inside a bounded span, whatever cuts
the window at its old end. Removing expired entries from the front removes all of
them, because whatever precedes an expired entry has expired too.
-/

namespace Roze.Library

universe u

variable {Entry : Type u}

/-- Every entry starts at least one width after each entry before it. -/
def Spaced (start : Entry → Nat) (width : Nat) (entries : List Entry) : Prop :=
  entries.Pairwise (fun earlier later => start earlier + width ≤ start later)

variable {start : Entry → Nat} {width : Nat} {entries : List Entry}

/-- The first of several spaced entries starts as many widths before now as there are
entries after it. -/
theorem Spaced.first_le {entry : Entry} (spaced : Spaced start width (entry :: entries))
    {now : Nat} (past : ∀ other ∈ entry :: entries, start other ≤ now) :
    start entry + entries.length * width ≤ now := by
  induction entries generalizing entry with
  | nil => simpa using past entry
  | cons next rest ih =>
    obtain ⟨after, remaining⟩ := List.pairwise_cons.mp spaced
    have gap : start entry + width ≤ start next := after next List.mem_cons_self
    have later : start next + rest.length * width ≤ now :=
      ih remaining fun other member => past other (List.mem_cons_of_mem _ member)
    rw [List.length_cons, Nat.add_mul, Nat.one_mul]
    omega

/-- Spaced entries younger than a span are no more than the widths that fit into it. -/
theorem Spaced.length_le (spaced : Spaced start width entries) {now span limit : Nat}
    (past : ∀ entry ∈ entries, start entry ≤ now)
    (young : ∀ entry ∈ entries, now - start entry < span) (fits : span ≤ limit * width) :
    entries.length ≤ limit := by
  cases entries with
  | nil => exact Nat.zero_le limit
  | cons entry rest =>
    have reach := spaced.first_le past
    have age : now - start entry < span := young entry List.mem_cons_self
    have inside : rest.length * width < limit * width := by omega
    exact Nat.lt_of_mul_lt_mul_right inside

/-- When everything before an expired entry has expired, dropping expired entries from
the front keeps exactly the others. -/
theorem dropWhile_eq_filter {expired : Entry → Bool}
    (closed : entries.Pairwise (fun earlier later => expired later = true → expired earlier = true)) :
    entries.dropWhile expired = entries.filter (fun entry => !expired entry) := by
  induction entries with
  | nil => rfl
  | cons entry rest ih =>
    obtain ⟨before, remaining⟩ := List.pairwise_cons.mp closed
    cases gone : expired entry with
    | true => simpa [gone] using ih remaining
    | false =>
      have kept : ∀ other ∈ rest, (!expired other) = true := by simp_all
      simp [gone, List.filter_eq_self.mpr kept]

end Roze.Library
