import Mathlib
import Roze.Library.ProcessPool

/-!
# Counters behind shared handles

A counter is created once, is named by its number from then on and is changed by atomic updates
through any of its handles. A counter whose last handle is gone is released: what it held is out
of reach. The total counts what the counters in reach hold.
-/

namespace Roze.Library

/-- An atomic counter, and whether a handle to it is left. -/
structure Counter where
  value : Nat
  held : Bool
deriving DecidableEq, Repr

namespace Counter

/-- What can still be taken from the counter. -/
def credits (counter : Counter) : Nat :=
  if counter.held then counter.value else 0

theorem credits_of_held {counter : Counter} (held : counter.held = true) :
    counter.credits = counter.value :=
  if_pos held

end Counter

/-- Counters by their numbers. -/
structure Counters where
  cells : List Counter
deriving DecidableEq, Repr

namespace Counters

def empty : Counters := ⟨[]⟩

/-- The number that the next counter will have. -/
def fresh (counters : Counters) : Nat := counters.cells.length

def create (counters : Counters) (value : Nat) : Counters :=
  ⟨counters.cells ++ [⟨value, true⟩]⟩

/-- Change a value in one atomic step, if the change applies to it; the old value is returned. -/
def fetchUpdate (counters : Counters) (index : Nat) (change : Nat → Option Nat) :
    Counters × Option Nat :=
  match counters.cells[index]? with
  | none => (counters, none)
  | some counter =>
      match change counter.value with
      | none => (counters, none)
      | some value =>
          (⟨counters.cells.set index { counter with value := value }⟩, some counter.value)

/-- The last handle of a counter is gone. -/
def release (counters : Counters) (index : Nat) : Counters :=
  match counters.cells[index]? with
  | none => counters
  | some counter => ⟨counters.cells.set index { counter with held := false }⟩

/-- What all counters in reach hold. -/
def total (counters : Counters) : Nat :=
  (counters.cells.map Counter.credits).sum

theorem total_create (counters : Counters) (value : Nat) :
    (counters.create value).total = counters.total + value := by
  simp [create, total, Counter.credits]

variable {counters : Counters} {index : Nat} {counter : Counter}

theorem fetchUpdate_of_some (change : Nat → Option Nat) {value : Nat}
    (found : counters.cells[index]? = some counter) (changed : change counter.value = some value) :
    counters.fetchUpdate index change =
      (⟨counters.cells.set index { counter with value := value }⟩, some counter.value) := by
  simp only [fetchUpdate, found, changed]

theorem fresh_fetchUpdate (counters : Counters) (index : Nat) (change : Nat → Option Nat) :
    (counters.fetchUpdate index change).1.fresh = counters.fresh := by
  unfold fetchUpdate
  split
  · rfl
  · split
    · rfl
    · simp [fresh]

/-- A counter that is there and in reach. -/
def Held (counters : Counters) (index : Nat) : Prop :=
  ∃ value, counters.cells[index]? = some ⟨value, true⟩

theorem Held.create (held : counters.Held index) (value : Nat) :
    (counters.create value).Held index := by
  obtain ⟨current, found⟩ := held
  have below : index < counters.cells.length := (List.getElem?_eq_some_iff.mp found).1
  exact ⟨current, (List.getElem?_append_left below).trans found⟩

/-- An update keeps all counters in reach. -/
theorem Held.fetchUpdate (held : counters.Held index) (other : Nat) (change : Nat → Option Nat) :
    (counters.fetchUpdate other change).1.Held index := by
  obtain ⟨current, found⟩ := held
  unfold Counters.fetchUpdate
  split
  · exact ⟨current, found⟩
  · rename_i cell
    split
    · exact ⟨current, found⟩
    · rename_i value changed
      by_cases same : other = index
      · subst same
        have below : other < counters.cells.length := (List.getElem?_eq_some_iff.mp found).1
        rw [found] at cell
        cases cell
        exact ⟨value, List.getElem?_set_self below⟩
      · exact ⟨current, (List.getElem?_set_ne same).trans found⟩

/-- An update changes the total by what it changes its counter. -/
theorem total_update (found : counters.cells[index]? = some counter) (held : counter.held = true)
    (value : Nat) :
    total ⟨counters.cells.set index { counter with value := value }⟩ + counter.value =
      counters.total + value := by
  have moved := Process.sum_map_set Counter.credits found { counter with value := value }
  rw [Counter.credits_of_held held] at moved
  have new : Counter.credits { counter with value := value } = value := Counter.credits_of_held held
  rw [new] at moved
  exact moved

/-- A release takes what the counter held out of the total. -/
theorem total_release (found : counters.cells[index]? = some counter)
    (held : counter.held = true) :
    (counters.release index).total + counter.value = counters.total := by
  have moved := Process.sum_map_set Counter.credits found { counter with held := false }
  rw [Counter.credits_of_held held] at moved
  rw [release, found]
  exact moved

end Counters

end Roze.Library
