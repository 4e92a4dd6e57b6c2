import Roze.Library.SharedCounters

/-!
# The retry budget of a context

A context object has a handle to an atomic counter of retries, or none yet. Clones are one
object; a fork is a new object that copies the handle that is there at the time. The operations
follow the ones of `Context`: each is one lock of the handle and at most one atomic update.
-/

namespace Roze

open Roze.Library

/-- The counters of a request, and the handles of its context objects by their numbers. -/
structure RetryBudgets where
  counters : Counters
  handles : List (Option Nat)
deriving DecidableEq, Repr

namespace RetryBudgets

/-- The largest budget. -/
def maxPropagated : Nat := 64

/-- No counters and no contexts. -/
def empty : RetryBudgets := ⟨.empty, []⟩

/-- One context object without a budget. -/
def background : RetryBudgets := ⟨.empty, [none]⟩

/-- The counter of a context. -/
def handle (budgets : RetryBudgets) (context : Nat) : Option Nat :=
  budgets.handles[context]?.join

/-- One more context on the same counter. -/
def fork (budgets : RetryBudgets) (context : Nat) : RetryBudgets :=
  { budgets with handles := budgets.handles ++ [budgets.handle context] }

/-- A fork with a counter of its own; it does not matter what is forked. -/
def withRetryBudget (budgets : RetryBudgets) (remaining : Nat) : RetryBudgets where
  counters := budgets.counters.create (min remaining maxPropagated)
  handles := budgets.handles ++ [some budgets.counters.fresh]

/-- A counter for a context that has none. -/
def ensureRetryBudget (budgets : RetryBudgets) (context remaining : Nat) : RetryBudgets :=
  match budgets.handle context with
  | some _ => budgets
  | none =>
      { counters := budgets.counters.create (min remaining maxPropagated)
        handles := budgets.handles.set context (some budgets.counters.fresh) }

/-- What a context has left. -/
def retryBudgetRemaining (budgets : RetryBudgets) (context : Nat) : Option Nat :=
  (budgets.handle context).bind (fun index => budgets.counters.cells[index]?.map Counter.value)

/-- One less, if there is one. -/
def checkedPred : Nat → Option Nat
  | 0 => none
  | remaining + 1 => some remaining

/-- What a withdrawal leaves. -/
def withdraw (maximum current : Nat) : Option Nat := some (current - min current maximum)

/-- What a deposit leaves, capped. -/
def deposit (amount current : Nat) : Option Nat := some (min (current + amount) maxPropagated)

/-- A context without a budget may always retry. -/
def tryConsumeRetryBudget (budgets : RetryBudgets) (context : Nat) : RetryBudgets × Bool :=
  match budgets.handle context with
  | none => (budgets, true)
  | some index =>
      let updated := budgets.counters.fetchUpdate index checkedPred
      ({ budgets with counters := updated.1 }, updated.2.isSome)

/-- Take as much as there is, up to a maximum. -/
def takeRetryBudgetUpTo (budgets : RetryBudgets) (context maximum : Nat) : RetryBudgets × Nat :=
  match budgets.handle context with
  | none => (budgets, 0)
  | some index =>
      let updated := budgets.counters.fetchUpdate index (withdraw maximum)
      ({ budgets with counters := updated.1 }, min (updated.2.getD 0) maximum)

/-- Put credits back. -/
def restoreRetryBudget (budgets : RetryBudgets) (context amount : Nat) : RetryBudgets :=
  if amount = 0 then budgets
  else
    match budgets.handle context with
    | some index =>
        { budgets with counters := (budgets.counters.fetchUpdate index (deposit amount)).1 }
    | none => budgets.ensureRetryBudget context amount

/-- All contexts that share a counter are gone. -/
def release (budgets : RetryBudgets) (index : Nat) : RetryBudgets :=
  { budgets with counters := budgets.counters.release index }

/-- What all contexts in use have left. -/
def total (budgets : RetryBudgets) : Nat := budgets.counters.total

/-- The counter of a context in use, with its value. -/
def inUse (budgets : RetryBudgets) (context : Nat) : Option (Nat × Nat) :=
  (budgets.handle context).bind (fun index =>
    match budgets.counters.cells[index]? with
    | some ⟨value, true⟩ => some (index, value)
    | _ => none)

/-- The context is in use and its counter has a value. -/
def Holds (budgets : RetryBudgets) (context value : Nat) : Prop :=
  ∃ index, budgets.handle context = some index ∧
    budgets.counters.cells[index]? = some ⟨value, true⟩

variable {budgets : RetryBudgets} {context value : Nat}

/-- A counter that is in use. -/
theorem inUse_eq_some_iff {index : Nat} :
    budgets.inUse context = some (index, value) ↔
      budgets.handle context = some index ∧
        budgets.counters.cells[index]? = some ⟨value, true⟩ := by
  unfold inUse
  constructor
  · intro used
    obtain ⟨_, named, found⟩ := Option.bind_eq_some_iff.mp used
    grind
  · simp_all

/-- A context in use holds its value. -/
theorem holds_of_inUse {used : Nat × Nat} (found : budgets.inUse context = some used) :
    budgets.Holds context used.2 :=
  ⟨used.1, inUse_eq_some_iff.mp found⟩

/-- A new counter adds its value. -/
theorem total_withRetryBudget (budgets : RetryBudgets) (remaining : Nat) :
    (budgets.withRetryBudget remaining).total = budgets.total + min remaining maxPropagated :=
  Counters.total_create budgets.counters _

section

variable (holds : budgets.Holds context value)
include holds

/-- A retry takes one credit; without one left there is no retry. -/
theorem total_tryConsumeRetryBudget :
    (budgets.tryConsumeRetryBudget context).1.total +
      (if (budgets.tryConsumeRetryBudget context).2 then 1 else 0) = budgets.total := by
  obtain ⟨_, named, found⟩ := holds
  simp only [tryConsumeRetryBudget, named]
  cases value with
  | zero =>
    simp [Counters.fetchUpdate, found, checkedPred, total]
  | succ remaining =>
    rw [Counters.fetchUpdate_of_some checkedPred found rfl]
    have changed := Counters.total_update found rfl remaining
    simp only [Option.isSome_some, if_true, total] at changed ⊢
    omega

/-- What is taken is no longer in the counter. -/
theorem total_takeRetryBudgetUpTo (maximum : Nat) :
    (budgets.takeRetryBudgetUpTo context maximum).1.total +
      (budgets.takeRetryBudgetUpTo context maximum).2 = budgets.total := by
  obtain ⟨_, named, found⟩ := holds
  simp only [takeRetryBudgetUpTo, named]
  rw [Counters.fetchUpdate_of_some (withdraw maximum) found rfl]
  have changed := Counters.total_update found rfl (value - min value maximum)
  simp only [Option.getD_some, total] at changed ⊢
  omega

/-- The cap can only lose credits. -/
theorem total_restoreRetryBudget (amount : Nat) :
    (budgets.restoreRetryBudget context amount).total ≤ budgets.total + amount := by
  obtain ⟨_, named, found⟩ := holds
  unfold restoreRetryBudget
  split
  · exact Nat.le_add_right _ _
  · simp only [named]
    rw [Counters.fetchUpdate_of_some (deposit amount) found rfl]
    have changed := Counters.total_update found rfl (min (value + amount) maxPropagated)
    simp only [total] at changed ⊢
    omega

end

/-- So does one that was missing. -/
theorem total_ensureRetryBudget (budgets : RetryBudgets) (context remaining : Nat) :
    (budgets.ensureRetryBudget context remaining).total =
      budgets.total + if budgets.handle context = none then min remaining maxPropagated else 0 := by
  unfold ensureRetryBudget
  split
  · rename_i named
    simp [named]
  · rename_i unnamed
    rw [if_pos unnamed]
    exact Counters.total_create budgets.counters _

/-- A release takes the value away. -/
theorem total_release {used : Nat × Nat} (found : budgets.inUse context = some used) :
    (budgets.release used.1).total + used.2 = budgets.total :=
  Counters.total_release (inUse_eq_some_iff.mp found).2 rfl

/-! ## Handles -/

/-- Every handle leads to a counter. -/
def Sound (budgets : RetryBudgets) : Prop :=
  ∀ context index, budgets.handle context = some index → budgets.counters.Held index

/-- Every named counter has a value. -/
theorem Sound.holds (sound : budgets.Sound) (named : (budgets.handle context).isSome) :
    ∃ value, budgets.Holds context value := by
  obtain ⟨index, present⟩ := Option.isSome_iff_exists.mp named
  obtain ⟨value, found⟩ := sound context index present
  exact ⟨value, index, present, found⟩

/-- A fork has the handle of the context it was forked from. -/
theorem handle_fork (budgets : RetryBudgets) (origin context : Nat) :
    (budgets.fork origin).handle context =
      if context = budgets.handles.length then budgets.handle origin
      else budgets.handle context := by
  unfold fork handle
  rcases Nat.lt_trichotomy context budgets.handles.length with below | rfl | above
  · grind
  · simp
  · grind

variable {origin remaining : Nat}

/-- A context that is there has a handle once its budget is ensured; the others keep theirs. -/
theorem handle_ensureRetryBudget (there : origin < budgets.handles.length) (context : Nat) :
    (budgets.ensureRetryBudget origin remaining).handle context =
      if context = origin then some ((budgets.handle origin).getD budgets.counters.fresh)
      else budgets.handle context := by
  unfold ensureRetryBudget
  split
  · simp_all
  · rename_i unnamed
    unfold handle at unnamed ⊢
    grind

/-- A retry changes no handle. -/
theorem handle_tryConsumeRetryBudget (budgets : RetryBudgets) (origin context : Nat) :
    (budgets.tryConsumeRetryBudget origin).1.handle context = budgets.handle context := by
  unfold tryConsumeRetryBudget
  split <;> rfl

/-- A fork names a counter that is there. -/
theorem Sound.fork (sound : budgets.Sound) (origin : Nat) : (budgets.fork origin).Sound := by
  intro context index named
  rw [handle_fork] at named
  split at named
  · exact sound origin index named
  · exact sound context index named

/-- So does a context that gets one. -/
theorem Sound.ensureRetryBudget (sound : budgets.Sound) (there : origin < budgets.handles.length) :
    (budgets.ensureRetryBudget origin remaining).Sound := by
  intro context index named
  rw [handle_ensureRetryBudget there] at named
  unfold RetryBudgets.ensureRetryBudget
  split
  · rename_i named'
    split at named
    · rw [named'] at named
      cases named
      exact sound origin _ named'
    · exact sound context index named
  · rename_i unnamed
    split at named
    · rw [unnamed] at named
      cases named
      exact ⟨_, List.getElem?_concat_length⟩
    · exact (sound context index named).create _

/-- A retry keeps all counters. -/
theorem Sound.tryConsumeRetryBudget (sound : budgets.Sound) (origin : Nat) :
    (budgets.tryConsumeRetryBudget origin).1.Sound := by
  intro context index named
  rw [handle_tryConsumeRetryBudget] at named
  have held := sound context index named
  unfold RetryBudgets.tryConsumeRetryBudget
  split
  · exact held
  · exact held.fetchUpdate _ _

/-- No context goes away, and none loses its handle. -/
structure Extends (before after : RetryBudgets) : Prop where
  present : before.handles.length ≤ after.handles.length
  named : ∀ context, (before.handle context).isSome → (after.handle context).isSome

/-- Nothing has changed. -/
theorem Extends.rfl : budgets.Extends budgets := ⟨le_rfl, fun _ named => named⟩

/-- A fork only adds. -/
theorem extends_fork (budgets : RetryBudgets) (origin : Nat) :
    budgets.Extends (budgets.fork origin) where
  present := by simp [fork]
  named := by
    intro context named
    rw [handle_fork]
    split
    · -- the new context had no handle before
      rename_i fresh
      rw [fresh, handle, List.getElem?_eq_none le_rfl] at named
      cases named
    · exact named

/-- A counter is only added. -/
theorem extends_ensureRetryBudget (there : origin < budgets.handles.length) :
    budgets.Extends (budgets.ensureRetryBudget origin remaining) where
  present := by
    unfold ensureRetryBudget
    split
    · exact le_rfl
    · simp
  named := by
    intro context named
    rw [handle_ensureRetryBudget there]
    split
    · rfl
    · exact named

/-- A retry keeps all handles. -/
theorem extends_tryConsumeRetryBudget (budgets : RetryBudgets) (origin : Nat) :
    budgets.Extends (budgets.tryConsumeRetryBudget origin).1 where
  present := by
    unfold tryConsumeRetryBudget
    split <;> exact le_rfl
  named := by
    intro context named
    rw [handle_tryConsumeRetryBudget]
    exact named

end RetryBudgets

end Roze
