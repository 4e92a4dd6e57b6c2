import Roze.Library.Clock
import Roze.Library.Execution
import Roze.Library.MachineInteger

/-!
# Retry budgets of operations

For each operation the calls and the retries of a window are counted. A retry is granted as long as the
retries stay below a percentage of the calls; one is always granted. The first call or retry behind the
end of the window begins the next one.
-/

namespace Roze.Resilience

open Roze.Library

structure RetryBudgetState where
  windowStart : Instant
  calls : UInt64
  retries : UInt64
deriving DecidableEq

structure RetryBudgetRegistry where
  states : String → Option RetryBudgetState
  window : Duration

inductive BudgetAction where
  | recordCall (key : String) (now : Instant)
  | allowRetry (key : String) (budgetPercent : Option UInt32) (now : Instant)
deriving DecidableEq

open BudgetAction

namespace RetryBudgetRegistry

def new (window : Duration) : RetryBudgetRegistry := ⟨fun _ => none, window⟩

variable (registry : RetryBudgetRegistry) (key : String) (now : Instant)

def resetRetryBudgetWindow (state : RetryBudgetState) : RetryBudgetState :=
  if registry.window < now.durationSince state.windowStart then ⟨now, 0, 0⟩ else state

/-- The state of a key, which has some calls if it is new, in the window of now. -/
def entry (calls : UInt64) : RetryBudgetState :=
  registry.resetRetryBudgetWindow now ((registry.states key).getD ⟨now, calls, 0⟩)

def store (state : RetryBudgetState) : RetryBudgetRegistry :=
  { registry with states := Function.update registry.states key (some state) }

def recordCall : RetryBudgetRegistry :=
  let state := registry.entry key now 0
  registry.store key { state with calls := saturatingAddU64 state.calls 1 }

/-- The retries that a number of calls allows. -/
def allowance (calls : UInt64) (budgetPercent : UInt32) : UInt64 :=
  max (saturatingMulU64 calls (min budgetPercent 100).toUInt64 / 100) 1

def allowRetry (budgetPercent : Option UInt32) : RetryBudgetRegistry × Bool :=
  match budgetPercent with
  | none => (registry, true)
  | some budgetPercent =>
      let state := registry.entry key now 1
      if state.retries < allowance state.calls budgetPercent then
        (registry.store key { state with retries := saturatingAddU64 state.retries 1 }, true)
      else (registry.store key state, false)

end RetryBudgetRegistry

/-- Calls and retries of any operations; a step tells whether it grants a retry. -/
def retryBudgets : Machine RetryBudgetRegistry BudgetAction Bool where
  step registry
    | .recordCall key now => some (registry.recordCall key now, false)
    | .allowRetry key budgetPercent now => some (registry.allowRetry key now budgetPercent)

/-- The time of an action that uses the state of a key. -/
def BudgetAction.uses (key : String) : BudgetAction → Option Instant
  | .recordCall other now => if other = key then some now else none
  | .allowRetry other budgetPercent now => if other = key && budgetPercent.isSome then some now else none

/-- An action begins a window of a key: the key is new, or the window before is over. -/
def BudgetAction.opens (key : String) (registry : RetryBudgetRegistry) (action : BudgetAction) : Bool :=
  (action.uses key).any (fun now => (registry.states key).all (fun state =>
    registry.window < now.durationSince state.windowStart))

/-- The retries of a key that were granted. -/
def granted (key : String) (events : List (BudgetAction × Bool)) : Nat :=
  events.countP (fun event => (event.1.uses key).isSome && event.2)

def BudgetAction.records (key : String) : BudgetAction → Bool
  | .recordCall other _ => other = key
  | .allowRetry _ _ _ => false

/-- The calls of a key that were recorded. -/
def recorded (key : String) (events : List (BudgetAction × Bool)) : Nat :=
  events.countP (fun event => event.1.records key)

/-- The call that is assumed of a key that is not known when it is to be retried. -/
def BudgetAction.assumed (key : String) (registry : RetryBudgetRegistry) : BudgetAction → Nat
  | .recordCall _ _ => 0
  | .allowRetry _ _ _ => if (registry.states key).isNone then 1 else 0

namespace RetryBudgetRegistry

def callsOf (registry : RetryBudgetRegistry) (key : String) : Nat :=
  (registry.states key).elim 0 (fun state => state.calls.toNat)

def retriesOf (registry : RetryBudgetRegistry) (key : String) : Nat :=
  (registry.states key).elim 0 (fun state => state.retries.toNat)

variable {registry : RetryBudgetRegistry} {key : String}

theorem callsOf_le (registry : RetryBudgetRegistry) (key : String) :
    registry.callsOf key ≤ 2 ^ 64 - 1 := by
  unfold callsOf
  cases registry.states key with
  | none => exact Nat.zero_le _
  | some state => exact Nat.le_sub_one_of_lt state.calls.toNat_lt

theorem entry_counts (now : Instant) (calls : UInt64) :
    let fresh := (registry.states key).all (fun state =>
      registry.window < now.durationSince state.windowStart)
    (registry.entry key now calls).calls.toNat = (if fresh then
        if (registry.states key).isNone then calls.toNat else 0 else registry.callsOf key) ∧
      (registry.entry key now calls).retries.toNat = if fresh then 0 else registry.retriesOf key := by
  unfold entry callsOf retriesOf resetRetryBudgetWindow
  cases registry.states key with
  | none =>
    have begun : ¬ registry.window < now.durationSince now := by
      change ¬ registry.window.nanos < now.nanos - now.nanos
      omega
    simp [begun]
  | some =>
    simp only [Option.getD_some, Option.all_some, decide_eq_true_eq, Option.elim_some]
    split <;> exact ⟨rfl, rfl⟩

theorem toNat_allowance_le (calls : UInt64) (budgetPercent : UInt32) :
    (allowance calls budgetPercent).toNat ≤
      max 1 (calls.toNat * min budgetPercent.toNat 100 / 100) := by
  have percent : (min budgetPercent 100).toUInt64.toNat = min budgetPercent.toNat 100 := by
    change (if budgetPercent ≤ 100 then budgetPercent else 100).toNat = _
    split
    · rename_i below
      exact (Nat.min_eq_left (UInt32.le_iff_toNat_le.mp below)).symm
    · rename_i above
      exact (Nat.min_eq_right (Nat.le_of_not_le (UInt32.le_iff_toNat_le.not.mp above))).symm
  rw [allowance, UInt64.toNat_max, UInt64.toNat_div, saturatingMulU64_toNat, percent, max_comm]
  grind

theorem states_store (state : RetryBudgetState) (other : String) :
    (registry.store other state).states key =
      if key = other then some state else registry.states key :=
  Function.update_apply _ _ _ _

/-- A count below a 64-bit number is counted up. -/
theorem toNat_countUp {count limit : UInt64} (below : count < limit) :
    (saturatingAddU64 count 1).toNat = count.toNat + 1 := by
  have room := UInt64.lt_iff_toNat_lt.mp below
  have bound := limit.toNat_lt
  rw [saturatingAddU64_toNat]
  grind

variable {next : RetryBudgetRegistry} {action : BudgetAction} {output : Bool}

/-- The calls and retries of a key whose state has been stored. -/
theorem counts_store (state : RetryBudgetState) :
    (registry.store key state).callsOf key = state.calls.toNat ∧
      (registry.store key state).retriesOf key = state.retries.toNat := by
  simp [callsOf, retriesOf, states_store]

/-- A granted retry is counted, and no call. -/
theorem counts_allowRetry (now : Instant) (budgetPercent : UInt32) :
    let allowed := registry.allowRetry key now (some budgetPercent)
    allowed.1.callsOf key = (registry.entry key now 1).calls.toNat ∧
      allowed.1.retriesOf key = (registry.entry key now 1).retries.toNat + allowed.2.toNat := by
  simp only [allowRetry]
  split
  · rename_i below
    simp [counts_store, toNat_countUp below]
  · simp [counts_store]

/-- A step that does not use a key leaves its state. -/
theorem states_of_unused (unused : action.uses key = none)
    (taken : retryBudgets.step registry action = some (next, output)) :
    next.states key = registry.states key := by
  cases action with
  | recordCall other =>
    have different : key ≠ other := fun same => by simp [uses, same] at unused
    cases taken
    simp [recordCall, states_store, different]
  | allowRetry other budgetPercent =>
    replace taken := Option.some.inj taken
    cases budgetPercent with
    | none =>
      cases taken
      rfl
    | some =>
      have different : key ≠ other := fun same => by simp [uses, same] at unused
      simp only [allowRetry] at taken
      split at taken <;> cases taken <;> simp [states_store, different]

/-- A step counts the call that it records, up to the largest number, and the retry that it grants.
In a window that it begins it counts from zero, or from the call that it assumes. -/
theorem counts_step (taken : retryBudgets.step registry action = some (next, output)) :
    next.callsOf key = min ((if action.opens key registry then action.assumed key registry
        else registry.callsOf key) + recorded key [(action, output)]) (2 ^ 64 - 1) ∧
      next.retriesOf key = (if action.opens key registry then 0 else registry.retriesOf key) +
        granted key [(action, output)] := by
  have bound := registry.callsOf_le key
  cases used : action.uses key with
  | none =>
    have same := states_of_unused used taken
    have silent : action.records key = false := by
      cases action <;> simp_all [uses, records]
    simpa [callsOf, retriesOf, same, opens, granted, recorded, used, silent] using bound
  | some now =>
    cases action with
    | recordCall other time =>
      obtain ⟨rfl, rfl⟩ : other = key ∧ time = now := by simpa [uses] using used
      cases taken
      obtain ⟨calls, retries⟩ := @entry_counts registry other time 0
      simp only [recordCall, counts_store, saturatingAddU64_toNat, calls, retries]
      simp [opens, uses, assumed, recorded, records, granted]
    | allowRetry other budgetPercent time =>
      obtain ⟨budgetPercent, rfl⟩ : ∃ percent, budgetPercent = some percent := by
        cases budgetPercent <;> simp_all [uses]
      obtain ⟨rfl, rfl⟩ : other = key ∧ time = now := by simpa [uses] using used
      replace taken := Option.some.inj taken
      obtain ⟨calls, retries⟩ := @entry_counts registry other time 1
      have counts := @counts_allowRetry registry other time budgetPercent
      rw [taken, calls, retries] at counts
      rw [counts.1, counts.2]
      have begins : (BudgetAction.allowRetry other (some budgetPercent) time).opens other registry =
          (registry.states other).all (fun state =>
            registry.window < time.durationSince state.windowStart) := by
        simp [opens, uses]
      have unrecorded :
          recorded other [(BudgetAction.allowRetry other (some budgetPercent) time, output)] = 0 := rfl
      rw [begins, unrecorded, assumed]
      refine ⟨?_, ?_⟩
      · grind
      · cases output <;> simp [uses, granted]

/-- A retry that is granted stays within the allowance of its window. -/
theorem retriesOf_granted {budgetPercent : UInt32} {now : Instant}
    (taken : registry.allowRetry key now (some budgetPercent) = (next, true)) :
    next.retriesOf key ≤ max 1 (next.callsOf key * min budgetPercent.toNat 100 / 100) := by
  simp only [allowRetry] at taken
  split at taken
  · rename_i below
    cases taken
    simp only [retriesOf, callsOf, states_store, if_true, Option.elim_some, toNat_countUp below]
    exact (UInt64.lt_iff_toNat_lt.mp below).trans_le (toNat_allowance_le _ _)
  · cases taken

theorem granted_cons (event : BudgetAction × Bool) (events : List (BudgetAction × Bool)) :
    granted key (event :: events) = granted key [event] + granted key events := by
  rw [← List.singleton_append]
  exact List.countP_append

theorem recorded_cons (event : BudgetAction × Bool) (events : List (BudgetAction × Bool)) :
    recorded key (event :: events) = recorded key [event] + recorded key events := by
  rw [← List.singleton_append]
  exact List.countP_append

/-- No step along the events begins another window of the key. -/
def OneWindow (key : String) (registry : RetryBudgetRegistry) (events : List (BudgetAction × Bool)) :
    Prop :=
  retryBudgets.Along (fun registry action _ _ => action.opens key registry = false) registry events

/-- In one window the calls that are recorded and the retries that are granted are counted.

Proof: by induction on the run; no step of it begins another window. -/
theorem counts_run {events : List (BudgetAction × Bool)} (run : retryBudgets.Run registry events next)
    (within : registry.OneWindow key events) :
    next.callsOf key = min (registry.callsOf key + recorded key events) (2 ^ 64 - 1) ∧
      next.retriesOf key = registry.retriesOf key + granted key events := by
  induction run with
  | done registry => exact ⟨(Nat.min_eq_left (registry.callsOf_le key)).symm, rfl⟩
  | @step registry middle final action output events taken rest ih =>
    obtain ⟨stays, later⟩ := (Machine.along_cons_iff taken).mp within
    obtain ⟨calls, retries⟩ := @counts_step registry key middle action output taken
    simp only [stays, Bool.false_eq_true, if_false] at calls retries
    obtain ⟨callsLater, retriesLater⟩ := ih later
    rw [callsLater, retriesLater, calls, retries, granted_cons _ events, recorded_cons _ events]
    omega

/-- The calls that a window counts: those that are recorded in it, and the one that its first action
assumes. -/
def windowCalls (key : String) (registry : RetryBudgetRegistry) (action : BudgetAction)
    (events : List (BudgetAction × Bool)) : Nat :=
  action.assumed key registry + recorded key events

end RetryBudgetRegistry

open RetryBudgetRegistry

/-- A window of a key has a first step, which begins it, and steps that begin no other. Up to each
retry that is granted in it, the retries granted in the window are at most one, or at most the
percentage of the calls of the window, and these are the calls that the registry counts. A step that
begins a window counts from zero. -/
theorem retry_budget_bounded (key : String) (registry : RetryBudgetRegistry) :
    (∀ action output opened events state budgetPercent now final,
      action.opens key registry = true →
      retryBudgets.step registry action = some (opened, output) →
      retryBudgets.Run opened events state → opened.OneWindow key events →
      (BudgetAction.allowRetry key (some budgetPercent) now).opens key state = false →
      state.allowRetry key now (some budgetPercent) = (final, true) →
      final.callsOf key =
          min (windowCalls key registry action ((action, output) :: events)) (2 ^ 64 - 1) ∧
        granted key ((action, output) :: events) + 1 ≤
          max 1 (windowCalls key registry action ((action, output) :: events) *
            min budgetPercent.toNat 100 / 100)) ∧
    ∀ action output next, action.opens key registry = true →
      retryBudgets.step registry action = some (next, output) →
      next.retriesOf key = granted key [(action, output)] := by
  constructor
  · intro action output opened events state budgetPercent now final opens begun run within stays taken
    obtain ⟨firstCalls, firstRetries⟩ := @counts_step registry key opened action output begun
    obtain ⟨calls, retries⟩ := counts_run run within
    obtain ⟨lastCalls, lastRetries⟩ := @counts_step state key final
      (.allowRetry key (some budgetPercent) now) true (congrArg some taken)
    have one : granted key [(.allowRetry key (some budgetPercent) now, true)] = 1 := by
      simp [granted, uses]
    have no : recorded key [(.allowRetry key (some budgetPercent) now, true)] = 0 := rfl
    simp only [opens, if_true] at firstCalls firstRetries
    simp only [stays, one, no, Bool.false_eq_true, if_false] at lastCalls lastRetries
    have counted : final.callsOf key =
        min (windowCalls key registry action ((action, output) :: events)) (2 ^ 64 - 1) := by
      rw [windowCalls, recorded_cons]
      omega
    refine ⟨counted, ?_⟩
    have bound : final.retriesOf key ≤
        max 1 (windowCalls key registry action ((action, output) :: events) *
          min budgetPercent.toNat 100 / 100) := by
      refine (retriesOf_granted taken).trans (max_le_max_left _ (Nat.div_le_div_right ?_))
      exact Nat.mul_le_mul_right _ (counted.trans_le (min_le_left _ _))
    rw [granted_cons]
    omega
  · intro action output next opens taken
    rw [(counts_step taken).2, opens, if_pos rfl, Nat.zero_add]

/-- Four calls and half of them: the second retry is granted, and no other. -/
theorem retry_budget_bounded_two_retries :
    ∃ opened events state final,
      (RetryBudgetRegistry.new .second).recordCall "catalog:GetUser" .zero = opened ∧
      retryBudgets.Run opened events state ∧
      events = [(.recordCall "catalog:GetUser" .zero, false), (.recordCall "catalog:GetUser" .zero, false),
        (.recordCall "catalog:GetUser" .zero, false),
        (.allowRetry "catalog:GetUser" (some 50) .zero, true)] ∧
      state.allowRetry "catalog:GetUser" .zero (some 50) = (final, true) ∧
      (final.allowRetry "catalog:GetUser" .zero (some 50)).2 = false ∧
      final.callsOf "catalog:GetUser" = 4 ∧ 1 + 1 ≤ max 1 (4 * 50 / 100) := by
  let key := "catalog:GetUser"
  let opened := (RetryBudgetRegistry.new .second).recordCall key .zero
  have evaluated : (retryBudgets.exec opened [.recordCall key .zero, .recordCall key .zero,
      .recordCall key .zero, .allowRetry key (some 50) .zero]).map (fun run =>
        (run.2, (BudgetAction.allowRetry key (some 50) .zero).opens key run.1,
          (run.1.allowRetry key .zero (some 50)).2,
          ((run.1.allowRetry key .zero (some 50)).1.allowRetry key .zero (some 50)).2)) =
      some ([(.recordCall key .zero, false), (.recordCall key .zero, false),
        (.recordCall key .zero, false), (.allowRetry key (some 50) .zero, true)], false, true, false) := by
    decide +kernel
  obtain ⟨⟨state, events⟩, executed, same⟩ := Option.map_eq_some_iff.mp evaluated
  simp only [Prod.mk.injEq] at same
  obtain ⟨rfl, stays, allowed, refused⟩ := same
  have run := Machine.exec_run executed
  have within : opened.OneWindow key _ := Machine.along_of_checks executed (by decide +kernel)
  have bounded := (retry_budget_bounded key (.new .second)).1 (.recordCall key .zero) false opened _
    state 50 .zero _ (by decide +kernel) rfl run within stays (Prod.ext rfl allowed)
  exact ⟨opened, _, state, _, rfl, run, rfl, Prod.ext rfl allowed, refused, bounded⟩

end Roze.Resilience
