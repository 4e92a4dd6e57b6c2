import Roze.Context.RetryBudget
import Roze.Library.Execution

/-!
# Retry loops on the contexts of one request

`retry_status_with_policy` ensures that its context has a budget, calls, and consumes one credit
before each retry. The answers of the breaker, of the call, of the process-wide retry registry
and of the deadline and cancellation checks are the environment's. A loop that is dropped takes no
more steps. Any number of loops run on the clones and forks of one context; a clone is the same
context object.
-/

namespace Roze.Rpc

open RetryBudgets

open Roze.Library Option List

inductive CallResult where
  | ok
  | retryable
  | failed
deriving DecidableEq, Repr

/-- Where a loop stands: what it waits for or does next. -/
inductive LoopStage where
  | entered
  | admitted
  | calling
  | retrying
  | scheduled
  | waiting
  | resumed
  | finished
deriving DecidableEq, Repr

/-- One call of `retry_status_with_policy`; `attempt` counts its retries. -/
structure RetryLoop where
  context : Nat
  maxRetries : Nat
  attempt : Nat
  stage : LoopStage
deriving DecidableEq, Repr

inductive LoopMove where
  | breaker (allowed : Bool)
  | ensureBudget
  | respond (result : CallResult)
  | allowRetry (allowed : Bool)
  | checkBeforeBackoff (stopped : Bool)
  | checkAfterBackoff (stopped : Bool)
  | consumeBudget
deriving DecidableEq, Repr

namespace RetryLoop

def enter (context maxRetries : Nat) : RetryLoop := ⟨context, maxRetries, 0, .entered⟩

def proceed (loop : RetryLoop) (going : Bool) (stage : LoopStage) : RetryLoop :=
  { loop with stage := if going then stage else .finished }

def responded (loop : RetryLoop) : CallResult → RetryLoop
  | .retryable => loop.proceed (loop.attempt < loop.maxRetries) .retrying
  | .ok | .failed => loop.proceed false .calling

/-- One step of a loop on the budgets of its request. -/
def step (loop : RetryLoop) (budgets : RetryBudgets) (move : LoopMove) :
    Option (RetryBudgets × RetryLoop) :=
  match loop.stage, move with
  | .entered, .breaker allowed => some (budgets, loop.proceed allowed .admitted)
  | .admitted, .ensureBudget =>
      some (budgets.ensureRetryBudget loop.context loop.maxRetries, loop.proceed true .calling)
  | .calling, .respond result => some (budgets, loop.responded result)
  | .retrying, .allowRetry allowed => some (budgets, loop.proceed allowed .scheduled)
  | .scheduled, .checkBeforeBackoff stopped => some (budgets, loop.proceed (!stopped) .waiting)
  | .waiting, .checkAfterBackoff stopped => some (budgets, loop.proceed (!stopped) .resumed)
  | .resumed, .consumeBudget =>
      let tried := budgets.tryConsumeRetryBudget loop.context
      some (tried.1, { loop with
        attempt := loop.attempt + if tried.2 then 1 else 0
        stage := if tried.2 then .calling else .finished })
  | _, _ => none

/-- The budget that a loop creates when its context has none. -/
def creates (loop : RetryLoop) (budgets : RetryBudgets) : LoopMove → Option Nat
  | .ensureBudget =>
      if budgets.handle loop.context = none
      then some (min loop.maxRetries RetryBudgets.maxPropagated) else none
  | _ => none

end RetryLoop

/-- A request: the budgets of its contexts, and the loops that run on them. -/
structure LoopSystem where
  budgets : RetryBudgets
  loops : List RetryLoop
deriving DecidableEq, Repr

inductive LoopAction where
  | fork (context : Nat)
  | enter (context maxRetries : Nat)
  | move (loop : Nat) (move : LoopMove)
deriving DecidableEq, Repr

namespace LoopSystem

/-- A request that came without a budget. -/
def start : LoopSystem := ⟨.background, []⟩

/-- The retries of all loops. -/
def retries (system : LoopSystem) : Nat :=
  (system.loops.map RetryLoop.attempt).sum

end LoopSystem

/-- Loops and forks on the contexts of a request; the output is the budget that a step creates. -/
def retryLoops : Machine LoopSystem LoopAction (Option Nat) where
  step system
    | .fork context =>
        if context < system.budgets.handles.length
        then some ({ system with budgets := system.budgets.fork context }, none) else none
    | .enter context maxRetries =>
        if context < system.budgets.handles.length
        then some ({ system with loops := system.loops ++ [.enter context maxRetries] }, none)
        else none
    | .move index move =>
        system.loops[index]?.bind (fun loop => (loop.step system.budgets move).map (fun taken =>
          (⟨taken.1, system.loops.set index taken.2⟩, loop.creates system.budgets move)))

/-- The budgets created in a run, in order. -/
def created (events : List (LoopAction × Option Nat)) : List Nat :=
  events.filterMap Prod.snd

/-- A loop that is about to ensure a budget is on a context that has one, or there is none yet. -/
def shares (system : LoopSystem) : LoopAction → Bool
  | .move index .ensureBudget =>
      (system.loops[index]?.bind (fun loop => system.budgets.handle loop.context)).isSome ||
        system.budgets.counters == .empty
  | _ => true

/-- The request has at most one counter. -/
def OneCounter (system : LoopSystem) : Prop := system.budgets.counters.fresh ≤ 1

namespace RetryLoop

/-- The loop has ensured the budget of its context. -/
def Ensured (loop : RetryLoop) : Prop :=
  loop.stage ≠ .entered ∧ loop.stage ≠ .admitted ∧ loop.stage ≠ .finished

variable {loop after : RetryLoop} {budgets next : RetryBudgets} {move : LoopMove}

theorem not_ensured_admitted (loop : RetryLoop) (allowed : Bool) :
    ¬ (loop.proceed allowed .admitted).Ensured := by
  rintro ⟨-, awaits, ends⟩
  cases allowed with
  | false => exact ends rfl
  | true => exact awaits rfl

theorem creates_of_ne (other : move ≠ .ensureBudget) : loop.creates budgets move = none := by
  cases move with
  | ensureBudget => exact absurd rfl other
  | _ => rfl

theorem creates_eq_some {budget : Nat} (made : loop.creates budgets move = some budget) :
    move = .ensureBudget ∧ budgets.handle loop.context = none := by
  cases move with
  | ensureBudget => exact ⟨rfl, (ite_none_right_eq_some.mp made).1⟩
  | _ => cases made

/-- What a step of a loop does: it moves on without a budget, it ensures one, or it consumes. -/
theorem step_cases (taken : loop.step budgets move = some (next, after)) :
    (move ≠ .ensureBudget ∧ next = budgets ∧ after.context = loop.context ∧
        after.attempt = loop.attempt ∧ (after.Ensured → loop.Ensured)) ∨
      (move = .ensureBudget ∧ next = budgets.ensureRetryBudget loop.context loop.maxRetries ∧
        after = loop.proceed true .calling) ∨
      (move ≠ .ensureBudget ∧ loop.Ensured ∧
        next = (budgets.tryConsumeRetryBudget loop.context).1 ∧ after.context = loop.context ∧
        after.attempt =
          loop.attempt + if (budgets.tryConsumeRetryBudget loop.context).2 then 1 else 0) := by
  unfold step at taken
  split at taken
  · rename_i allowed stage
    cases taken
    exact .inl ⟨nofun, rfl, rfl, rfl, fun moved => absurd moved (not_ensured_admitted loop allowed)⟩
  · simp_all
  · rename_i result stage
    cases taken
    refine .inl ⟨nofun, rfl, ?_, ?_, fun _ => by simp [Ensured, stage]⟩
    · cases result <;> rfl
    · cases result <;> rfl
  · rename_i stage
    cases taken
    exact .inl ⟨nofun, rfl, rfl, rfl, fun _ => by simp [Ensured, stage]⟩
  · rename_i stage
    cases taken
    exact .inl ⟨nofun, rfl, rfl, rfl, fun _ => by simp [Ensured, stage]⟩
  · rename_i stage
    cases taken
    exact .inl ⟨nofun, rfl, rfl, rfl, fun _ => by simp [Ensured, stage]⟩
  · rename_i stage
    cases taken
    exact .inr (.inr ⟨nofun, by simp [Ensured, stage], rfl, rfl, rfl⟩)
  · cases taken

/-- The context of the loop is there, and has a budget once the loop has ensured it. -/
structure On (loop : RetryLoop) (budgets : RetryBudgets) : Prop where
  present : loop.context < budgets.handles.length
  ensured : loop.Ensured → (budgets.handle loop.context).isSome

section

variable (on : loop.On budgets)
include on

theorem On.extend (grown : budgets.Extends next) : loop.On next where
  present := on.present.trans_le grown.present
  ensured ensured := grown.named loop.context (on.ensured ensured)

theorem On.extends_step (taken : loop.step budgets move = some (next, after)) :
    budgets.Extends next := by
  rcases step_cases taken with ⟨-, rfl, -⟩ | ⟨-, rfl, -⟩ | ⟨-, -, rfl, -⟩
  · exact .rfl
  · exact extends_ensureRetryBudget on.present
  · exact budgets.extends_tryConsumeRetryBudget loop.context

theorem On.step (taken : loop.step budgets move = some (next, after)) :
    after.On next := by
  have grown := on.extends_step taken
  rcases step_cases taken with ⟨-, -, same, -, kept⟩ | ⟨-, rfl, rfl⟩ | ⟨-, ensured, -, same, -⟩
  · refine ⟨?_, ?_⟩
    · rw [same]
      exact on.present.trans_le grown.present
    · intro moved
      rw [same]
      exact grown.named loop.context (on.ensured (kept moved))
  · refine ⟨on.present.trans_le grown.present, ?_⟩
    intro _
    rw [handle_ensureRetryBudget on.present]
    simp [proceed]
  · refine ⟨?_, ?_⟩
    · rw [same]
      exact on.present.trans_le grown.present
    · intro _
      rw [same]
      exact grown.named loop.context (on.ensured ensured)

/-- Retries are credits taken from counters that some loop created. -/
theorem On.total_step (sound : budgets.Sound) (taken : loop.step budgets move = some (next, after)) :
    next.total + after.attempt =
      budgets.total + loop.attempt + (loop.creates budgets move).getD 0 := by
  rcases step_cases taken with ⟨other, rfl, -, same, -⟩ | ⟨rfl, rfl, rfl⟩ | ⟨other, ensured, rfl, -, used⟩
  · rw [same, creates_of_ne other]
    rfl
  · rw [total_ensureRetryBudget]
    simp only [creates, proceed]
    grind
  · obtain ⟨_, holds⟩ := sound.holds (on.ensured ensured)
    have tried := total_tryConsumeRetryBudget holds
    rw [used, creates_of_ne other]
    simp only [getD_none]
    omega

end

/-- A step creates a counter exactly if it creates a budget. -/
theorem fresh_step (taken : loop.step budgets move = some (next, after)) :
    next.counters.fresh = budgets.counters.fresh + (loop.creates budgets move).toList.length := by
  rcases step_cases taken with ⟨other, rfl, -⟩ | ⟨rfl, rfl, -⟩ | ⟨other, -, rfl, -⟩
  · rw [creates_of_ne other]
    rfl
  · unfold creates ensureRetryBudget
    cases named : budgets.handle loop.context with
    | some => rfl
    | none => simp [Counters.create, Counters.fresh]
  · rw [creates_of_ne other]
    unfold tryConsumeRetryBudget
    split
    · rfl
    · exact Counters.fresh_fetchUpdate _ _ _

end RetryLoop

namespace LoopSystem

/-- Handles lead to counters, and every loop is on a context that is there. -/
structure Valid (system : LoopSystem) : Prop where
  sound : system.budgets.Sound
  on : ∀ loop ∈ system.loops, loop.On system.budgets

variable {system next : LoopSystem} {action : LoopAction} {output : Option Nat}

/-- The steps of the system: a fork, a new loop, or a step of a loop. -/
theorem step_cases (taken : retryLoops.step system action = some (next, output)) :
    (∃ context, action = .fork context ∧ context < system.budgets.handles.length ∧ output = none ∧
        next = { system with budgets := system.budgets.fork context }) ∨
      (∃ context maxRetries, action = .enter context maxRetries ∧
        context < system.budgets.handles.length ∧ output = none ∧
        next = { system with loops := system.loops ++ [.enter context maxRetries] }) ∨
      ∃ index move loop budgets after, action = .move index move ∧
        system.loops[index]? = some loop ∧ loop.step system.budgets move = some (budgets, after) ∧
        output = loop.creates system.budgets move ∧ next = ⟨budgets, system.loops.set index after⟩ := by
  cases action with
  | fork context =>
    obtain ⟨there, built⟩ := ite_none_right_eq_some.mp taken
    simp_all
  | enter context maxRetries =>
    obtain ⟨there, built⟩ := ite_none_right_eq_some.mp taken
    simp_all
  | move index move =>
    obtain ⟨loop, found, moved⟩ := bind_eq_some_iff.mp taken
    obtain ⟨⟨budgets, after⟩, stepped, built⟩ := map_eq_some_iff.mp moved
    grind

theorem start_valid : start.Valid where
  sound := by
    intro context index named
    cases context with
    | zero | succ => cases named
  on := nofun

theorem valid_step (valid : system.Valid)
    (taken : retryLoops.step system action = some (next, output)) : next.Valid := by
  rcases step_cases taken with ⟨context, -, -, -, rfl⟩ | ⟨context, _, -, there, -, rfl⟩ |
    ⟨index, move, loop, budgets, after, -, found, stepped, -, rfl⟩
  · exact ⟨valid.sound.fork context,
      fun loop member => (valid.on loop member).extend (system.budgets.extends_fork context)⟩
  · refine ⟨valid.sound, ?_⟩
    intro loop member
    rcases mem_append.mp member with old | new
    · exact valid.on loop old
    · rw [mem_singleton.mp new]
      exact ⟨there, fun ensured => absurd rfl ensured.1⟩
  · have on := valid.on loop (mem_of_getElem? found)
    constructor
    · rcases RetryLoop.step_cases stepped with ⟨-, rfl, -⟩ | ⟨-, rfl, -⟩ | ⟨-, -, rfl, -⟩
      · exact valid.sound
      · exact valid.sound.ensureRetryBudget on.present
      · exact valid.sound.tryConsumeRetryBudget loop.context
    intro other member
    rcases mem_or_eq_of_mem_set member with old | rfl
    · exact (valid.on other old).extend (on.extends_step stepped)
    · exact on.step stepped

/-- The credits left and the retries change by the budget that the step creates. -/
theorem total_step (valid : system.Valid)
    (taken : retryLoops.step system action = some (next, output)) :
    next.budgets.total + next.retries =
      system.budgets.total + system.retries + output.getD 0 := by
  rcases step_cases taken with ⟨_, -, -, rfl, rfl⟩ | ⟨_, _, -, -, rfl, rfl⟩ |
    ⟨index, move, loop, budgets, after, -, found, stepped, rfl, rfl⟩
  · rfl
  · simp [retries, RetryLoop.enter]
  · have on := valid.on loop (mem_of_getElem? found)
    have balance := on.total_step valid.sound stepped
    have moved := Process.sum_map_set RetryLoop.attempt found after
    simp only [retries]
    omega

/-- All retries of a run were taken from the budgets that it created. -/
theorem total_run {events : List (LoopAction × Option Nat)} (valid : system.Valid)
    (run : retryLoops.Run system events next) :
    next.budgets.total + next.retries =
      system.budgets.total + system.retries + (created events).sum := by
  induction run with
  | done => rfl
  | @step system middle final action output events taken rest ih =>
    have first := total_step valid taken
    have later := ih (valid_step valid taken)
    cases output with
    | none =>
      simp only [created, filterMap_cons, getD_none] at first later ⊢
      omega
    | some =>
      simp only [created, filterMap_cons, sum_cons, getD_some] at first later ⊢
      omega

theorem fresh_step (taken : retryLoops.step system action = some (next, output)) :
    next.budgets.counters.fresh = system.budgets.counters.fresh + output.toList.length := by
  rcases step_cases taken with ⟨_, -, -, rfl, rfl⟩ | ⟨_, _, -, -, rfl, rfl⟩ |
    ⟨index, move, loop, budgets, after, -, -, stepped, rfl, rfl⟩
  · rfl
  · rfl
  · exact RetryLoop.fresh_step stepped

/-- A run has created as many budgets as there are new counters. -/
theorem fresh_run {events : List (LoopAction × Option Nat)}
    (run : retryLoops.Run system events next) :
    next.budgets.counters.fresh = system.budgets.counters.fresh + (created events).length := by
  induction run with
  | done => rfl
  | @step system middle final action output events taken rest ih =>
    have first := fresh_step taken
    cases output with
    | none =>
      simp only [created, filterMap_cons, toList_none, length_nil] at *
      omega
    | some =>
      simp only [created, filterMap_cons, toList_some, length_cons,
        length_nil] at *
      omega

/-- A step that shares keeps the request at one counter: only the first loop creates one. -/
theorem oneCounter_step (one : OneCounter system) (shared : shares system action = true)
    (taken : retryLoops.step system action = some (next, output)) : OneCounter next := by
  have grown := fresh_step taken
  rcases step_cases taken with ⟨_, -, -, rfl, rfl⟩ | ⟨_, _, -, -, rfl, rfl⟩ |
    ⟨index, move, loop, budgets, after, rfl, found, -, rfl, rfl⟩
  · exact one
  · exact one
  · cases made : loop.creates system.budgets move with
    | none =>
      rw [made] at grown
      exact grown.trans_le one
    | some =>
      obtain ⟨rfl, unnamed⟩ := RetryLoop.creates_eq_some made
      simp only [shares, found, bind_some, unnamed, isSome_none, Bool.false_or,
        beq_iff_eq] at shared
      have none : system.budgets.counters.fresh = 0 := by
        rw [shared]
        rfl
      rw [made, none] at grown
      exact grown.le

end LoopSystem

open LoopSystem

/-- All retries of all loops on the clones and forks of a context that came without a budget are
at most the budget that the first of them created, when every loop either starts on a context
that has a budget or is the first. -/
theorem retries_bounded_of_shared {final : LoopSystem} {events : List (LoopAction × Option Nat)}
    (run : retryLoops.Run .start events final)
    (shared : retryLoops.Along (fun system action _ _ => shares system action = true) .start
      events) :
    final.retries ≤ (created events).headD 0 := by
  have first : OneCounter .start := Nat.zero_le 1
  have one : OneCounter final := run.invariant_along shared first
    (fun system action output next one taken shares => oneCounter_step one shares taken)
  have counted := fresh_run run
  have spent := total_run start_valid run
  have nothing : start.budgets.total + start.retries = 0 := rfl
  match budgets : created events with
  | [] =>
    rw [budgets] at spent
    simp only [sum_nil, headD_nil] at spent ⊢
    omega
  | [budget] =>
    rw [budgets] at spent
    simp only [sum_singleton, headD_cons] at spent ⊢
    omega
  | _ :: _ :: _ =>
    rw [budgets] at counted
    simp only [OneCounter, length_cons] at one counted
    omega

namespace RetriedOnce

/-- A loop whose call fails and that retries once. -/
def retried (loop : Nat) : List LoopAction :=
  [.breaker true, .ensureBudget, .respond .retryable, .allowRetry true, .checkBeforeBackoff false,
    .checkAfterBackoff false, .consumeBudget].map (.move loop)

/-- The context is forked before its first loop. -/
def forkedBefore : List LoopAction :=
  [.fork 0, .enter 0 1, .enter 1 1] ++ retried 0 ++ retried 1

/-- The context is forked once its budget is there. -/
def forkedAfter : List LoopAction :=
  [.enter 0 1, .move 0 (.breaker true), .move 0 .ensureBudget, .fork 0, .enter 1 1] ++ retried 1

end RetriedOnce

open RetriedOnce in
/-- Two loops with one retry each, on a context and on its fork from before the first loop: the
first budget is one, and there are two retries. -/
theorem fork_without_budget_retries_again :
    ∃ events final, retryLoops.Run .start events final ∧ events.map Prod.fst = forkedBefore ∧
      created events = [1, 1] ∧ final.retries = 2 := by
  have checked : (retryLoops.exec .start forkedBefore).map
      (fun result => (created result.2, result.1.retries)) = some ([1, 1], 2) := by decide
  obtain ⟨events, final, run, actions, facts⟩ := Machine.exec_observed checked
  exact ⟨events, final, run, actions, Prod.mk.inj facts⟩

open RetriedOnce in
/-- On a fork from after the first loop, the retry uses the budget of that loop. -/
theorem retries_bounded_of_shared_fork :
    ∃ events final, retryLoops.Run .start events final ∧ events.map Prod.fst = forkedAfter ∧
      created events = [1] ∧ final.retries = 1 ∧ final.retries ≤ (created events).headD 0 := by
  have checked : (retryLoops.exec .start forkedAfter).map
      (fun result => (created result.2, result.1.retries)) = some ([1], 1) := by decide
  obtain ⟨⟨final, events⟩, executed, facts⟩ := map_eq_some_iff.mp checked
  have run := Machine.exec_run executed
  have shared : retryLoops.Along (fun system action _ _ => shares system action = true) .start
      events := Machine.along_of_checks executed (by decide)
  simp only [Prod.mk.injEq] at facts
  exact ⟨events, final, run, Machine.exec_actions executed, facts.1, facts.2,
    retries_bounded_of_shared run shared⟩

end Roze.Rpc
