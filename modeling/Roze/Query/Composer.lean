import Mathlib
import Roze.Library.Clock

/-!
# Queries to several upstreams

The tasks run in a join set and come back in any order. The outcome of a task goes to the place of
the task; a task that panicked leaves its place empty, and the empty places are dropped before the
outcomes are looked at.

The limit on concurrent calls and the timeouts decide only which of the completions and waits
below occur.
-/

namespace Roze.Query

open Roze.Library List

inductive PartialFailurePolicy where
  | strict
  | allow
deriving DecidableEq

structure QueryCompositionConfig where
  perCallTimeout : Duration
  maxFanout : Nat
  partialFailure : PartialFailurePolicy

inductive QueryFailureKind where
  | timeout
  | upstream
  | cancelled
deriving DecidableEq

structure QueryFailure where
  kind : QueryFailureKind
  message : String
deriving DecidableEq

structure QueryOutcome (Value : Type) where
  name : String
  value : Option Value
  failure : Option QueryFailure
deriving DecidableEq

structure QueryBatch (Value : Type) where
  outcomes : List (QueryOutcome Value)
deriving DecidableEq

inductive QueryCompositionError where
  | fanoutLimit (actual limit : Nat)
  | totalTimeout (completed : Nat)
  | strictFailure (name message : String)
deriving DecidableEq

/-- How a call ends: with the result of its future, by its own timeout, with a semaphore that was
closed, or with a panic. -/
inductive Completion (Value : Type) where
  | value (value : Value)
  | error (message : String)
  | timedOut
  | stopped
  | panicked

structure QueryTask (Value : Type) where
  name : String
  completion : Completion Value

/-- The wait for the tasks: all have been joined, in an order, or the total timeout came first. -/
inductive Wait where
  | finished (order : List Nat)
  | cutOff (order : List Nat)

section Execution

variable {Value : Type}

/-- What the task returns to the join set; nothing when it panicked. -/
def QueryTask.outcome (config : QueryCompositionConfig) (task : QueryTask Value) :
    Option (QueryOutcome Value) :=
  match task.completion with
  | .value value => some ⟨task.name, some value, none⟩
  | .error message => some ⟨task.name, none, some ⟨.upstream, message⟩⟩
  | .timedOut => some ⟨task.name, none, some ⟨.timeout,
      "upstream call exceeded " ++ toString config.perCallTimeout.asMillis ++ " ms"⟩⟩
  | .stopped => some ⟨task.name, none, some ⟨.cancelled, "query composer stopped"⟩⟩
  | .panicked => none

/-- One task is joined. -/
def joinNext (config : QueryCompositionConfig) (tasks : List (QueryTask Value))
    (ordered : List (Option (QueryOutcome Value))) (index : Nat) : List (Option (QueryOutcome Value)) :=
  match tasks[index]?.bind (QueryTask.outcome config) with
  | some outcome => ordered.set index (some outcome)
  | none => ordered

def collect (config : QueryCompositionConfig) (tasks : List (QueryTask Value)) (order : List Nat) :
    List (QueryOutcome Value) :=
  (order.foldl (joinNext config tasks) (List.replicate tasks.length none)).reduceOption

/-- The name and the reason of the first outcome that is a failure. -/
def firstFailure (outcomes : List (QueryOutcome Value)) : Option (String × QueryFailure) :=
  outcomes.findSome? (fun outcome => outcome.failure.map (outcome.name, ·))

def execute (config : QueryCompositionConfig) (tasks : List (QueryTask Value)) (wait : Wait) :
    Except QueryCompositionError (QueryBatch Value) :=
  if config.maxFanout < tasks.length then .error (.fanoutLimit tasks.length config.maxFanout)
  else if tasks.isEmpty then .ok ⟨[]⟩
  else
    match wait with
    | .cutOff order => .error (.totalTimeout order.length)
    | .finished order =>
        let outcomes := collect config tasks order
        if config.partialFailure = .strict then
          match firstFailure outcomes with
          | some (name, failure) => .error (.strictFailure name failure.message)
          | none => .ok ⟨outcomes⟩
        else .ok ⟨outcomes⟩

end Execution

/-! ## The order of the joins -/

section Order

variable {Value : Type} {config : QueryCompositionConfig} {tasks : List (QueryTask Value)}

theorem joinNext_getElem? (ordered : List (Option (QueryOutcome Value))) (index place : Nat) :
    (joinNext config tasks ordered index)[place]? =
      if index = place then
        ordered[place]?.map (fun held => (tasks[place]?.bind (QueryTask.outcome config)).or held)
      else ordered[place]? := by
  by_cases same : index = place
  · subst same
    cases found : tasks[index]?.bind (QueryTask.outcome config) with
    | none => simp [joinNext, found]
    | some =>
      simp only [joinNext, found, if_true, Option.some_or]
      rw [getElem?_set_self']
      rfl
  · rw [if_neg same, joinNext]
    split
    · rw [getElem?_set_ne same]
    · rfl

/-- What is at a place after some joins: the outcome of its task, once that has been joined. -/
theorem foldl_joinNext_getElem? (order : List Nat) (ordered : List (Option (QueryOutcome Value)))
    (place : Nat) :
    (order.foldl (joinNext config tasks) ordered)[place]? =
      if place ∈ order then
        ordered[place]?.map (fun held => (tasks[place]?.bind (QueryTask.outcome config)).or held)
      else ordered[place]? := by
  induction order generalizing ordered with
  | nil => simp
  | cons index rest ih =>
    rw [foldl_cons, ih, joinNext_getElem?]
    grind

/-- When all tasks have been joined, the outcomes stand in the order of the tasks. -/
theorem collect_eq {order : List Nat} (complete : order.Perm (List.range tasks.length)) :
    collect config tasks order = tasks.filterMap (QueryTask.outcome config) := by
  have places : order.foldl (joinNext config tasks) (List.replicate tasks.length none) =
      tasks.map (QueryTask.outcome config) := by
    apply ext_getElem?
    intro place
    have joined : place ∈ order ↔ place < tasks.length := complete.mem_iff.trans mem_range
    rw [foldl_joinNext_getElem?, getElem?_map]
    grind
  rw [collect, places, List.reduceOption, filterMap_map]
  rfl

end Order

/-! ## Outcomes -/

section Outcomes

variable {Value : Type}

def QueryTask.succeeds (task : QueryTask Value) : Bool :=
  match task.completion with
  | .value _ => true
  | _ => false

def QueryTask.panics (task : QueryTask Value) : Bool :=
  match task.completion with
  | .panicked => true
  | _ => false

/-- The first task without a value. -/
def firstFailing (tasks : List (QueryTask Value)) : Option (QueryTask Value) :=
  tasks.find? (fun task => !task.succeeds)

/-- The first task without a value that did not panic. -/
def firstReported (tasks : List (QueryTask Value)) : Option (QueryTask Value) :=
  tasks.find? (fun task => !task.succeeds && !task.panics)

/-- What is asked of the result. A batch has one outcome for each task, in the order and under the
names of the tasks. Under the strict policy there is a batch only if all tasks have values, and
otherwise, when all tasks have ended, the error names the first one that has none. -/
structure Complete (config : QueryCompositionConfig) (tasks : List (QueryTask Value)) (wait : Wait)
    (result : Except QueryCompositionError (QueryBatch Value)) : Prop where
  named : ∀ batch, result = .ok batch →
    batch.outcomes.map QueryOutcome.name = tasks.map QueryTask.name
  valued : config.partialFailure = .strict → ∀ batch, result = .ok batch →
    ∀ task ∈ tasks, task.succeeds = true
  blamed : config.partialFailure = .strict → ∀ order, wait = .finished order →
    (∃ batch, result = .ok batch) ∨ ∃ failing message, firstFailing tasks = some failing ∧
      result = .error (.strictFailure failing.name message)

/-- When the failure of a task that panicked shows. It never does when the policy allows failures.
Under the strict policy the first failing task has to be one that did not panic, or to have the name
of the first one that did not. -/
def Accounted (config : QueryCompositionConfig) (tasks : List (QueryTask Value)) : Prop :=
  match config.partialFailure with
  | .allow => ∀ task ∈ tasks, task.panics = false
  | .strict => ∀ failing, firstFailing tasks = some failing → failing.panics = true →
      ∃ reported, firstReported tasks = some reported ∧ reported.name = failing.name

theorem QueryTask.outcome_eq_none_iff (config : QueryCompositionConfig) (task : QueryTask Value) :
    task.outcome config = none ↔ task.panics = true := by
  rw [outcome, panics]
  cases task.completion <;> simp

variable {config : QueryCompositionConfig}

theorem QueryTask.outcome_spec {task : QueryTask Value} {outcome : QueryOutcome Value}
    (returned : task.outcome config = some outcome) :
    outcome.name = task.name ∧ outcome.failure.isSome = !task.succeeds ∧ task.panics = false := by
  rw [QueryTask.outcome] at returned
  rw [succeeds, panics]
  grind

/-- The names are complete when no task panicked, and only then. -/
theorem names_eq_iff (config : QueryCompositionConfig) (tasks : List (QueryTask Value)) :
    (tasks.filterMap (QueryTask.outcome config)).map QueryOutcome.name = tasks.map QueryTask.name ↔
      ∀ task ∈ tasks, task.panics = false := by
  constructor
  · intro names task member
    have lengths : (tasks.filterMap (QueryTask.outcome config)).length = tasks.length := by
      simpa using congrArg List.length names
    have returned := filterMap_length_eq_length.mp lengths task member
    rw [← Bool.not_eq_true, ← task.outcome_eq_none_iff config]
    exact Option.isSome_iff_ne_none.mp returned
  · intro calm
    induction tasks with
    | nil => rfl
    | cons task rest ih =>
      have later := ih (fun other member => calm other (mem_cons_of_mem _ member))
      cases returned : task.outcome config with
      | none =>
        have panicked := (task.outcome_eq_none_iff config).mp returned
        simp_all
      | some =>
        rw [filterMap_cons_some returned, map_cons, map_cons, later,
          (QueryTask.outcome_spec returned).1]

/-- The failure that the strict policy finds is the one of the first task that failed and did not
panic. -/
theorem firstFailure_filterMap (config : QueryCompositionConfig) (tasks : List (QueryTask Value)) :
    (firstFailure (tasks.filterMap (QueryTask.outcome config))).map Prod.fst =
      (firstReported tasks).map QueryTask.name := by
  induction tasks with
  | nil => rfl
  | cons task rest ih =>
    cases returned : task.outcome config with
    | none =>
      have panicked := (task.outcome_eq_none_iff config).mp returned
      rw [filterMap_cons_none returned, ih]
      simp [firstReported, panicked]
    | some outcome =>
      obtain ⟨name, fails, calm⟩ := QueryTask.outcome_spec returned
      rw [filterMap_cons_some returned]
      cases failure : outcome.failure with
      | none =>
        have succeeds : task.succeeds = true := by simpa [failure] using fails
        simpa [firstFailure, firstReported, failure, succeeds] using ih
      | some =>
        have failed : task.succeeds = false := by simpa [failure] using fails
        simp [firstFailure, firstReported, failure, failed, calm, name]

variable {tasks : List (QueryTask Value)}

theorem firstReported_of_calm {failing : QueryTask Value}
    (first : firstFailing tasks = some failing) (calm : failing.panics = false) :
    firstReported tasks = some failing := by
  induction tasks with
  | nil => cases first
  | cons task rest ih =>
    rw [firstFailing, find?_cons] at first
    rw [firstReported, find?_cons]
    cases succeeds : task.succeeds with
    | true =>
      simp only [succeeds, Bool.not_true, Bool.false_and] at first ⊢
      exact ih first
    | false => simp_all

/-- When all tasks have been joined, the result depends on the tasks alone. -/
theorem execute_finished {order : List Nat} (within : tasks.length ≤ config.maxFanout)
    (complete : order.Perm (List.range tasks.length)) :
    execute config tasks (.finished order) =
      if config.partialFailure = .strict then
        match firstFailure (tasks.filterMap (QueryTask.outcome config)) with
        | some (name, failure) => .error (.strictFailure name failure.message)
        | none => .ok ⟨tasks.filterMap (QueryTask.outcome config)⟩
      else .ok ⟨tasks.filterMap (QueryTask.outcome config)⟩ := by
  rw [execute, if_neg (Nat.not_lt.mpr within), collect_eq complete]
  cases tasks with
  | nil => cases config.partialFailure <;> rfl
  | cons => rfl

/-- Under the strict policy, when there is a batch. -/
theorem complete_strict_ok_iff (strict : config.partialFailure = .strict) (wait : Wait) :
    Complete config tasks wait (.ok ⟨tasks.filterMap (QueryTask.outcome config)⟩) ↔
      firstFailing tasks = none := by
  constructor
  · intro complete
    refine find?_eq_none.mpr (fun task member => ?_)
    rw [complete.valued strict _ rfl task member]
    exact Bool.false_ne_true
  · intro none
    have succeeds (task : QueryTask Value) (member : task ∈ tasks) : task.succeeds = true := by
      simpa using find?_eq_none.mp none task member
    refine ⟨fun batch same => ?_, fun _ _ _ => succeeds, fun _ _ _ => .inl ⟨_, rfl⟩⟩
    cases same
    refine (names_eq_iff config tasks).mpr (fun task member => ?_)
    have valued := succeeds task member
    rw [QueryTask.succeeds] at valued
    rw [QueryTask.panics]
    grind

/-- Under the strict policy, when some outcome is a failure. -/
theorem complete_strict_error_iff (strict : config.partialFailure = .strict) (order : List Nat)
    (name message : String) :
    Complete config tasks (.finished order)
        (.error (.strictFailure name message) : Except _ (QueryBatch Value)) ↔
      ∃ failing, firstFailing tasks = some failing ∧ failing.name = name := by
  constructor
  · intro complete
    rcases complete.blamed strict order rfl with ⟨_, impossible⟩ | ⟨failing, _, first, same⟩
    · cases impossible
    · simp_all
  · rintro ⟨failing, first, rfl⟩
    exact ⟨nofun, fun _ => nofun, fun _ _ _ => .inr ⟨failing, message, first, rfl⟩⟩

/-- The result is complete in the order and the names of the tasks, if and only if the total timeout
came first or the failure of every task that panicked shows. -/
theorem composition_complete_iff (config : QueryCompositionConfig) (tasks : List (QueryTask Value))
    (wait : Wait) (within : tasks.length ≤ config.maxFanout)
    (joined : ∀ order, wait = .finished order → order.Perm (List.range tasks.length)) :
    Complete config tasks wait (execute config tasks wait) ↔
      ∀ order, wait = .finished order → Accounted config tasks := by
  cases wait with
  | cutOff =>
    refine iff_of_true ?_ nofun
    rw [execute, if_neg (Nat.not_lt.mpr within)]
    cases tasks with
    | nil =>
      refine ⟨fun batch same => ?_, fun _ _ _ => nofun, fun _ => nofun⟩
      cases same
      rfl
    | cons => exact ⟨nofun, fun _ => nofun, fun _ => nofun⟩
  | finished order =>
    have condition : (∀ other, Wait.finished order = .finished other → Accounted config tasks) ↔
        Accounted config tasks := ⟨fun accounted => accounted order rfl, fun accounted _ _ => accounted⟩
    rw [condition, execute_finished within (joined order rfl), Accounted]
    cases policy : config.partialFailure with
    | allow =>
      dsimp only
      rw [← names_eq_iff config]
      constructor
      · intro complete
        exact complete.named _ rfl
      · intro names
        refine ⟨fun batch same => ?_, fun strict => ?_, fun strict => ?_⟩
        · cases same
          exact names
        · rw [policy] at strict
          cases strict
        · rw [policy] at strict
          cases strict
    | strict =>
      rw [if_pos rfl]
      have names := firstFailure_filterMap config tasks
      cases failure : firstFailure (tasks.filterMap (QueryTask.outcome config)) with
      | none =>
        have unreported : firstReported tasks = none := by simpa [failure] using names.symm
        rw [complete_strict_ok_iff policy]
        constructor
        · intro none failing first
          rw [none] at first
          cases first
        · intro accounted
          by_contra some
          obtain ⟨failing, first⟩ := Option.ne_none_iff_exists'.mp some
          cases panics : failing.panics with
          | true =>
            obtain ⟨reported, found, -⟩ := accounted failing first panics
            rw [unreported] at found
            cases found
          | false =>
            rw [firstReported_of_calm first panics] at unreported
            cases unreported
      | some pair =>
        rw [failure, Option.map_some] at names
        obtain ⟨reported, found, same⟩ := Option.map_eq_some_iff.mp names.symm
        rw [complete_strict_error_iff policy]
        constructor
        · rintro ⟨failing, first, named⟩ other again panics
          cases first.symm.trans again
          exact ⟨reported, found, same.trans named.symm⟩
        · intro accounted
          have fails := find?_some found
          rw [Bool.and_eq_true_iff] at fails
          obtain ⟨failing, first⟩ : ∃ failing, firstFailing tasks = some failing :=
            Option.isSome_iff_exists.mp
              (find?_isSome.mpr ⟨reported, mem_of_find?_eq_some found, fails.1⟩)
          refine ⟨failing, first, ?_⟩
          cases panics : failing.panics with
          | true =>
            obtain ⟨_, again, named⟩ := accounted failing first panics
            cases found.symm.trans again
            exact named.symm.trans same
          | false =>
            cases found.symm.trans (firstReported_of_calm first panics)
            exact same

end Outcomes

namespace Sample

def config (policy : PartialFailurePolicy) : QueryCompositionConfig := ⟨.second, 16, policy⟩

/-- The second task panics. -/
def panicking : List (QueryTask Nat) :=
  [⟨"orders", .value 1⟩, ⟨"stock", .panicked⟩, ⟨"prices", .value 3⟩]

/-- The second task fails, and the last one is joined first. -/
def failing : List (QueryTask Nat) :=
  [⟨"orders", .value 1⟩, ⟨"stock", .error "unavailable"⟩, ⟨"prices", .timedOut⟩]

end Sample

/-- The strict policy returns a batch of two outcomes for three tasks. -/
theorem panicked_task_lost :
    execute (Sample.config .strict) Sample.panicking (.finished [0, 1, 2]) =
      .ok ⟨[⟨"orders", some 1, none⟩, ⟨"prices", some 3, none⟩]⟩ := by
  decide +kernel

theorem composition_complete_iff_failing :
    Complete (Sample.config .strict) Sample.failing (.finished [2, 0, 1])
        (execute (Sample.config .strict) Sample.failing (.finished [2, 0, 1])) ∧
      execute (Sample.config .strict) Sample.failing (.finished [2, 0, 1]) =
        .error (.strictFailure "stock" "unavailable") := by
  refine ⟨(composition_complete_iff _ _ _ (by decide) fun order same => ?_).mpr
    fun order _ failing first panics => ?_, by decide +kernel⟩
  · cases same
    decide
  · cases first
    cases panics

end Roze.Query
