import Roze.Library.MachineInteger

/-!
# In-process sagas with retries

A plan applies its steps in order. When one fails, the steps applied so far are
rolled back in reverse order, the results of the rollbacks are dropped, and the
failure is returned; the retry loop starts the next attempt on that failure alone.

A step's closures are known here by what they answer in each attempt, so a plan
carries every pattern of outcomes. Execution produces, besides its result, the log
of what it did: which applies and rollbacks ran, in which attempt and order, how
they ended, and the pauses in between. Safety of the retries is a statement about
that log. It holds exactly for the outcome patterns in which every attempt that is
retried also rolls back successfully; the loop itself does not look.
-/

namespace Roze.Transaction

open Roze.Library List

variable {Error : Type}

/-- A step with the answers of its two closures in each attempt. -/
structure TransactionAction (Error : Type) where
  name : String
  apply : Nat → Except Error Unit
  rollback : Nat → Except Error Unit

structure TransactionPlan (Error : Type) where
  steps : List (TransactionAction Error)

structure SagaRetryPolicy where
  maxAttempts : UInt32
  initialBackoffMillis : UInt64
  maxBackoffMillis : UInt64
deriving DecidableEq, Repr

/-- The default retry policy. -/
def SagaRetryPolicy.default : SagaRetryPolicy where
  maxAttempts := 3
  initialBackoffMillis := 100
  maxBackoffMillis := 5000

/-- What execution did. A step is named by its position in the plan. -/
inductive SagaEvent (Error : Type) where
  | started (attempt : Nat)
  | applied (attempt step : Nat) (outcome : Except Error Unit)
  | rolledBack (attempt step : Nat) (outcome : Except Error Unit)
  | slept (attempt : Nat) (millis : UInt64)

/-- The attempt in which an event happened. -/
def SagaEvent.attempt : SagaEvent Error → Nat
  | .started attempt => attempt
  | .applied attempt _ _ => attempt
  | .rolledBack attempt _ _ => attempt
  | .slept attempt _ => attempt

/-- The step an event applied, whatever the outcome. -/
def SagaEvent.appliedStep? : SagaEvent Error → Option Nat
  | .applied _ step _ => some step
  | _ => none

namespace TransactionPlan

/-- The loop of `execute` over the steps that are left, with the steps already
applied in this attempt. -/
def executeLoop (attempt : Nat) :
    List (TransactionAction Error × Nat) → List (TransactionAction Error × Nat) →
      List (SagaEvent Error) × Except Error Unit
  | [], _ => ([], .ok ())
  | (action, step) :: rest, applied =>
      match action.apply attempt with
      | .error error =>
          (.applied attempt step (.error error) :: applied.reverse.map (fun previous =>
            .rolledBack attempt previous.2 (previous.1.rollback attempt)), .error error)
      | .ok () =>
          let later := executeLoop attempt rest (applied ++ [(action, step)])
          (.applied attempt step (.ok ()) :: later.1, later.2)

/-- One attempt of the whole plan. -/
def execute (plan : TransactionPlan Error) (attempt : Nat) :
    List (SagaEvent Error) × Except Error Unit :=
  executeLoop attempt plan.steps.zipIdx []

/-- The pause before the attempt after a failed one. -/
def backoff (policy : SagaRetryPolicy) (attempt : Nat) : List (SagaEvent Error) :=
  let multiplier := saturatingPowU64 2 (min attempt 6)
  let delay := min (saturatingMulU64 policy.initialBackoffMillis multiplier)
    policy.maxBackoffMillis
  if 0 < delay then [.slept attempt delay] else []

/-- The retry loop over the attempts that are left. Without an attempt it has no
result, which is the source's unreachable end. -/
def retryLoop (plan : TransactionPlan Error) (policy : SagaRetryPolicy) (attempts : Nat) :
    List Nat → List (SagaEvent Error) × Option (Except Error Unit)
  | [] => ([], none)
  | attempt :: rest =>
      let run := plan.execute attempt
      match run.2 with
      | .ok () => (.started attempt :: run.1, some (.ok ()))
      | .error error =>
          if attempt + 1 = attempts then (.started attempt :: run.1, some (.error error))
          else
            let later := retryLoop plan policy attempts rest
            (.started attempt :: run.1 ++ backoff policy attempt ++ later.1, later.2)

/-- The number of attempts a policy allows; zero counts as one. -/
def allowedAttempts (policy : SagaRetryPolicy) : Nat := max policy.maxAttempts.toNat 1

def executeWithRetry (plan : TransactionPlan Error) (policy : SagaRetryPolicy) :
    List (SagaEvent Error) × Option (Except Error Unit) :=
  plan.retryLoop policy (allowedAttempts policy) (List.range (allowedAttempts policy))

/-! ## One attempt -/

/-- The step answers its apply in this attempt with success. -/
def Applies (attempt : Nat) (step : TransactionAction Error × Nat) : Bool :=
  (step.1.apply attempt).isOk

/-- The steps before the first one whose apply fails in this attempt. -/
def appliedSteps (plan : TransactionPlan Error) (attempt : Nat) :
    List (TransactionAction Error × Nat) :=
  plan.steps.zipIdx.takeWhile (Applies attempt)

/-- Some step's apply fails in this attempt. -/
def Fails (plan : TransactionPlan Error) (attempt : Nat) : Prop :=
  ∃ action ∈ plan.steps, (action.apply attempt).isOk = false

/-- The events of a failing step: its apply, then the rollbacks of the steps before
it in reverse order. -/
def failureEvents (attempt : Nat) (failing : TransactionAction Error × Nat)
    (applied : List (TransactionAction Error × Nat)) : List (SagaEvent Error) :=
  .applied attempt failing.2 (failing.1.apply attempt) :: applied.reverse.map (fun previous =>
    .rolledBack attempt previous.2 (previous.1.rollback attempt))

/-- The loop applies the steps up to the first failure, and with a failure it rolls
back all of them together with those applied before. -/
theorem executeLoop_eq (attempt : Nat) (steps applied : List (TransactionAction Error × Nat)) :
    executeLoop attempt steps applied =
      match steps.dropWhile (Applies attempt) with
      | [] => (steps.map (fun step => .applied attempt step.2 (.ok ())), .ok ())
      | failing :: _ =>
          ((steps.takeWhile (Applies attempt)).map
              (fun step => .applied attempt step.2 (.ok ())) ++
            failureEvents attempt failing (applied ++ steps.takeWhile (Applies attempt)),
            failing.1.apply attempt) := by
  induction steps generalizing applied with
  | nil => rfl
  | cons head rest ih =>
    obtain ⟨action, step⟩ := head
    cases outcome : action.apply attempt with
    | error =>
      have refused : Applies attempt (action, step) = false := by
        simp [Applies, outcome, Except.isOk, Except.toBool]
      simp [executeLoop, outcome, refused, failureEvents]
    | ok =>
      have succeeded : Applies attempt (action, step) = true := by
        simp [Applies, outcome, Except.isOk, Except.toBool]
      simp only [executeLoop, outcome, ih, dropWhile_cons_of_pos succeeded,
        takeWhile_cons_of_pos succeeded]
      grind

/-- An attempt either applies every step and succeeds, or stops at a failing step
that follows the applied ones, rolls these back and returns that step's error. -/
theorem execute_cases (plan : TransactionPlan Error) (attempt : Nat) :
    (¬ plan.Fails attempt ∧ plan.execute attempt =
        ((plan.appliedSteps attempt).map (fun step => .applied attempt step.2 (.ok ())), .ok ())) ∨
      ∃ failing error, plan.Fails attempt ∧ failing.1.apply attempt = .error error ∧
        plan.appliedSteps attempt ++ [failing] <+: plan.steps.zipIdx ∧
        plan.execute attempt =
          ((plan.appliedSteps attempt).map (fun step => .applied attempt step.2 (.ok ())) ++
            failureEvents attempt failing (plan.appliedSteps attempt), .error error) := by
  have whole := takeWhile_append_dropWhile (p := Applies attempt) (l := plan.steps.zipIdx)
  rw [execute, executeLoop_eq, appliedSteps]
  cases left : plan.steps.zipIdx.dropWhile (Applies attempt) with
  | nil =>
    rw [left, append_nil] at whole
    refine .inl ⟨?_, by simp only [whole]⟩
    rintro ⟨action, member, refused⟩
    obtain ⟨step, _, same⟩ := mem_iff_getElem.mp member
    have indexed : (action, step) ∈ plan.steps.zipIdx := by grind
    have succeeded := mem_takeWhile_imp (whole ▸ indexed)
    simp [Applies, refused] at succeeded
  | cons failing later =>
    rw [left] at whole
    have refused : Applies attempt failing = false := by
      have head := head_dropWhile_not (Applies attempt) (l := plan.steps.zipIdx)
        (by simp [left])
      simpa [left] using head
    have member : failing.1 ∈ plan.steps := by
      have indexed : failing ∈ plan.steps.zipIdx := by
        rw [← whole]
        simp
      exact fst_mem_of_mem_zipIdx indexed
    cases outcome : failing.1.apply attempt with
    | ok => simp [Applies, outcome, Except.isOk, Except.toBool] at refused
    | error error =>
      refine .inr ⟨failing, error, ⟨failing.1, member, refused⟩, outcome, ⟨later, ?_⟩, ?_⟩
      · simp_all
      · simp [outcome]

variable {plan : TransactionPlan Error} {attempt step : Nat}

/-- An attempt returns an error exactly when some step's apply fails. -/
theorem execute_error_iff :
    (∃ error, (plan.execute attempt).2 = .error error) ↔ plan.Fails attempt := by
  rcases execute_cases plan attempt with ⟨succeeds, executed⟩ | ⟨_, _, fails, _, _, executed⟩
  · simp [executed, succeeds]
  · simp [executed, fails]

variable {event : SagaEvent Error}

/-- An attempt logs only events of its own. -/
theorem execute_attempt (member : event ∈ (plan.execute attempt).1) : event.attempt = attempt := by
  rcases execute_cases plan attempt with ⟨_, executed⟩ | ⟨_, _, _, _, _, executed⟩
  · rw [executed] at member
    obtain ⟨applied, _, rfl⟩ := mem_map.mp member
    rfl
  · rw [executed] at member
    rcases mem_append.mp member with forward | failure
    · obtain ⟨_, _, rfl⟩ := mem_map.mp forward
      rfl
    · rcases mem_cons.mp failure with rfl | backward
      · rfl
      · obtain ⟨_, _, rfl⟩ := mem_map.mp backward
        rfl

/-- The successful applies of an attempt are those of its applied steps. -/
theorem applied_mem_iff :
    .applied attempt step (.ok ()) ∈ (plan.execute attempt).1 ↔
      ∃ action, (action, step) ∈ plan.appliedSteps attempt := by
  rcases execute_cases plan attempt with ⟨_, executed⟩ | ⟨_, _, _, refused, _, executed⟩
  · simp [executed]
  · simp [executed, failureEvents, refused]

/-- The rollbacks of a failed attempt are those of its applied steps, with the outcome
the step gives; a successful attempt rolls nothing back. -/
theorem rolledBack_mem_iff {outcome : Except Error Unit} :
    .rolledBack attempt step outcome ∈ (plan.execute attempt).1 ↔
      plan.Fails attempt ∧ ∃ action, (action, step) ∈ plan.appliedSteps attempt ∧
        action.rollback attempt = outcome := by
  rcases execute_cases plan attempt with ⟨succeeds, executed⟩ | ⟨_, _, fails, _, _, executed⟩
  · simp [executed, succeeds]
  · simp only [executed, fails, failureEvents, mem_append, mem_map, mem_cons,
      mem_reverse, reduceCtorEq, and_false, exists_false, false_or,
      SagaEvent.rolledBack.injEq, true_and, Prod.exists]
    simp

/-- A failed attempt rolls each applied step back after applying it. -/
theorem applied_then_rolledBack {action : TransactionAction Error} (fails : plan.Fails attempt)
    (member : (action, step) ∈ plan.appliedSteps attempt) :
    [.applied attempt step (.ok ()), .rolledBack attempt step (action.rollback attempt)].Sublist
      (plan.execute attempt).1 := by
  rcases execute_cases plan attempt with ⟨succeeds, _⟩ | ⟨_, _, _, _, _, executed⟩
  · exact absurd fails succeeds
  · rw [executed]
    have forward := mem_map_of_mem
      (f := fun applied => SagaEvent.applied attempt applied.2 (.ok () : Except Error Unit)) member
    have backward := mem_map_of_mem
      (f := fun previous => SagaEvent.rolledBack attempt previous.2 (previous.1.rollback attempt))
      (mem_reverse.mpr member)
    exact List.Sublist.append (singleton_sublist.mpr forward)
      ((singleton_sublist.mpr backward).cons _)

/-- An applied position belongs to one step of the plan. -/
theorem appliedSteps_unique {left right : TransactionAction Error}
    (first : (left, step) ∈ plan.appliedSteps attempt)
    (second : (right, step) ∈ plan.appliedSteps attempt) : left = right := by
  have one := mem_zipIdx_iff_getElem?.mp ((takeWhile_sublist _).mem first)
  have other := mem_zipIdx_iff_getElem?.mp ((takeWhile_sublist _).mem second)
  simp_all

/-- An attempt applies no step twice. -/
theorem appliedStep_nodup :
    ((plan.execute attempt).1.filterMap SagaEvent.appliedStep?).Nodup := by
  have positions : (plan.steps.zipIdx.map Prod.snd).Nodup := by
    rw [zipIdx_map_snd]
    exact nodup_range'
  have forward (steps : List (TransactionAction Error × Nat)) :
      (steps.map (fun applied => SagaEvent.applied attempt applied.2
        (.ok () : Except Error Unit))).filterMap SagaEvent.appliedStep? = steps.map Prod.snd := by
    rw [filterMap_map]
    exact congrFun filterMap_eq_map steps
  have backward (steps : List (TransactionAction Error × Nat)) :
      (steps.map (fun previous => SagaEvent.rolledBack attempt previous.2
        (previous.1.rollback attempt))).filterMap SagaEvent.appliedStep? = [] := by
    rw [filterMap_map]
    exact filterMap_eq_nil_iff.mpr fun _ _ => rfl
  rcases execute_cases plan attempt with ⟨_, executed⟩ | ⟨failing, _, _, _, initial, executed⟩
  · rw [executed, forward]
    exact positions.sublist (List.Sublist.map Prod.snd (takeWhile_sublist _))
  · have split : (plan.execute attempt).1.filterMap SagaEvent.appliedStep? =
        (plan.appliedSteps attempt ++ [failing]).map Prod.snd := by
      rw [executed, failureEvents, filterMap_append, forward, filterMap_cons, backward,
        map_append]
      rfl
    grind

/-! ## All attempts -/

/-- What one attempt contributes to the log. -/
def attemptLog (plan : TransactionPlan Error) (policy : SagaRetryPolicy) (attempts attempt : Nat) :
    List (SagaEvent Error) :=
  .started attempt :: (plan.execute attempt).1 ++
    match (plan.execute attempt).2 with
    | .ok () => []
    | .error _ => if attempt + 1 = attempts then [] else backoff policy attempt

/-- The retry loop runs the attempts up to a last one: those before it fail, it is the
last allowed one unless it succeeds, and its result is returned. -/
theorem retryLoop_eq (plan : TransactionPlan Error) (policy : SagaRetryPolicy) (attempts : Nat)
    (count first : Nat) (total : first + (count + 1) = attempts) :
    ∃ more ≤ count, (∀ attempt, first ≤ attempt → attempt < first + more → plan.Fails attempt) ∧
      (more < count → ¬ plan.Fails (first + more)) ∧
      plan.retryLoop policy attempts (List.range' first (count + 1)) =
        ((List.range' first (more + 1)).flatMap (plan.attemptLog policy attempts),
          some (plan.execute (first + more)).2) := by
  induction count generalizing first with
  | zero =>
    refine ⟨0, le_rfl, fun attempt low high => by omega, fun few => absurd few (by omega), ?_⟩
    cases outcome : (plan.execute first).2 with
    | ok => simp [retryLoop, attemptLog, outcome]
    | error => simp [retryLoop, attemptLog, outcome, show first + 1 = attempts by omega]
  | succ count ih =>
    cases outcome : (plan.execute first).2 with
    | ok =>
      refine ⟨0, by omega, fun attempt low high => by omega, fun _ fails => ?_, ?_⟩
      · obtain ⟨error, failed⟩ := execute_error_iff.mpr fails
        simp [outcome] at failed
      · simp [retryLoop, attemptLog, outcome, range'_succ]
    | error error =>
      obtain ⟨more, _, failing, last, later⟩ := ih (first + 1) (by omega)
      refine ⟨more + 1, by omega, ?_, ?_, ?_⟩
      · intro attempt low high
        rcases Nat.eq_or_lt_of_le low with rfl | above
        · exact execute_error_iff.mp ⟨error, outcome⟩
        · exact failing attempt above (by omega)
      · grind
      · have notLast : first + 1 ≠ attempts := by omega
        rw [range'_succ, @List.range'_succ first, flatMap_cons, retryLoop]
        simp [outcome, notLast, later, attemptLog, Nat.add_assoc, Nat.add_comm 1 more]

/-- `execute_with_retry` returns: it runs the attempts up to a last one and gives that
attempt's result. -/
theorem executeWithRetry_eq (plan : TransactionPlan Error) (policy : SagaRetryPolicy) :
    ∃ last < allowedAttempts policy, (∀ attempt < last, plan.Fails attempt) ∧
      (last + 1 < allowedAttempts policy → ¬ plan.Fails last) ∧
      plan.executeWithRetry policy =
        ((List.range (last + 1)).flatMap (plan.attemptLog policy (allowedAttempts policy)),
          some (plan.execute last).2) := by
  obtain ⟨count, allowed⟩ : ∃ count, allowedAttempts policy = count + 1 :=
    ⟨allowedAttempts policy - 1, by unfold allowedAttempts; omega⟩
  obtain ⟨last, _, failing, final, run⟩ :=
    plan.retryLoop_eq policy (allowedAttempts policy) count 0 (by omega)
  refine ⟨last, by omega, fun attempt below => failing attempt (Nat.zero_le _) (by omega),
    fun fewer => ?_, ?_⟩
  · simpa using final (by omega)
  · rw [executeWithRetry, range_eq_range', range_eq_range']
    simpa [allowed] using run

variable {policy : SagaRetryPolicy} {attempts : Nat}

theorem attemptLog_attempt (member : event ∈ plan.attemptLog policy attempts attempt) :
    event.attempt = attempt := by
  rcases mem_append.mp member with started | pause
  · rcases mem_cons.mp started with rfl | executed
    · rfl
    · exact execute_attempt executed
  · split at pause
    · simp at pause
    · split at pause
      · simp at pause
      · unfold backoff at pause
        grind [SagaEvent.attempt]

/-- Around an attempt's own applies and rollbacks there are only its start and a pause. -/
theorem mem_attemptLog_iff (notStarted : ∀ other, event ≠ .started other)
    (notSlept : ∀ other millis, event ≠ .slept other millis) :
    event ∈ plan.attemptLog policy attempts attempt ↔ event ∈ (plan.execute attempt).1 := by
  unfold attemptLog backoff
  grind

/-- A reading of events that passes over starts and pauses finds in the log of an attempt what it finds
in its applies and rollbacks. -/
theorem filterMap_attemptLog {Value : Type} (read : SagaEvent Error → Option Value)
    (starts : ∀ other, read (.started other) = none)
    (sleeps : ∀ other millis, read (.slept other millis) = none) :
    (plan.attemptLog policy attempts attempt).filterMap read =
      (plan.execute attempt).1.filterMap read := by
  have pause : (backoff policy attempt).filterMap read = [] := by
    unfold backoff
    grind
  rw [attemptLog, cons_append, filterMap_cons_none (starts attempt),
    filterMap_append]
  grind

theorem attemptLog_applied_nodup :
    ((plan.attemptLog policy attempts attempt).filterMap SagaEvent.appliedStep?).Nodup := by
  rw [filterMap_attemptLog _ (fun _ => rfl) (fun _ _ => rfl)]
  exact appliedStep_nodup

/-- A place in a log of attempts lies in one of them, after all earlier attempts.

Proof: by induction on the number of attempts; the place lies in the last attempt or
before it. -/
theorem log_split (logOf : Nat → List (SagaEvent Error)) (count : Nat)
    {before after : List (SagaEvent Error)}
    (split : (List.range count).flatMap logOf = before ++ event :: after) :
    ∃ attempt < count, ∃ part rest, logOf attempt = part ++ event :: rest ∧
      before = (List.range attempt).flatMap logOf ++ part := by
  induction count generalizing after with
  | zero => simp at split
  | succ count ih =>
    rw [range_succ, flatMap_append, flatMap_singleton,
      append_eq_append_iff] at split
    rcases split with ⟨part, reached, last⟩ | ⟨later, earlier, rest⟩
    · grind
    · cases later with
      | nil | cons => grind

/-- A successful apply is followed by a successful rollback of the same step in the
same attempt. -/
def Compensated (log : List (SagaEvent Error)) (attempt step : Nat) : Prop :=
  .applied attempt step (.ok ()) ∈ log →
    [.applied attempt step (.ok ()), .rolledBack attempt step (.ok ())].Sublist log

/-- Before an attempt starts, every successful apply of the attempt before it is
compensated, and before a step is applied, so is every earlier successful apply of it. -/
structure RetrySafe (log : List (SagaEvent Error)) : Prop where
  startsCompensated : ∀ before attempt after, log = before ++ .started (attempt + 1) :: after →
    ∀ step, Compensated before attempt step
  reappliesCompensated : ∀ before attempt step outcome after,
    log = before ++ .applied attempt step outcome :: after →
      ∀ earlier, Compensated before earlier step

/-- In every attempt that is retried, each applied step's rollback succeeds. -/
def RetriesCompensate (plan : TransactionPlan Error) (policy : SagaRetryPolicy) : Prop :=
  ∀ attempt, attempt + 1 < allowedAttempts policy →
    (∀ earlier ≤ attempt, plan.Fails earlier) →
    ∀ applied ∈ plan.appliedSteps attempt, applied.1.rollback attempt = .ok ()

/-- When retried attempts roll back, all attempts before one that runs are compensated. -/
theorem earlier_compensated (compensate : plan.RetriesCompensate policy)
    (failing : ∀ earlier < attempt, plan.Fails earlier) (allowed : attempt < allowedAttempts policy)
    (earlier step : Nat) :
    Compensated ((List.range attempt).flatMap (plan.attemptLog policy (allowedAttempts policy)))
      earlier step := by
  intro member
  obtain ⟨owner, inside, logged⟩ := mem_flatMap.mp member
  obtain rfl : earlier = owner := attemptLog_attempt logged
  have below := mem_range.mp inside
  have rollbacks := compensate earlier (by omega) fun other within => failing other (by omega)
  obtain ⟨_, applied⟩ := applied_mem_iff.mp
    ((mem_attemptLog_iff (by simp) (by simp)).mp logged)
  have ordered := applied_then_rolledBack (failing earlier below) applied
  rw [rollbacks _ applied] at ordered
  -- the attempt rolls its own applies back, within its part of the log
  exact (ordered.trans ((sublist_cons_self _ _).trans (sublist_append_left _ _))).trans
    (sublist_flatten_of_mem (mem_map_of_mem inside))

/-- An attempt after the first starts right after all attempts before it. -/
theorem log_started {last : Nat} (runs : attempt + 1 ≤ last) :
    ∃ after, (List.range (last + 1)).flatMap (plan.attemptLog policy attempts) =
      (List.range (attempt + 1)).flatMap (plan.attemptLog policy attempts) ++
        .started (attempt + 1) :: after := by
  induction last, runs using Nat.le_induction with
  | base =>
    rw [range_succ, flatMap_append, flatMap_singleton]
    exact ⟨_, rfl⟩
  | succ last _ ih =>
    obtain ⟨_, split⟩ := ih
    rw [range_succ, flatMap_append, split, append_assoc]
    exact ⟨_, rfl⟩

/-- The retries are safe exactly when each attempt that is retried rolls back
everything it applied. The loop retries on the apply error alone, so the rollbacks'
own outcomes decide.

Proof: an attempt that is retried is followed by the start of the next one, before
which only its own rollbacks can have compensated it. Conversely the attempts before
an event are compensated, and its own attempt applies no step twice. -/
theorem retrySafe_iff (plan : TransactionPlan Error) (policy : SagaRetryPolicy) :
    RetrySafe (plan.executeWithRetry policy).1 ↔ plan.RetriesCompensate policy := by
  obtain ⟨last, _, failing, final, run⟩ := plan.executeWithRetry_eq policy
  rw [run]
  constructor
  · rintro ⟨starts, -⟩ attempt _ fails ⟨action, step⟩ applied
    have retried : attempt + 1 ≤ last := by
      by_contra notBefore
      exact final (by omega) (fails last (by omega))
    obtain ⟨after, split⟩ := log_started retried
    have logged : SagaEvent.applied attempt step (.ok ()) ∈
        plan.attemptLog policy (allowedAttempts policy) attempt :=
      (mem_attemptLog_iff (by simp) (by simp)).mpr (applied_mem_iff.mpr ⟨action, applied⟩)
    have compensated := (starts _ attempt after split step
      (mem_flatMap.mpr ⟨attempt, by simp, logged⟩)).mem
        (mem_cons_of_mem _ (mem_singleton_self _))
    obtain ⟨owner, _, inside⟩ := mem_flatMap.mp compensated
    obtain rfl : attempt = owner := attemptLog_attempt inside
    obtain ⟨_, other, otherApplied, succeeded⟩ := rolledBack_mem_iff.mp
      ((mem_attemptLog_iff (by simp) (by simp)).mp inside)
    rwa [appliedSteps_unique otherApplied applied] at succeeded
  · intro compensate
    constructor
    · intro before attempt after split step member
      obtain ⟨owner, runs, part, rest, own, rfl⟩ := log_split _ _ split
      have started : SagaEvent.started (attempt + 1) ∈
          plan.attemptLog policy (allowedAttempts policy) owner := by
        simp [own]
      obtain rfl : attempt + 1 = owner := attemptLog_attempt started
      have earlier : SagaEvent.applied attempt step (.ok ()) ∉ part := by
        intro inside
        have same := attemptLog_attempt (own ▸ mem_append_left _ inside)
        simp [SagaEvent.attempt] at same
      exact (earlier_compensated compensate (fun other below => failing other (by omega))
        (by omega) attempt step ((mem_append.mp member).resolve_right earlier)).trans
          (sublist_append_left _ _)
    · intro before attempt step outcome after split earlier member
      obtain ⟨owner, _, part, _, own, rfl⟩ := log_split _ _ split
      have once : SagaEvent.applied earlier step (.ok ()) ∉ part := by
        intro inside
        have distinct := @attemptLog_applied_nodup _ plan owner policy (allowedAttempts policy)
        rw [own, filterMap_append, nodup_append] at distinct
        exact distinct.2.2 step (mem_filterMap.mpr ⟨_, inside, rfl⟩) step
          (mem_filterMap.mpr ⟨_, mem_cons_self, rfl⟩) rfl
      exact (earlier_compensated compensate (fun other below => failing other (by omega))
        (by omega) earlier step ((mem_append.mp member).resolve_right once)).trans
          (sublist_append_left _ _)

/-- A charge that succeeds and whose refund fails, before a shipment that fails. -/
def stuckRefund : TransactionPlan String where
  steps := [
    { name := "charge", apply := fun _ => .ok (), rollback := fun _ => .error "refund failed" },
    { name := "ship", apply := fun _ => .error "no stock", rollback := fun _ => .ok () }]

/-- The charge whose refund failed is applied again by the second attempt. -/
theorem stuckRefund_not_retrySafe :
    let policy : SagaRetryPolicy :=
      { maxAttempts := 2, initialBackoffMillis := 0, maxBackoffMillis := 0 }
    (stuckRefund.executeWithRetry policy).1 =
        [.started 0, .applied 0 0 (.ok ()), .applied 0 1 (.error "no stock"),
          .rolledBack 0 0 (.error "refund failed"),
          .started 1, .applied 1 0 (.ok ()), .applied 1 1 (.error "no stock"),
          .rolledBack 1 0 (.error "refund failed")] ∧
      ¬ RetrySafe (stuckRefund.executeWithRetry policy).1 := by
  intro policy
  refine ⟨rfl, fun safe => ?_⟩
  have compensated := safe.startsCompensated
    [.started 0, .applied 0 0 (.ok ()), .applied 0 1 (.error "no stock"),
      .rolledBack 0 0 (.error "refund failed")] 0 _ rfl 0 (by simp)
  have refunded := compensated.mem (mem_cons_of_mem _ (mem_singleton_self _))
  simp at refunded

end TransactionPlan

/-! ## The calls of a plan -/

/-- A call of one of the two closures of a step. -/
inductive SagaCall where
  | apply (step : Nat)
  | rollback (step : Nat)
deriving DecidableEq, Repr

def SagaEvent.call? : SagaEvent Error → Option SagaCall
  | .applied _ step _ => some (.apply step)
  | .rolledBack _ step _ => some (.rollback step)
  | _ => none

/-- The calls of a log, in order. -/
def callsOf (log : List (SagaEvent Error)) : List SagaCall := log.filterMap SagaEvent.call?

/-- The state that a log leads to, when each event has an effect. -/
def replay {State : Type} (effect : SagaEvent Error → State → State) (log : List (SagaEvent Error))
    (state : State) : State :=
  log.foldl (fun state event => effect event state) state

namespace TransactionPlan

/-- The step is the first one whose apply fails in this attempt. -/
structure FailsFirst (plan : TransactionPlan Error) (attempt step : Nat) (error : Error) : Prop where
  fails : ∃ action, plan.steps[step]? = some action ∧ action.apply attempt = .error error
  earlier : ∀ before < step, ∀ action, plan.steps[before]? = some action →
    action.apply attempt = .ok ()

theorem callsOf_applied (attempt : Nat) (steps : List (TransactionAction Error × Nat)) :
    callsOf (steps.map (fun step => .applied attempt step.2 (.ok () : Except Error Unit))) =
      (steps.map Prod.snd).map .apply := by
  simp [callsOf, filterMap_map, Function.comp_def, SagaEvent.call?]

theorem callsOf_failureEvents (attempt : Nat) (failing : TransactionAction Error × Nat)
    (applied : List (TransactionAction Error × Nat)) :
    callsOf (failureEvents attempt failing applied) =
      .apply failing.2 :: (applied.map Prod.snd).reverse.map .rollback := by
  simp [callsOf, failureEvents, filterMap_map, Function.comp_def, SagaEvent.call?]

variable {failing : TransactionAction Error × Nat}

/-- The steps that were applied, and the failing one after them, are the first of the plan. -/
theorem positions_of_initial {plan : TransactionPlan Error}
    {applied : List (TransactionAction Error × Nat)}
    (initial : applied ++ [failing] <+: plan.steps.zipIdx) :
    applied.map Prod.snd = List.range applied.length ∧ failing.2 = applied.length := by
  have positions := congrArg (List.map Prod.snd) (prefix_iff_eq_take.mp initial)
  have short := initial.length_le
  rw [length_append, length_singleton, length_zipIdx] at short
  rw [map_take, zipIdx_map_snd, ← range_eq_range', take_range, map_append,
    length_append, length_singleton, min_eq_left short, range_succ] at positions
  simp_all

theorem failsFirst_of_initial {plan : TransactionPlan Error} {attempt : Nat} {error : Error}
    (refused : failing.1.apply attempt = .error error)
    (initial : plan.appliedSteps attempt ++ [failing] <+: plan.steps.zipIdx) :
    plan.FailsFirst attempt (plan.appliedSteps attempt).length error := by
  obtain ⟨later, whole⟩ := initial
  have found (step : Nat) : (plan.appliedSteps attempt ++ [failing] ++ later)[step]? =
      plan.steps[step]?.map (·, step) := by
    rw [whole]
    simp
  refine ⟨⟨failing.1, ?_, refused⟩, fun before below action here => ?_⟩
  · grind
  · have applied := found before
    rw [append_assoc, getElem?_append_left below, here] at applied
    have succeeded := mem_takeWhile_imp (mem_of_getElem? applied)
    cases outcome : action.apply attempt with
    | ok => rfl
    | error => simp [Applies, outcome, Except.isOk, Except.toBool] at succeeded

/-- What was applied before a failure is undone, the last step first.

Proof: by induction on the applied steps; the first of them is undone last. -/
theorem replay_failure {State : Type} {effect : SagaEvent Error → State → State} {attempt : Nat}
    (undone : ∀ step outcome state, effect (.rolledBack attempt step outcome)
      (effect (.applied attempt step (.ok ())) state) = state)
    (idle : ∀ step error state, effect (.applied attempt step (.error error)) state = state)
    {error : Error} (refused : failing.1.apply attempt = .error error)
    (applied : List (TransactionAction Error × Nat)) (state : State) :
    replay effect (applied.map (fun step => .applied attempt step.2 (.ok ())) ++
      failureEvents attempt failing applied) state = state := by
  induction applied generalizing state with
  | nil => simp [replay, failureEvents, refused, idle]
  | cons first rest ih =>
    have inner := ih (effect (.applied attempt first.2 (.ok ())) state)
    simp only [replay, failureEvents, foldl_append, foldl_cons] at inner
    simp only [replay, failureEvents, map_cons, reverse_cons, map_append,
      foldl_append, foldl_cons, cons_append, inner]
    exact undone _ _ _

/-- What an attempt calls: without a failing step every apply in order; otherwise the applies up to the
first failing step, and the rollbacks of the steps before it in reverse order, whatever they answer. A
failing attempt leaves a state as it was if each rollback takes back its apply, and a failing apply does
nothing. The retry loop runs at least one attempt and at most as many as are allowed, and returns the
result of the last of them. -/
theorem saga_traced (plan : TransactionPlan Error) (attempt : Nat) :
    (¬ plan.Fails attempt →
      callsOf (plan.execute attempt).1 = (List.range plan.steps.length).map .apply ∧
        (plan.execute attempt).2 = .ok ()) ∧
    (plan.Fails attempt → ∃ step error, plan.FailsFirst attempt step error ∧
      callsOf (plan.execute attempt).1 =
        (List.range (step + 1)).map .apply ++ (List.range step).reverse.map .rollback ∧
      (plan.execute attempt).2 = .error error) ∧
    (∀ (State : Type) (effect : SagaEvent Error → State → State),
      (∀ step outcome state, effect (.rolledBack attempt step outcome)
        (effect (.applied attempt step (.ok ())) state) = state) →
      (∀ step error state, effect (.applied attempt step (.error error)) state = state) →
      plan.Fails attempt → ∀ state, replay effect (plan.execute attempt).1 state = state) ∧
    ∀ policy, ∃ last < max policy.maxAttempts.toNat 1,
      callsOf (plan.executeWithRetry policy).1 =
        (List.range (last + 1)).flatMap (fun attempt => callsOf (plan.execute attempt).1) ∧
      (plan.executeWithRetry policy).2 = some (plan.execute last).2 := by
  refine ⟨fun succeeds => ?_, fun fails => ?_, fun State effect undone idle fails state => ?_,
    fun policy => ?_⟩
  · rcases execute_cases plan attempt with ⟨-, executed⟩ | ⟨_, _, fails, -⟩
    · have all : plan.appliedSteps attempt = plan.steps.zipIdx := by
        refine takeWhile_eq_self_iff.mpr fun step member => ?_
        by_contra refused
        exact succeeds ⟨step.1, fst_mem_of_mem_zipIdx member, Bool.eq_false_iff.mpr refused⟩
      rw [executed, callsOf_applied, all, zipIdx_map_snd, ← range_eq_range']
      exact ⟨rfl, rfl⟩
    · exact absurd fails succeeds
  · rcases execute_cases plan attempt with ⟨succeeds, -⟩ | ⟨failing, error, -, refused, initial, executed⟩
    · exact absurd fails succeeds
    · obtain ⟨positions, last⟩ := positions_of_initial initial
      refine ⟨_, error, failsFirst_of_initial refused initial, ?_, by rw [executed]⟩
      rw [executed, callsOf, filterMap_append, ← callsOf, ← callsOf, callsOf_applied,
        callsOf_failureEvents, positions, last, range_succ, map_append, append_assoc]
      rfl
  · rcases execute_cases plan attempt with ⟨succeeds, -⟩ | ⟨_, _, -, refused, -, executed⟩
    · exact absurd fails succeeds
    · rw [executed]
      exact replay_failure undone idle refused _ state
  · obtain ⟨last, allowed, -, -, run⟩ := plan.executeWithRetry_eq policy
    refine ⟨last, allowed, ?_, by rw [run]⟩
    rw [run, callsOf, filterMap_flatMap]
    exact flatMap_congr fun other _ => filterMap_attemptLog _ (fun _ => rfl) (fun _ _ => rfl)

/-- Each apply counts up, each rollback counts down. -/
def counted : SagaEvent String → Int → Int
  | .applied _ _ (.ok ()), count => count + 1
  | .rolledBack _ _ _, count => count - 1
  | _, count => count

theorem saga_traced_stuckRefund :
    (∃ step error, stuckRefund.FailsFirst 0 step error ∧
        callsOf (stuckRefund.execute 0).1 =
          (List.range (step + 1)).map .apply ++ (List.range step).reverse.map .rollback) ∧
      replay counted (stuckRefund.execute 0).1 7 = 7 ∧
      ∃ last < max SagaRetryPolicy.default.maxAttempts.toNat 1,
        (stuckRefund.executeWithRetry .default).2 = some (stuckRefund.execute last).2 := by
  have fails : stuckRefund.Fails 0 := ⟨_, mem_cons_of_mem _ mem_cons_self, rfl⟩
  obtain ⟨-, traced, restores, retried⟩ := saga_traced stuckRefund 0
  obtain ⟨step, error, first, called, -⟩ := traced fails
  obtain ⟨last, allowed, -, returned⟩ := retried .default
  refine ⟨⟨step, error, first, called⟩, restores Int counted ?_ ?_ fails 7, last, allowed, returned⟩
  · exact fun step outcome count => add_sub_cancel_right count 1
  · exact fun step error count => rfl

end TransactionPlan

end Roze.Transaction
