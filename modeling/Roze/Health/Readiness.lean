import Roze.Library.Clock

/-!
# The readiness report of a service

The registered checks run side by side, each under a timeout and with its panics caught. The closure
of a check is called before the catching begins, so a panic there leaves the report.
-/

namespace Roze.Health

open Roze.Library

inductive HealthStatus where
  | healthy
  | degraded
  | unhealthy
deriving DecidableEq

/-- The worse of two statuses is the more severe one. -/
def HealthStatus.severity : HealthStatus → Nat
  | .healthy => 0
  | .degraded => 1
  | .unhealthy => 2

/-- The answer of a check. -/
structure HealthCheck where
  name : String
  status : HealthStatus
  message : Option String
deriving DecidableEq

namespace HealthCheck

def healthy (name : String) : HealthCheck := ⟨name, .healthy, none⟩

def degraded (name message : String) : HealthCheck := ⟨name, .degraded, some message⟩

def unhealthy (name message : String) : HealthCheck := ⟨name, .unhealthy, some message⟩

end HealthCheck

/-- What becomes of a check: its closure panics, its future does, it is not ready when the timeout has
passed, or it returns. -/
inductive CheckRun (Value : Type) where
  | panicsCalled
  | panicsPolled
  | unfinished
  | returns (value : Value)
deriving DecidableEq

/-- The closure that is registered for a dependency calls the check and reports its result. -/
def CheckRun.report (name : String) : CheckRun (Except String Unit) → CheckRun HealthCheck
  | .panicsCalled => .panicsCalled
  | .panicsPolled => .panicsPolled
  | .unfinished => .unfinished
  | .returns (.ok ()) => .returns (.healthy name)
  | .returns (.error error) => .returns (.unhealthy name error)

structure RegisteredCheck where
  name : String
  check : CheckRun HealthCheck

/-- How far the service is. -/
inductive ServicePhase where
  | starting
  | ready
  | draining

/-- The checks of a service. -/
structure HealthRegistry where
  checks : List RegisteredCheck
  startupComplete : Bool
  draining : Bool
  checkTimeout : Duration

namespace HealthRegistry

/-- Draining counts before anything else. -/
def phase (registry : HealthRegistry) : ServicePhase :=
  if registry.draining then .draining else if registry.startupComplete then .ready else .starting

/-- One more check, behind the others. -/
def registerCheck (registry : HealthRegistry) (name : String) (check : CheckRun HealthCheck) :
    HealthRegistry :=
  { registry with checks := registry.checks ++ [⟨name, check⟩] }

def registerDependency (registry : HealthRegistry) (name : String)
    (check : CheckRun (Except String Unit)) : HealthRegistry :=
  registry.registerCheck name (check.report name)

/-- The answer of one check; none where a panic goes through. -/
def runCheck (timeout : Duration) (registered : RegisteredCheck) : Option HealthCheck :=
  match registered.check with
  | .panicsCalled => none
  | .panicsPolled => some (.unhealthy registered.name "health check panicked")
  | .unfinished => some (.unhealthy registered.name
      ("health check timed out after " ++ toString timeout.asMillis ++ "ms"))
  | .returns check => some (if check.name = "" then { check with name := registered.name } else check)

/-- All answers, in the order of the checks. -/
def runRegisteredChecks (registry : HealthRegistry) : Option (List HealthCheck) :=
  registry.checks.mapM (runCheck registry.checkTimeout)

/-- The answer of the phase itself. -/
def phaseChecks (registry : HealthRegistry) : List HealthCheck :=
  match registry.phase with
  | .starting => [.unhealthy "phase" "starting"]
  | .ready => [.healthy "phase"]
  | .draining => [.degraded "phase" "draining"]

/-- The phase and all checks. -/
def readinessReport (registry : HealthRegistry) : Option (List HealthCheck) :=
  registry.runRegisteredChecks.map (registry.phaseChecks ++ ·)

end HealthRegistry

open HealthRegistry

/-- The worst answer. -/
def overallStatus (checks : List HealthCheck) : HealthStatus :=
  if checks.any (·.status = .unhealthy) then .unhealthy
  else if checks.any (·.status = .degraded) then .degraded
  else .healthy

/-! ## The overall status -/

/-- Some entry has the overall status, and none has a worse one. -/
theorem overallStatus_worst (first : HealthCheck) (rest : List HealthCheck) :
    (∃ check ∈ first :: rest, check.status = overallStatus (first :: rest)) ∧
      ∀ check ∈ first :: rest, check.status.severity ≤ (overallStatus (first :: rest)).severity := by
  generalize entries : first :: rest = checks
  have ranked (status : HealthStatus) : status.severity ≤ 2 := by cases status <;> decide
  simp only [overallStatus, List.any_eq_true, decide_eq_true_eq]
  split_ifs with failing weak
  · exact ⟨failing, fun check _ => ranked check.status⟩
  · refine ⟨weak, fun check member => ?_⟩
    cases status : check.status with
    | unhealthy => simp_all
    | healthy | degraded => decide
  · have fine (check : HealthCheck) (member : check ∈ checks) : check.status = .healthy := by
      cases status : check.status with
      | healthy => rfl
      | unhealthy | degraded => simp_all
    have member : first ∈ checks := entries ▸ List.mem_cons_self
    grind

/-! ## The entries -/

abbrev Dependency := String × CheckRun (Except String Unit)

def HealthRegistry.registerAll (registry : HealthRegistry) (dependencies : List Dependency) :
    HealthRegistry :=
  dependencies.foldl (fun registry item => registry.registerDependency item.1 item.2) registry

/-- The entry of a dependency has its name, and is healthy only for a check that said so. -/
def Describes (item : Dependency) (entry : HealthCheck) : Prop :=
  entry.name = item.1 ∧ (entry.status = .healthy ↔ item.2 = .returns (.ok ()))

/-- The checks of the dependencies, in order. -/
theorem registerAll_eq (registry : HealthRegistry) (dependencies : List Dependency) :
    registry.registerAll dependencies = { registry with
      checks := registry.checks ++ dependencies.map fun item => ⟨item.1, item.2.report item.1⟩ } := by
  induction dependencies generalizing registry with
  | nil => simp [registerAll]
  | cons item dependencies ih =>
    rw [registerAll, List.foldl_cons, ← registerAll, ih]
    simp [registerDependency, registerCheck]

/-- Only a panic of the closure goes through. -/
theorem runCheck_dependency (timeout : Duration) (item : Dependency) :
    (∃ entry, runCheck timeout ⟨item.1, item.2.report item.1⟩ = some entry ∧ Describes item entry) ↔
      item.2 ≠ .panicsCalled := by
  obtain ⟨name, check⟩ := item
  constructor
  · rintro ⟨_, ran, -⟩ rfl
    cases ran
  · intro calm
    cases check with
    | panicsCalled => exact absurd rfl calm
    | panicsPolled | unfinished => exact ⟨_, rfl, rfl, nofun, nofun⟩
    | returns value =>
      cases value with
      | ok => exact ⟨_, congrArg some (ite_self _), rfl, iff_of_true rfl rfl⟩
      | error => exact ⟨_, congrArg some (ite_self _), rfl, nofun, nofun⟩

/-- The report has an answer for each dependency, if none takes it down. -/
theorem mapM_runCheck (timeout : Duration) (dependencies : List Dependency) :
    (∃ entries, (dependencies.map fun item => (⟨item.1, item.2.report item.1⟩ : RegisteredCheck)).mapM
      (runCheck timeout) = some entries ∧ List.Forall₂ Describes dependencies entries) ↔
      ∀ item ∈ dependencies, item.2 ≠ .panicsCalled := by
  induction dependencies with
  | nil => simp
  | cons item dependencies ih =>
    rw [List.forall_mem_cons, ← runCheck_dependency timeout, ← ih, List.map_cons, List.mapM_cons]
    constructor
    · rintro ⟨entries, ran, described⟩
      obtain ⟨first, one, rest⟩ := Option.bind_eq_some_iff.mp ran
      obtain ⟨others, more, same⟩ := Option.bind_eq_some_iff.mp rest
      cases same
      cases described with
      | cons own later => simp_all
    · rintro ⟨⟨first, one, own⟩, others, more, later⟩
      exact ⟨first :: others, by rw [one, more]; rfl, .cons own later⟩

/-- A report has the entry of the phase and one for every dependency, in order, and its status is the
worst of them, if and only if no dependency panics when its closure is called. -/
theorem readiness_isolated_iff (startupComplete draining : Bool) (timeout : Duration)
    (dependencies : List Dependency) :
    let registry := HealthRegistry.registerAll ⟨[], startupComplete, draining, timeout⟩ dependencies
    (∃ phase entries, registry.phaseChecks = [phase] ∧
      registry.readinessReport = some (phase :: entries) ∧
      List.Forall₂ Describes dependencies entries ∧
      (∃ check ∈ phase :: entries, check.status = overallStatus (phase :: entries)) ∧
      ∀ check ∈ phase :: entries, check.status.severity ≤ (overallStatus (phase :: entries)).severity) ↔
      ∀ item ∈ dependencies, item.2 ≠ .panicsCalled := by
  intro registry
  have same : registry = _ := registerAll_eq _ dependencies
  obtain ⟨phase, single⟩ : ∃ phase, registry.phaseChecks = [phase] := by
    unfold phaseChecks
    split <;> exact ⟨_, rfl⟩
  rw [← mapM_runCheck timeout, readinessReport, single]
  simp only [runRegisteredChecks, same]
  constructor
  · rintro ⟨_, entries, own, ran, described, -⟩
    obtain ⟨found, more, whole⟩ := Option.map_eq_some_iff.mp ran
    cases whole
    exact ⟨_, more, described⟩
  · rintro ⟨entries, more, described⟩
    exact ⟨phase, entries, rfl, by rw [List.nil_append, more]; rfl, described,
      overallStatus_worst phase entries⟩

/-- A closure that panics takes the whole report with it. -/
theorem readiness_lost : (HealthRegistry.registerAll ⟨[], true, false, .second⟩
    [("db", .returns (.ok ())), ("cache", .panicsCalled)]).readinessReport = none := rfl

/-- One that answers, one that panics, one that hangs. -/
theorem readiness_isolated_iff_mixed :
    ∃ entries, List.Forall₂ Describes
        [("db", .returns (.ok ())), ("cache", .panicsPolled), ("queue", .unfinished)] entries := by
  obtain ⟨_, entries, _, _, described, _⟩ := (readiness_isolated_iff true false .second _).mpr
    (by decide : ∀ item ∈ [("db", .returns (.ok ())), ("cache", .panicsPolled), ("queue", .unfinished)],
      item.2 ≠ (.panicsCalled : CheckRun (Except String Unit)))
  exact ⟨entries, described⟩

end Roze.Health
