import Roze.Config.Governance
import Roze.Library.ProcessPool

/-!
# Admission guards of routes and methods

A request to a route or a method asks the breaker and then the shedder. When both admit it,
it gets a guard. Finishing the guard records the outcome with the breaker and with the
shedder; a guard that is dropped before cancels its permit and returns its slot. Many
requests do so at once, over shared registries; each registry call is one step.

A call that opens a breaker or a cool-down beyond the clock panics after its effect. When
that happens while a guard is being finished, the guard is dropped, as it does not count as
finished yet. When it happens while a guard is being dropped, the rest of the drop is left
out.
-/

namespace Roze.Admission

open Roze.Library
open Roze.Resilience

/-- What is particular to the guards of a boundary: the requests, the keys and policies that
they have, and how an outcome is judged. -/
structure GuardFamily where
  Request : Type
  Outcome : Type
  key : Request → String
  policy : Request → GovernancePolicy
  succeeded : Outcome → Bool
  timely : ∀ request, Config.Timely (policy request)

/-! ## The two boundaries -/

/-- The policy of a request without a configuration. -/
def unprotected : GovernancePolicy where
  timeout := none
  retry := none
  rateLimit := none
  breaker := none
  shedding := none

/-- The policy of an operation, if there is a configuration. -/
def operationPolicy (governance : Option Config.GovernanceConfig) (operation : String) :
    GovernancePolicy :=
  match governance with
  | none => unprotected
  | some governance => governance.resolvePolicy operation

theorem operationPolicy_timely (governance : Option Config.GovernanceConfig) (operation : String) :
    Config.Timely (operationPolicy governance operation) := by
  cases governance with
  | none =>
    constructor
    · intro config configured
      cases configured
    · intro config configured
      cases configured
  | some governance => exact governance.resolvePolicy_timely operation

/-- The arguments of `begin_route`. -/
structure RouteRequest where
  service : String
  route : String
  method : String
  governance : Option Config.GovernanceConfig

def routePolicy (governance : Option Config.GovernanceConfig) (route : String) : GovernancePolicy :=
  operationPolicy governance route

/-- The arguments of `finish_route`. -/
structure RouteOutcome where
  success : Bool
  status : String

/-- Anything but a server error counts as a success. -/
def RouteOutcome.succeeded (outcome : RouteOutcome) : Bool :=
  outcome.success || !outcome.status.startsWith "5"

def routeGuards : GuardFamily where
  Request := RouteRequest
  Outcome := RouteOutcome
  key request := operationKey request.service .rest (request.method ++ ":" ++ request.route)
  policy request := routePolicy request.governance request.route
  succeeded := RouteOutcome.succeeded
  timely request := operationPolicy_timely request.governance request.route

/-- The arguments of `begin_method`. -/
structure MethodRequest where
  service : String
  method : String
  governance : Option Config.GovernanceConfig

def methodPolicy (governance : Option Config.GovernanceConfig) (method : String) : GovernancePolicy :=
  operationPolicy governance method

/-- A method finishes with a code. -/
def methodGuards : GuardFamily where
  Request := MethodRequest
  Outcome := String
  key request := operationKey request.service .rpc request.method
  policy request := methodPolicy request.governance request.method
  succeeded code := code = "ok"
  timely request := operationPolicy_timely request.governance request.method

/-- The boundaries with guards. -/
inductive GuardedBoundary where
  | rest
  | rpc

def GuardedBoundary.family : GuardedBoundary → GuardFamily
  | .rest => routeGuards
  | .rpc => methodGuards

/-! ## The steps of a guard -/

/-- Why a request was not admitted. -/
inductive AdmissionError where
  | circuitOpen (retryAfter : Duration)
  | loadShed
deriving DecidableEq

/-- Where a request stands. A guard that is alive has the permit as a field; so has one whose
outcome is recorded with the breaker, until it is finished. -/
inductive GuardStage where
  | entered
  | rejected (resetTimeout : Duration)
  | permitted (permit : Option BreakerPermit)
  | alive (permit : Option BreakerPermit)
  | recorded (permit : Option BreakerPermit) (success : Bool)
  | unwinding (permit : Option BreakerPermit)
  | cancelled
  /-- The error that was returned, and the permit that the request had then. -/
  | failed (error : AdmissionError) (permit : Option BreakerPermit)
  | finished
  | dropped
  | dropPanicked
deriving DecidableEq

/-- The request has returned an error, or its guard is finished or dropped. -/
def GuardStage.isOver : GuardStage → Bool
  | .failed _ _ => true
  | .finished => true
  | .dropped => true
  | _ => false

structure Guard (family : GuardFamily) where
  request : family.Request
  stage : GuardStage

/-- What happens next, with the reading of the clock. -/
inductive GuardAction (family : GuardFamily) where
  | askBreaker (now : Instant)
  | readRetryAfter (now : Instant)
  | askShedder (now : Instant)
  | finish (outcome : family.Outcome) (now : Instant)
  | record (elapsed : Duration) (now : Instant)
  | drop (now : Instant)
  | release

/-- The registry call that a step made. -/
inductive GuardCall where
  | none
  | breakerAllow (decision : BreakerDecision)
  | breakerRetryAfter
  | breakerResolve (completion : Completion)
  | sheddingAllow (allowed : Bool)
  | sheddingRecord (completion : Completion)
  | sheddingRelease
deriving DecidableEq

namespace Guard

variable {family : GuardFamily} (registries : AdmissionRegistries) (guard : Guard family)

def key : String := family.key guard.request

def policy : GovernancePolicy := family.policy guard.request

/-- The guard at another stage. -/
def moveTo (stage : GuardStage) : Guard family := { guard with stage }

/-- Ask the breaker, if there is one. -/
def askBreaker (now : Instant) : AdmissionRegistries × Guard family × GuardCall :=
  match guard.policy.breaker with
  | none => (registries, guard.moveTo (.permitted none), .none)
  | some config =>
      let allowed := registries.breakers.allow guard.key now
      let stage := match allowed.2 with
        | .allow permit => .permitted (some permit)
        | .reject => .rejected config.resetTimeout
      ({ registries with breakers := allowed.1 }, guard.moveTo stage, .breakerAllow allowed.2)

/-- The error of a request that the breaker rejected. -/
def readRetryAfter (resetTimeout : Duration) (now : Instant) :
    AdmissionRegistries × Guard family × GuardCall :=
  let retryAfter := (registries.breakers.retryAfter guard.key now).getD resetTimeout
  (registries, guard.moveTo (.failed (.circuitOpen retryAfter) none), .breakerRetryAfter)

/-- Ask the shedder, if there is one. A request that it refuses returns at once. -/
def askShedder (permit : Option BreakerPermit) (now : Instant) :
    AdmissionRegistries × Guard family × GuardCall :=
  match guard.policy.shedding with
  | none => (registries, guard.moveTo (.alive permit), .none)
  | some config =>
      let allowed := registries.shedders.allow guard.key config now
      let stage := if allowed.2 then .alive permit else .failed .loadShed permit
      ({ registries with shedders := allowed.1 }, guard.moveTo stage, .sheddingAllow allowed.2)

/-- Record the outcome with the breaker. -/
def finish (permit : Option BreakerPermit) (success : Bool) (now : Instant) :
    AdmissionRegistries × Guard family × GuardCall :=
  match guard.policy.breaker, permit with
  | some config, some own =>
      let resolved := registries.breakers.resolve guard.key own
        (if success then .success else .failure config now)
      let stage := match resolved.2 with
        | .returned => .recorded permit success
        | .panicked => .unwinding permit
      ({ registries with breakers := resolved.1 }, guard.moveTo stage, .breakerResolve resolved.2)
  | _, _ => (registries, guard.moveTo (.recorded permit success), .none)

/-- Record the outcome with the shedder; the guard is finished. -/
def record (permit : Option BreakerPermit) (success : Bool) (elapsed : Duration) (now : Instant) :
    AdmissionRegistries × Guard family × GuardCall :=
  match guard.policy.shedding with
  | none => (registries, guard.moveTo .finished, .none)
  | some config =>
      let recorded := registries.shedders.record guard.key success elapsed config now
      let stage := match recorded.2 with
        | .returned => .finished
        | .panicked => .unwinding permit
      ({ registries with shedders := recorded.1 }, guard.moveTo stage, .sheddingRecord recorded.2)

/-- Drop a guard that is not finished: cancel its permit. -/
def drop (permit : Option BreakerPermit) (now : Instant) :
    AdmissionRegistries × Guard family × GuardCall :=
  match guard.policy.breaker, permit with
  | some config, some own =>
      let resolved := registries.breakers.resolve guard.key own (.cancelled config now)
      let stage := match resolved.2 with
        | .returned => .cancelled
        | .panicked => .dropPanicked
      ({ registries with breakers := resolved.1 }, guard.moveTo stage, .breakerResolve resolved.2)
  | _, _ => (registries, guard.moveTo .cancelled, .none)

/-- Drop a guard that is not finished: return its slot. -/
def release : AdmissionRegistries × Guard family × GuardCall :=
  match guard.policy.shedding with
  | none => (registries, guard.moveTo .dropped, .none)
  | some _ =>
      ({ registries with shedders := registries.shedders.release guard.key },
        guard.moveTo .dropped, .sheddingRelease)

/-- One registry call of beginning, finishing or dropping. -/
def step (action : GuardAction family) : Option (AdmissionRegistries × Guard family × GuardCall) :=
  match guard.stage, action with
  | .entered, .askBreaker now => some (guard.askBreaker registries now)
  | .rejected resetTimeout, .readRetryAfter now =>
      some (guard.readRetryAfter registries resetTimeout now)
  | .permitted permit, .askShedder now => some (guard.askShedder registries permit now)
  | .alive permit, .finish outcome now =>
      some (guard.finish registries permit (family.succeeded outcome) now)
  | .recorded permit success, .record elapsed now =>
      some (guard.record registries permit success elapsed now)
  | .alive permit, .drop now => some (guard.drop registries permit now)
  | .unwinding permit, .drop now => some (guard.drop registries permit now)
  | .cancelled, .release => some (guard.release registries)
  | _, _ => none

end Guard

/-- The requests of a family. -/
def guards (family : GuardFamily) :
    Process AdmissionRegistries (Guard family) (GuardAction family) GuardCall where
  initial guard := guard.stage = .entered
  step registries guard action := guard.step registries action

/-! ## What a guard holds -/

/-- The permit that was taken and not resolved. -/
def GuardStage.permit : GuardStage → Option BreakerPermit
  | .permitted permit => permit
  | .alive permit => permit
  | .failed _ permit => permit
  | _ => none

namespace GuardCall

/-- The questions that a call puts to the breaker. -/
def asked : GuardCall → Nat
  | .breakerAllow _ => 1
  | _ => 0

/-- The permits that a call hands out. -/
def permitsTaken : GuardCall → Nat
  | .breakerAllow decision => decision.permit.isSome.toNat
  | _ => 0

def permitsResolved : GuardCall → Nat
  | .breakerResolve _ => 1
  | _ => 0

/-- A question yields at most one permit. -/
theorem permitsTaken_le_asked (call : GuardCall) : call.permitsTaken ≤ call.asked := by
  cases call with
  | breakerAllow => exact Bool.toNat_le _
  | _ => exact le_rfl

end GuardCall

/-- The action happens at an early reading. -/
def GuardAction.early {family : GuardFamily} : GuardAction family → Bool
  | .askBreaker now => now.early
  | .readRetryAfter now => now.early
  | .askShedder now => now.early
  | .finish _ now => now.early
  | .record _ now => now.early
  | .drop now => now.early
  | .release => true

end Roze.Admission
