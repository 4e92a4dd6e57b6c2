import Roze.Admission.Ledger
import Roze.Context.Propagation
import Roze.Http.HeaderMap

/-!
# Requests through the gateway

`handle_inner`, from the rate limit check of a request that was routed and authenticated to its
response. The request asks the breaker and the shedder. A WebSocket upgrade is then proxied; any
other request has its body collected and is sent upstream, again after a delay when the answer may
be retried. The outcome is recorded with the breaker and with the shedder.

The future of a request can be dropped wherever it awaits. What runs then is the `Drop` of the
locals that are alive. The slot of the shedder is in a guard that releases it; the permit of the
breaker is a plain value.

The answers of the rate limiter, of the upstream and of the retry budget, the collected body, the
sample of the delay and the cancellation of the context are part of the actions. A registry call
that goes beyond the clock panics after its effect, and the unwinding drops the guard.
-/

namespace Roze.Gateway

open Roze.Admission
open Roze.Http
open Roze.Library
open Roze.Resilience

/-! ## Answers -/

/-- What the rate limiter answers; the last two are its errors. -/
inductive RateLimitAnswer where
  | allowed
  | rejected
  | storeUnavailable
  | identityRejected
deriving DecidableEq

inductive UpstreamError where
  | timeout
  | request (error : String)
  | unavailable (error : String)
  | streamCapacity
  | protocol (error : String)
deriving DecidableEq

/-- An answer of the upstream; of a response only the status counts. -/
inductive UpstreamResult where
  | ok (status : UInt16)
  | err (error : UpstreamError)
deriving DecidableEq

/-- The outcomes that `finish_response` is told. -/
inductive Outcome where
  | rateLimited
  | rateLimitUnavailable
  | breakerOpen
  | loadShed
  | websocketUpgraded
  | websocketTimeout
  | websocketFailed
  | bodyTooLarge
  | badRequestBody
  | upstreamServerError
  | ok
  | timeout
  | upstreamFailed
  | upstreamUnavailable
  | streamCapacity
deriving DecidableEq

def isServerError (status : UInt16) : Bool := 500 ≤ status && status < 600

def retryableGatewayStatus (status : UInt16) : Bool :=
  status = 500 || status = 502 || status = 503 || status = 504

namespace UpstreamResult

def retryReason : UpstreamResult → Option String
  | .ok status =>
      if retryableGatewayStatus status then some ("status_" ++ toString status.toNat) else none
  | .err .timeout => some "timeout"
  | .err (.request _) => some "upstream_error"
  | .err (.unavailable _) => some "unavailable"
  | .err _ => none

/-- How an answer counts; too many streams are not the upstream's fault. -/
def succeeded : UpstreamResult → Bool
  | .ok status => !isServerError status
  | .err error => error = .streamCapacity

def outcome : UpstreamResult → Outcome
  | .ok status => if isServerError status then .upstreamServerError else .ok
  | .err .timeout => .timeout
  | .err (.request _) => .upstreamFailed
  | .err (.unavailable _) => .upstreamUnavailable
  | .err (.protocol _) => .upstreamUnavailable
  | .err .streamCapacity => .streamCapacity

/-- How an answer to an upgrade counts; only switching protocols is a success. -/
def upgraded : UpstreamResult → Bool
  | .ok status => status = 101
  | .err error => error = .streamCapacity

def websocketOutcome : UpstreamResult → Outcome
  | .ok _ => .websocketUpgraded
  | .err .streamCapacity => .streamCapacity
  | .err .timeout => .websocketTimeout
  | .err _ => .websocketFailed

end UpstreamResult

/-! ## Requests -/

/-- The route of the requests. -/
structure CompiledRoute where
  path : String
  service : String
  retries : Nat
  retryBackoff : Duration
  retryMaxBackoff : Duration
  rateLimit : Option Config.RateLimitConfig
  breaker : Option Config.BreakerConfig
  shedding : Option Config.SheddingConfig

/-- A runtime and the one route that matters here. -/
structure GatewayRuntime where
  route : CompiledRoute
  requestBodyLimitBytes : Nat

/-- Where a request stands. From the permit on, the stages have it as a local. -/
inductive RequestStage where
  | entered
  | limited
  | permitted (permit : Option BreakerPermit)
  /-- The shedder refused. -/
  | shed (permit : Option BreakerPermit)
  | proxying (permit : Option BreakerPermit)
  | collecting (permit : Option BreakerPermit)
  /-- There is no body that can be sent. -/
  | refused (permit : Option BreakerPermit) (outcome : Outcome)
  | sending (permit : Option BreakerPermit) (retries : Nat)
  | answered (permit : Option BreakerPermit) (retries : Nat) (result : UpstreamResult)
  | sleeping (permit : Option BreakerPermit) (retries : Nat) (result : UpstreamResult)
      (delay : Duration)
  | finishing (permit : Option BreakerPermit) (success : Bool) (outcome : Outcome)
  | recorded (success : Bool) (outcome : Outcome)
  /-- Returning with the guard still alive. -/
  | leaving (outcome : Outcome)
  | unwinding
  | returned (outcome : Outcome)
  /-- The permit is the one that the future had when it was dropped. -/
  | dropped (permit : Option BreakerPermit)
  | panicked
deriving DecidableEq

structure GatewayRequest where
  method : String
  headers : RequestHeaders
  context : Context
  stage : RequestStage

/-- What happens next, with what the outside answers and the clock shows. -/
inductive RequestAction where
  | limit (answer : RateLimitAnswer)
  | askBreaker (now : Instant)
  | askShedder (now : Instant)
  | proxy (result : UpstreamResult)
  /-- The length of the body, unless it cannot be read. -/
  | collect (length : Option Nat)
  | cancelBreaker (now : Instant)
  | send (result : UpstreamResult)
  | retry (allowed : Bool) (sample : UInt64) (cancelled : Bool) (now : Instant)
  | wake (cancelled : Bool) (now : Instant)
  | finishBreaker (now : Instant)
  | finishGuard (elapsed : Duration) (now : Instant)
  | dropGuard
  /-- The future is dropped. -/
  | drop
deriving DecidableEq

def isIdempotentMethod (method : String) : Bool :=
  ["GET", "HEAD", "PUT", "DELETE", "OPTIONS", "TRACE"].contains method

def isWebsocketUpgrade (headers : RequestHeaders) : Bool :=
  ((headers.get "upgrade").bind HeaderValue.toStr).any
      (fun value => eqIgnoreAsciiCase value "websocket") &&
    ((headers.get "connection").bind HeaderValue.toStr).any
      (fun value => (splitParts ',' value).any
        (fun part => eqIgnoreAsciiCase (trim part) "upgrade"))

def retryContextExhausted (context : Context) (cancelled : Bool) (delay : Duration)
    (now : Instant) : Bool :=
  cancelled || context.deadline.isSome &&
    (context.remainingTimeout now).all (fun remaining => remaining ≤ delay)

namespace RequestStage

/-- The permit that was taken and not resolved. -/
def permit : RequestStage → Option BreakerPermit
  | .permitted permit => permit
  | .shed permit => permit
  | .proxying permit => permit
  | .collecting permit => permit
  | .refused permit _ => permit
  | .sending permit _ => permit
  | .answered permit _ _ => permit
  | .sleeping permit _ _ _ => permit
  | .finishing permit _ _ => permit
  | .dropped permit => permit
  | _ => none

/-- The guard of the slot is alive, if the route sheds load. -/
def slot (shedding : Bool) : RequestStage → Bool
  | .proxying _ => shedding
  | .collecting _ => shedding
  | .refused _ _ => shedding
  | .sending _ _ => shedding
  | .answered _ _ _ => shedding
  | .sleeping _ _ _ _ => shedding
  | .finishing _ _ _ => shedding
  | .recorded _ _ => shedding
  | .leaving _ => shedding
  | .unwinding => shedding
  | _ => false

/-- The future can be dropped here: it has not started, or it awaits. There is no sleep without a
delay. -/
def suspended : RequestStage → Bool
  | .entered => true
  | .proxying _ => true
  | .collecting _ => true
  | .sending _ _ => true
  | .sleeping _ _ _ delay => delay ≠ .zero
  | _ => false

/-- The request is not in flight any more. -/
def isOver : RequestStage → Bool
  | .returned _ => true
  | .dropped _ => true
  | .panicked => true
  | _ => false

end RequestStage

namespace GatewayRuntime

variable (runtime : GatewayRuntime)

def key (request : GatewayRequest) : String :=
  operationKey runtime.route.service .gateway (request.method ++ ":" ++ runtime.route.path)

def maxRetries (request : GatewayRequest) : Nat :=
  if isIdempotentMethod request.method then runtime.route.retries else 0

section Steps

variable (registries : AdmissionRegistries) (request : GatewayRequest)

/-- Past the rate limiter, or back with its refusal. -/
def limit (answer : RateLimitAnswer) : RequestStage :=
  match runtime.route.rateLimit, answer with
  | none, _ => .limited
  | some _, .allowed => .limited
  | some _, .rejected => .returned .rateLimited
  | some _, .storeUnavailable => .returned .rateLimitUnavailable
  | some _, .identityRejected => .returned .rateLimited

/-- Ask the breaker, if there is one. -/
def askBreaker (now : Instant) : AdmissionRegistries × RequestStage × GuardCall :=
  match runtime.route.breaker with
  | none => (registries, .permitted none, .none)
  | some _ =>
      let allowed := registries.breakers.allow (runtime.key request) now
      let stage := match allowed.2 with
        | .allow permit => .permitted (some permit)
        | .reject => .returned .breakerOpen
      ({ registries with breakers := allowed.1 }, stage, .breakerAllow allowed.2)

/-- What an admitted request does first. -/
def begin (permit : Option BreakerPermit) : RequestStage :=
  if isWebsocketUpgrade request.headers then .proxying permit else .collecting permit

/-- Ask the shedder, if there is one. -/
def askShedder (permit : Option BreakerPermit) (now : Instant) :
    AdmissionRegistries × RequestStage × GuardCall :=
  match runtime.route.shedding with
  | none => (registries, begin request permit, .none)
  | some config =>
      let allowed := registries.shedders.allow (runtime.key request) config.policy now
      let stage := if allowed.2 then begin request permit else .shed permit
      ({ registries with shedders := allowed.1 }, stage, .sheddingAllow allowed.2)

/-- Resolve the permit, if there is one, and go on; where a panic leads depends on whether there
can be a guard. -/
def resolveBreaker (permit : Option BreakerPermit) (resolution : BreakerConfig → Resolution)
    (next unwound : RequestStage) : AdmissionRegistries × RequestStage × GuardCall :=
  match permit, runtime.route.breaker with
  | some own, some config =>
      let resolved := registries.breakers.resolve (runtime.key request) own
        (resolution config.policy)
      let stage := match resolved.2 with
        | .returned => next
        | .panicked => unwound
      ({ registries with breakers := resolved.1 }, stage, .breakerResolve resolved.2)
  | _, _ => (registries, next, .none)

/-- Cancel the permit. -/
def cancelBreaker (permit : Option BreakerPermit) (now : Instant) (next unwound : RequestStage) :
    AdmissionRegistries × RequestStage × GuardCall :=
  runtime.resolveBreaker registries request permit (.cancelled · now) next unwound

/-- Record the outcome with the breaker. -/
def finishBreaker (permit : Option BreakerPermit) (success : Bool) (outcome : Outcome)
    (now : Instant) : AdmissionRegistries × RequestStage × GuardCall :=
  runtime.resolveBreaker registries request permit
    (fun config => if success then .success else .failure config now)
    (.recorded success outcome) .unwinding

/-- The body was collected, or not. -/
def collect (permit : Option BreakerPermit) : Option Nat → RequestStage
  | none => .refused permit .badRequestBody
  | some length =>
      if runtime.requestBodyLimitBytes < length then .refused permit .bodyTooLarge
      else .sending permit 0

/-- The upstream has answered. -/
def send (permit : Option BreakerPermit) (retries : Nat) (result : UpstreamResult) : RequestStage :=
  if result.retryReason.isSome && retries < runtime.maxRetries request then
    .answered permit retries result
  else .finishing permit result.succeeded result.outcome

/-- Try again after a delay, unless the retry budget or the context is exhausted. -/
def retry (permit : Option BreakerPermit) (retries : Nat) (result : UpstreamResult)
    (allowed : Bool) (sample : UInt64) (cancelled : Bool) (now : Instant) : RequestStage :=
  let delay := fullJitterDelay runtime.route.retryBackoff runtime.route.retryMaxBackoff
    (retries + 1) sample
  if allowed && !retryContextExhausted request.context cancelled delay now then
    .sleeping permit (retries + 1) result delay
  else .finishing permit result.succeeded result.outcome

/-- The delay is over. -/
def wake (permit : Option BreakerPermit) (retries : Nat) (result : UpstreamResult)
    (cancelled : Bool) (now : Instant) : RequestStage :=
  if retryContextExhausted request.context cancelled .zero now then
    .finishing permit result.succeeded result.outcome
  else .sending permit retries

/-- `GatewaySheddingGuard::finish`, if there is a guard. When the record panics, the guard does not
count as finished yet. -/
def finishGuard (success : Bool) (outcome : Outcome) (elapsed : Duration) (now : Instant) :
    AdmissionRegistries × RequestStage × GuardCall :=
  match runtime.route.shedding with
  | none => (registries, .returned outcome, .none)
  | some config =>
      let recorded := registries.shedders.record (runtime.key request) success elapsed
        config.policy now
      let stage := match recorded.2 with
        | .returned => .returned outcome
        | .panicked => .unwinding
      ({ registries with shedders := recorded.1 }, stage, .sheddingRecord recorded.2)

/-- Drop the guard of a slot, if it is alive. -/
def dropGuard (next : RequestStage) : AdmissionRegistries × RequestStage × GuardCall :=
  if request.stage.slot runtime.route.shedding.isSome then
    ({ registries with shedders := registries.shedders.release (runtime.key request) }, next,
      .sheddingRelease)
  else (registries, next, .none)

/-- `handle_inner`, one registry call or one answer from outside at a time. -/
def advance (action : RequestAction) : Option (AdmissionRegistries × RequestStage × GuardCall) :=
  match request.stage, action with
  | .entered, .limit answer => some (registries, runtime.limit answer, .none)
  | .limited, .askBreaker now => some (runtime.askBreaker registries request now)
  | .permitted permit, .askShedder now => some (runtime.askShedder registries request permit now)
  | .shed permit, .cancelBreaker now =>
      some (runtime.cancelBreaker registries request permit now (.returned .loadShed) .panicked)
  | .proxying permit, .proxy result =>
      some (registries, .finishing permit result.upgraded result.websocketOutcome, .none)
  | .collecting permit, .collect length => some (registries, runtime.collect permit length, .none)
  | .refused permit outcome, .cancelBreaker now =>
      some (runtime.cancelBreaker registries request permit now (.leaving outcome) .unwinding)
  | .sending permit retries, .send result =>
      some (registries, runtime.send request permit retries result, .none)
  | .answered permit retries result, .retry allowed sample cancelled now =>
      some (registries,
        runtime.retry request permit retries result allowed sample cancelled now, .none)
  | .sleeping permit retries result _, .wake cancelled now =>
      some (registries, wake request permit retries result cancelled now, .none)
  | .finishing permit success outcome, .finishBreaker now =>
      some (runtime.finishBreaker registries request permit success outcome now)
  | .recorded success outcome, .finishGuard elapsed now =>
      some (runtime.finishGuard registries request success outcome elapsed now)
  | .leaving outcome, .dropGuard => some (runtime.dropGuard registries request (.returned outcome))
  | .unwinding, .dropGuard => some (runtime.dropGuard registries request .panicked)
  | stage, .drop =>
      if stage.suspended then some (runtime.dropGuard registries request (.dropped stage.permit))
      else none
  | _, _ => none

/-- The request at its next stage. -/
def step (action : RequestAction) : Option (AdmissionRegistries × GatewayRequest × GuardCall) :=
  (runtime.advance registries request action).map (fun taken =>
    (taken.1, { request with stage := taken.2.1 }, taken.2.2))

end Steps

/-- The requests on the route. -/
def requests : Process AdmissionRegistries GatewayRequest RequestAction GuardCall where
  initial request := request.stage = .entered
  step registries request action := runtime.step registries request action

end GatewayRuntime

/-- The action happens at an early reading. -/
def RequestAction.early : RequestAction → Bool
  | .askBreaker now => now.early
  | .askShedder now => now.early
  | .cancelBreaker now => now.early
  | .retry _ _ _ now => now.early
  | .wake _ now => now.early
  | .finishBreaker now => now.early
  | .finishGuard _ now => now.early
  | _ => true

end Roze.Gateway
