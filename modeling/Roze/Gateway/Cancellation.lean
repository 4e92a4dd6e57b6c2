import Roze.Gateway.Request

/-!
# Dropped requests of the gateway

A request is dropped while it waits for the rate limiter, for its body, for the upstream, for the
end of a delay or for a WebSocket. Its slot goes back to the shedder, by the guard. Its permit does
not go back to the breaker: only the calls before a return resolve it. So each permit is resolved
exactly when no request is dropped that holds one. A probe that is lost leaves the breaker half
open, and the route rejects every later request.
-/

namespace Roze.Gateway

open Roze.Admission
open Roze.Library
open Roze.Resilience

/-! ## What a step does -/

namespace RequestStage

/-- The permit that a dropped request had. -/
def lost : RequestStage → Option BreakerPermit
  | .dropped permit => permit
  | _ => none

/-- The questions to the breaker that are behind. -/
def pastBreaker : RequestStage → Nat
  | .entered => 0
  | .limited => 0
  | _ => 1

/-- The questions to the shedder that are behind. -/
def pastShedder : RequestStage → Nat
  | .entered => 0
  | .limited => 0
  | .permitted _ => 0
  | _ => 1

theorem pastBreaker_le_one (stage : RequestStage) : stage.pastBreaker ≤ 1 := by
  unfold pastBreaker
  split <;> decide

theorem pastShedder_le_one (stage : RequestStage) : stage.pastShedder ≤ 1 := by
  unfold pastShedder
  split <;> decide

/-- From the answer of the shedder until the outcome is recorded with the breaker. -/
def isAdmitted : RequestStage → Bool
  | .proxying _ => true
  | .collecting _ => true
  | .refused _ _ => true
  | .sending _ _ => true
  | .answered _ _ _ => true
  | .sleeping _ _ _ _ => true
  | .finishing _ _ _ => true
  | _ => false

/-- A request that is over holds what it has lost. -/
theorem holds_of_over {stage : RequestStage} (ended : stage.isOver = true) (shedding : Bool) :
    stage.permit = stage.lost ∧ stage.slot shedding = false := by
  cases stage with
  | returned | dropped | panicked => exact ⟨rfl, rfl⟩
  | _ => cases ended

theorem over_of_lost {stage : RequestStage} {permit : BreakerPermit}
    (lost : stage.lost = some permit) : stage.isOver = true := by
  unfold RequestStage.lost at lost
  split at lost
  · rfl
  · cases lost

end RequestStage

open RequestStage

namespace GatewayRuntime

variable (runtime : GatewayRuntime)

/-- What a request holds of the registries at a stage. -/
def holding (request : GatewayRequest) (stage : RequestStage) : Holding where
  key := runtime.key request
  permit := stage.permit
  slot := stage.slot runtime.route.shedding.isSome

/-- The shedding configuration of all keys of the route; without one it does not matter. -/
def sheddingConfigs (_ : String) : SheddingConfig :=
  match runtime.route.shedding with
  | none => ⟨0, .zero, 0, .zero, 0, .zero⟩
  | some config => config.policy

/-- A permit comes from a configured breaker, and no registry call panicked. -/
structure Sound (stage : RequestStage) : Prop where
  configured : stage.permit.isSome → runtime.route.breaker.isSome
  calm : stage ≠ .unwinding

/-- What holds of an early step from a sound stage. -/
structure Advances (registries : AdmissionRegistries) (request : GatewayRequest)
    (stage : RequestStage) (next : AdmissionRegistries × RequestStage × GuardCall) : Prop where
  effect : (runtime.holding request stage).Effect runtime.sheddingConfigs registries next.1
    (runtime.holding request next.2.1) next.2.2
  sound : runtime.Sound next.2.1
  breaker : stage.pastBreaker + next.2.2.permitsTaken ≤ next.2.1.pastBreaker
  shedder : stage.pastShedder + next.2.2.slotsTaken ≤ next.2.1.pastShedder

variable {runtime} {registries : AdmissionRegistries} {request : GatewayRequest}
variable {stage next : RequestStage} {action : RequestAction}

/-- A step without a registry call keeps what the request holds. -/
theorem Advances.silent (sound : runtime.Sound stage) (samePermit : next.permit = stage.permit)
    (sameSlot : next.slot runtime.route.shedding.isSome = stage.slot runtime.route.shedding.isSome)
    (calm : next ≠ .unwinding) (breaker : stage.pastBreaker ≤ next.pastBreaker)
    (shedder : stage.pastShedder ≤ next.pastShedder) :
    runtime.Advances registries request stage (registries, next, .none) where
  effect := by
    have same : runtime.holding request next = runtime.holding request stage := by
      rw [holding, holding, samePermit, sameSlot]
    rw [same]
    exact .silent
  sound := ⟨fun held => sound.configured (samePermit ▸ held), calm⟩
  breaker := breaker
  shedder := shedder

theorem limit_advances (answer : RateLimitAnswer) (sound : runtime.Sound .entered) :
    runtime.Advances registries request .entered
      (registries, runtime.limit answer, .none) := by
  unfold limit
  split
  all_goals exact .silent sound rfl rfl nofun (Nat.zero_le _) (Nat.zero_le _)

theorem askBreaker_advances (now : Instant) (sound : runtime.Sound .limited) :
    runtime.Advances registries request .limited
      (runtime.askBreaker registries request now) := by
  unfold askBreaker
  split
  · exact .silent sound rfl rfl nofun (Nat.zero_le _) le_rfl
  · rename_i configured
    have asked : (runtime.holding request .limited).Effect runtime.sheddingConfigs registries _ _ _ :=
      .admission now rfl
    have known : runtime.route.breaker.isSome := by rw [configured]; rfl
    simp only [holding] at asked ⊢
    cases decision : (registries.breakers.allow (runtime.key request) now).2 with
    | allow =>
      rw [decision] at asked
      exact ⟨asked, ⟨fun _ => known, nofun⟩, le_rfl, le_rfl⟩
    | reject =>
      rw [decision] at asked
      exact ⟨asked, ⟨nofun, nofun⟩, Nat.zero_le _, Nat.zero_le _⟩

/-- An admitted request has its permit and its guard. -/
structure Admitted (permit : Option BreakerPermit) (stage : RequestStage) : Prop where
  permit : stage.permit = permit
  slot : ∀ shedding, stage.slot shedding = shedding
  calm : stage ≠ .unwinding
  kept : stage.lost = none
  breaker : stage.pastBreaker = 1
  shedder : stage.pastShedder = 1

variable {permit : Option BreakerPermit}

theorem Admitted.of_stage (admitted : stage.isAdmitted = true) (own : stage.permit = permit) :
    Admitted permit stage := by
  subst own
  cases stage with
  | proxying | collecting | refused | sending | answered | sleeping | finishing =>
    exact ⟨rfl, fun _ => rfl, nofun, rfl, rfl, rfl⟩
  | _ => cases admitted

/-- Between the admission and the end only the stage changes. -/
theorem Admitted.advances (before : Admitted permit stage) (after : Admitted permit next)
    (sound : runtime.Sound stage) :
    runtime.Advances registries request stage (registries, next, .none) := by
  refine .silent sound ?_ ?_ after.calm ?_ ?_
  · rw [after.permit, before.permit]
  · rw [after.slot, before.slot]
  · rw [after.breaker, before.breaker]
  · rw [after.shedder, before.shedder]

theorem begin_admitted (request : GatewayRequest) (permit : Option BreakerPermit) :
    Admitted permit (begin request permit) := by
  unfold begin
  split <;> exact .of_stage rfl rfl

theorem collect_admitted (permit : Option BreakerPermit) (length : Option Nat) :
    Admitted permit (runtime.collect permit length) := by
  unfold collect
  split
  · exact .of_stage rfl rfl
  · split
    · exact .of_stage rfl rfl
    · exact .of_stage rfl rfl

theorem send_admitted (request : GatewayRequest) (permit : Option BreakerPermit) (retries : Nat)
    (result : UpstreamResult) : Admitted permit (runtime.send request permit retries result) := by
  unfold send
  split <;> exact .of_stage rfl rfl

theorem retry_admitted (request : GatewayRequest) (permit : Option BreakerPermit) (retries : Nat)
    (result : UpstreamResult) (allowed : Bool) (sample : UInt64) (cancelled : Bool) (now : Instant) :
    Admitted permit
      (runtime.retry request permit retries result allowed sample cancelled now) := by
  unfold retry
  simp only
  split <;> exact .of_stage rfl rfl

theorem wake_admitted (request : GatewayRequest) (permit : Option BreakerPermit) (retries : Nat)
    (result : UpstreamResult) (cancelled : Bool) (now : Instant) :
    Admitted permit (wake request permit retries result cancelled now) := by
  unfold wake
  split <;> exact .of_stage rfl rfl

theorem askShedder_advances (now : Instant) (sound : runtime.Sound (.permitted permit)) :
    runtime.Advances registries request (.permitted permit)
      (runtime.askShedder registries request permit now) := by
  have admitted := begin_admitted request permit
  unfold askShedder
  split
  · rename_i unconfigured
    refine .silent sound admitted.permit ?_ admitted.calm ?_ (Nat.zero_le _)
    · rw [unconfigured, admitted.slot]
      rfl
    · rw [admitted.breaker]
      rfl
  · rename_i config configured
    have asked : (runtime.holding request (.permitted permit)).Effect runtime.sheddingConfigs
        registries _ _ _ := .shedding config.policy now (by rw [sheddingConfigs, configured]) rfl
    simp only [holding, configured, Option.isSome_some] at asked
    cases allowed : (registries.shedders.allow (runtime.key request) config.policy now).2 with
    | true =>
      rw [allowed] at asked
      simp only [allowed, if_true]
      refine ⟨?_, ⟨?_, admitted.calm⟩, ?_, ?_⟩
      · simp only [holding, configured, Option.isSome_some, admitted.permit, admitted.slot]
        exact asked
      · rw [admitted.permit]
        exact sound.configured
      · rw [admitted.breaker]
        rfl
      · rw [admitted.shedder]
        rfl
    | false =>
      rw [allowed] at asked
      simp only [allowed, Bool.false_eq_true, if_false]
      refine ⟨?_, ⟨sound.configured, nofun⟩, le_rfl, Nat.zero_le _⟩
      assumption

variable {unwound : RequestStage}

/-- A resolution at an early reading returns and gives the permit back. -/
theorem resolveBreaker_advances {resolution : BreakerConfig → Resolution}
    (sound : runtime.Sound stage)
    (within : ∀ config : Config.BreakerConfig,
      resolution config.policy = .success ∨ (resolution config.policy).deadline.isSome)
    (resolved : next.permit = none)
    (sameSlot : next.slot runtime.route.shedding.isSome = stage.slot runtime.route.shedding.isSome)
    (calm : next ≠ .unwinding) (breaker : stage.pastBreaker ≤ next.pastBreaker)
    (shedder : stage.pastShedder ≤ next.pastShedder) :
    runtime.Advances registries request stage
      (runtime.resolveBreaker registries request stage.permit resolution next unwound) := by
  unfold resolveBreaker
  split
  · rename_i own config held configured
    have called : (runtime.holding request stage).Effect runtime.sheddingConfigs registries _ _ _ :=
      .resolution own (resolution config.policy) held
    have returned := registries.breakers.resolve_returned (runtime.key request) own (within config)
    simp only [returned]
    refine ⟨?_, ⟨?_, calm⟩, breaker, shedder⟩
    · simp only [holding, resolved, sameSlot]
      simp only [holding, returned] at called
      exact called
    · rw [resolved]
      nofun
  · rename_i unmatched
    have nothing := permit_eq_none sound.configured fun config own known held =>
      unmatched own config held known
    exact .silent sound (by rw [resolved, nothing]) sameSlot calm breaker shedder

variable {now : Instant}

theorem cancelBreaker_advances (early : now.early = true) (sound : runtime.Sound stage)
    (resolved : next.permit = none)
    (sameSlot : next.slot runtime.route.shedding.isSome = stage.slot runtime.route.shedding.isSome)
    (calm : next ≠ .unwinding) (breaker : stage.pastBreaker ≤ next.pastBreaker)
    (shedder : stage.pastShedder ≤ next.pastShedder) :
    runtime.Advances registries request stage
      (runtime.cancelBreaker registries request stage.permit now next unwound) :=
  resolveBreaker_advances sound
    (fun config => .inr (Instant.checkedAdd_fromMillis early config.resetTimeoutMs)) resolved sameSlot
    calm breaker shedder

theorem finishGuard_advances {success : Bool} {outcome : Outcome} (elapsed : Duration)
    (early : now.early = true) (sound : runtime.Sound (.recorded success outcome)) :
    runtime.Advances registries request (.recorded success outcome)
      (runtime.finishGuard registries request success outcome elapsed now) := by
  unfold finishGuard
  split
  · rename_i unconfigured
    exact .silent sound rfl (by rw [unconfigured]; rfl) nofun le_rfl le_rfl
  · rename_i config configured
    have held : (runtime.holding request (.recorded success outcome)).slot = true := by
      rw [holding, configured]
      rfl
    have called : (runtime.holding request (.recorded success outcome)).Effect
        runtime.sheddingConfigs registries _ _ _ :=
      .recording config.policy success elapsed now (by rw [sheddingConfigs, configured]) held
    have within : (now.checkedAdd config.policy.coolDown).isSome :=
      Instant.checkedAdd_fromMillis early config.coolDownMs
    have returned := registries.shedders.record_returned within (runtime.key request) success elapsed
    simp only [returned]
    simp only [holding, returned] at called
    exact ⟨called, ⟨nofun, nofun⟩, le_rfl, le_rfl⟩

/-- Dropping the guard releases the slot, if there is one. -/
theorem dropGuard_advances (here : request.stage = stage) (samePermit : next.permit = stage.permit)
    (released : ∀ shedding, next.slot shedding = false) (sound : runtime.Sound next)
    (breaker : stage.pastBreaker ≤ next.pastBreaker) (shedder : stage.pastShedder ≤ next.pastShedder) :
    runtime.Advances registries request stage
      (runtime.dropGuard registries request next) := by
  unfold dropGuard
  rw [here]
  split
  · rename_i alive
    have called : (runtime.holding request stage).Effect runtime.sheddingConfigs registries _ _ _ :=
      .releasing alive
    refine ⟨?_, sound, breaker, shedder⟩
    simp only [holding, samePermit, released]
    exact called
  · rename_i absent
    refine ⟨?_, sound, breaker, shedder⟩
    have same : runtime.holding request next = runtime.holding request stage := by
      rw [holding, holding, samePermit, released, Bool.eq_false_iff.mpr absent]
    rw [same]
    exact .silent

/-- Every early step from a sound stage advances. -/
theorem advance_advances {taken : AdmissionRegistries × RequestStage × GuardCall}
    (sound : runtime.Sound request.stage) (early : action.early = true)
    (advanced : runtime.advance registries request action = some taken) :
    runtime.Advances registries request request.stage taken := by
  unfold advance at advanced
  generalize here : request.stage = stage at sound advanced ⊢
  split at advanced
  · rename_i answer
    cases advanced
    exact limit_advances answer sound
  · rename_i now
    cases advanced
    exact askBreaker_advances now sound
  · rename_i now
    cases advanced
    exact askShedder_advances now sound
  · cases advanced
    exact cancelBreaker_advances early sound rfl rfl nofun le_rfl le_rfl
  · cases advanced
    exact Admitted.advances (.of_stage rfl rfl) (.of_stage rfl rfl) sound
  · rename_i permit length
    cases advanced
    exact Admitted.advances (.of_stage rfl rfl) (collect_admitted permit length) sound
  · cases advanced
    exact cancelBreaker_advances early sound rfl rfl nofun le_rfl le_rfl
  · rename_i permit retries result
    cases advanced
    exact Admitted.advances (.of_stage rfl rfl) (send_admitted request permit retries result) sound
  · rename_i permit retries result allowed sample cancelled now
    cases advanced
    exact Admitted.advances (.of_stage rfl rfl)
      (retry_admitted request permit retries result allowed sample cancelled now) sound
  · rename_i permit retries result delay cancelled now
    cases advanced
    exact Admitted.advances (.of_stage rfl rfl)
      (wake_admitted request permit retries result cancelled now) sound
  · rename_i success outcome now
    cases advanced
    refine resolveBreaker_advances sound (fun config => ?_) rfl rfl nofun le_rfl le_rfl
    cases success with
    | true => exact .inl rfl
    | false => exact .inr (Instant.checkedAdd_fromMillis early config.resetTimeoutMs)
  · rename_i elapsed now
    cases advanced
    exact finishGuard_advances elapsed early sound
  · cases advanced
    exact dropGuard_advances here rfl (fun _ => rfl) ⟨nofun, nofun⟩ le_rfl le_rfl
  · exact absurd rfl sound.calm
  · obtain ⟨_, rfl⟩ := of_guard advanced
    refine dropGuard_advances here rfl (fun _ => rfl) ⟨sound.configured, nofun⟩ ?_ ?_
    · exact pastBreaker_le_one _
    · exact pastShedder_le_one _
  · cases advanced

/-! ## Lost permits -/

theorem resolveBreaker_lost {resolution : BreakerConfig → Resolution} (kept : next.lost = none)
    (unwinds : unwound.lost = none) :
    (runtime.resolveBreaker registries request permit resolution next unwound).2.1.lost = none := by
  unfold resolveBreaker
  grind

theorem dropGuard_stage (next : RequestStage) :
    (runtime.dropGuard registries request next).2.1 = next := by
  unfold dropGuard
  split <;> rfl

/-- Only a request that is dropped loses its permit. -/
theorem advance_lost {taken : AdmissionRegistries × RequestStage × GuardCall}
    (advanced : runtime.advance registries request action = some taken) :
    taken.2.1.lost = if action = .drop then request.stage.permit else none := by
  unfold advance at advanced
  split at advanced
  · cases advanced
    simp only [limit]
    split <;> rfl
  · cases advanced
    unfold askBreaker
    split
    · rfl
    · simp only
      split <;> rfl
  · rename_i permit now here
    cases advanced
    unfold askShedder
    split
    · exact (begin_admitted request permit).kept
    · simp only
      split
      · exact (begin_admitted request permit).kept
      · rfl
  · cases advanced
    exact resolveBreaker_lost rfl rfl
  · cases advanced
    rfl
  · rename_i permit length here
    cases advanced
    exact (collect_admitted permit length).kept
  · cases advanced
    exact resolveBreaker_lost rfl rfl
  · rename_i permit retries result here
    cases advanced
    exact (send_admitted request permit retries result).kept
  · rename_i permit retries result allowed sample cancelled now here
    cases advanced
    exact (retry_admitted request permit retries result allowed sample cancelled now).kept
  · rename_i permit retries result delay cancelled now here
    cases advanced
    exact (wake_admitted request permit retries result cancelled now).kept
  · cases advanced
    exact resolveBreaker_lost rfl rfl
  · cases advanced
    unfold finishGuard
    split
    · rfl
    · simp only
      split <;> rfl
  · cases advanced
    rw [dropGuard_stage]
    rfl
  · cases advanced
    rw [dropGuard_stage]
    rfl
  · obtain ⟨_, rfl⟩ := of_guard advanced
    rw [dropGuard_stage]
    rfl
  · cases advanced

/-! ## Accounting -/

/-- The requests that act early. -/
def earlyRequests (runtime : GatewayRuntime) :
    Process AdmissionRegistries GatewayRequest RequestAction GuardCall :=
  runtime.requests.restrict RequestAction.early

/-- A step changes nothing of a request but its stage. -/
theorem step_eq_some {taken : AdmissionRegistries × GatewayRequest × GuardCall}
    (stepped : runtime.step registries request action = some taken) :
    ∃ advanced, runtime.advance registries request action = some advanced ∧
      taken = (advanced.1, { request with stage := advanced.2.1 }, advanced.2.2) := by
  obtain ⟨advanced, found, built⟩ := Option.map_eq_some_iff.mp stepped
  simp_all

theorem earlyRequests_step {registries' : AdmissionRegistries} {after : GatewayRequest}
    {call : GuardCall} (sound : runtime.Sound request.stage)
    (stepped : runtime.earlyRequests.step registries request action =
      some (registries', after, call)) :
    after = { request with stage := after.stage } ∧
      runtime.Advances registries request request.stage (registries', after.stage, call) := by
  rw [earlyRequests, Process.restrict] at stepped
  obtain ⟨early, taken⟩ := Option.ite_none_right_eq_some.mp stepped
  obtain ⟨_, found, same⟩ := step_eq_some taken
  cases same
  exact ⟨rfl, advance_advances sound early found⟩

/-- The early requests of a route keep a ledger. -/
theorem requests_ledger (runtime : GatewayRuntime) :
    Ledger runtime.sheddingConfigs runtime.earlyRequests
      (fun request => runtime.Sound request.stage)
      (fun request => runtime.holding request request.stage) where
  invariant := by
    constructor
    · intro request allowed
      have entered : request.stage = .entered := of_decide_eq_true allowed
      rw [entered]
      exact ⟨nofun, nofun⟩
    · intro registries request action registries' after call sound stepped
      exact (earlyRequests_step sound stepped).2.sound
  starts request allowed := by
    have entered : request.stage = .entered := of_decide_eq_true allowed
    rw [entered]
    exact ⟨rfl, rfl⟩
  steps registries request action registries' after call sound stepped := by
    obtain ⟨same, advances⟩ := earlyRequests_step sound stepped
    rw [same]
    exact advances.effect

section Runs

variable {events : List (PoolAction GatewayRequest RequestAction × Option GuardCall)}
variable {final : Pool AdmissionRegistries GatewayRequest} {index : Nat}

/-- A request takes at most one of what it asks for once. -/
theorem taken_le_one {past : RequestStage → Nat} {taken : GuardCall → Nat}
    (starts : past .entered = 0) (bound : ∀ stage, past stage ≤ 1)
    (spends : ∀ registries request next, runtime.Advances registries request request.stage next →
      past request.stage + taken next.2.2 ≤ past next.2.1)
    (run : runtime.earlyRequests.pool.Run (.empty .new) events final) (index : Nat) :
    Process.tally taken index events ≤ 1 := by
  refine Process.spent_le_of_empty (fun request => past request.stage)
    runtime.requests_ledger.invariant ?_ ?_ (fun request => bound request.stage) run index
  · intro request allowed
    have entered : request.stage = .entered := of_decide_eq_true allowed
    rw [entered, starts]
  · intro registries request action registries' after call sound stepped
    exact spends registries request _ (earlyRequests_step sound stepped).2

/-- The calls of a request took at most one, and gave back what they took. -/
structure ReleasedOnce (taken released : GuardCall → Nat)
    (events : List (PoolAction GatewayRequest RequestAction × Option GuardCall)) (index : Nat) :
    Prop where
  once : Process.tally taken index events ≤ 1
  released : Process.tally released index events = Process.tally taken index events

theorem losing : Losing (fun request : GatewayRequest => request.stage.permit)
    (fun request => request.stage.lost) (fun request => request.stage.isOver) :=
  ⟨fun ended => (holds_of_over ended true).1, over_of_lost⟩

/-- A request for the key has lost such a permit. -/
def Loses (runtime : GatewayRuntime) (key : String) (permit : BreakerPermit)
    (pool : Pool AdmissionRegistries GatewayRequest) : Prop :=
  ∃ request ∈ pool.locals, runtime.key request = key ∧ request.stage.lost = some permit

/-- The action drops a request that holds such a permit of the key. -/
def DropsHolder (runtime : GatewayRuntime) (key : String) (permit : BreakerPermit)
    (pool : Pool AdmissionRegistries GatewayRequest)
    (action : PoolAction GatewayRequest RequestAction) : Prop :=
  ∃ index request, action = .act index .drop ∧ pool.locals[index]? = some request ∧
    runtime.key request = key ∧ request.stage.permit = some permit

variable {key : String}

/-- A permit is lost exactly when its holder is dropped, and for ever. -/
theorem loses_step {permit : BreakerPermit} {pool next : Pool AdmissionRegistries GatewayRequest}
    {move : PoolAction GatewayRequest RequestAction} {output : Option GuardCall}
    (moved : runtime.requests.pool.step pool move = some (next, output)) :
    runtime.Loses key permit next ↔
      runtime.Loses key permit pool ∨ runtime.DropsHolder key permit pool move := by
  let drops (_ : AdmissionRegistries) (request : GatewayRequest) (action : RequestAction) : Prop :=
    action = .drop ∧ runtime.key request = key ∧ request.stage.permit = some permit
  have dropped : (∃ index action request, move = .act index action ∧
      pool.locals[index]? = some request ∧ drops pool.shared request action) ↔
      runtime.DropsHolder key permit pool move := by
    constructor
    · rintro ⟨index, action, request, rfl, found, rfl, own, held⟩
      exact ⟨index, request, rfl, found, own, held⟩
    · rintro ⟨index, request, rfl, found, own, held⟩
      grind
  rw [← dropped]
  refine Process.pool_marked ?_ ?_ ?_ moved
  · rintro request allowed ⟨-, lost⟩
    have entered : request.stage = .entered := of_decide_eq_true allowed
    rw [entered] at lost
    cases lost
  · intro registries request action registries' after call stepped
    obtain ⟨_, found, same⟩ := step_eq_some stepped
    cases same
    have lost := advance_lost found
    simp only [drops, lost]
    by_cases dropping : action = .drop
    · rw [if_pos dropping]
      exact ⟨fun ⟨own, held⟩ => ⟨dropping, own, held⟩, fun ⟨_, own, held⟩ => ⟨own, held⟩⟩
    · simp_all
  · rintro registries request action ⟨-, lost⟩
    have ended := over_of_lost lost
    have nothing : runtime.advance registries request action = none := by
      unfold advance
      cases here : request.stage with
      | returned | dropped | panicked => cases action <;> rfl
      | _ =>
        rw [here] at ended
        cases ended
    change (runtime.advance registries request action).map _ = none
    rw [nothing]
    rfl

/-- No permit is lost exactly when no holder of one is dropped. -/
theorem kept_iff (run : runtime.requests.pool.Run (.empty .new) events final) (key : String)
    (permit : BreakerPermit) :
    ¬ runtime.Loses key permit final ↔ runtime.requests.pool.Along
      (fun pool action _ _ => ¬ runtime.DropsHolder key permit pool action) (.empty .new) events := by
  refine run.marked_iff (fun _ _ _ _ moved => loses_step moved) ?_
  rintro ⟨_, member, -⟩
  cases member

/-- No request for the key is in flight. -/
def Quiet (runtime : GatewayRuntime) (key : String) (pool : Pool AdmissionRegistries GatewayRequest) :
    Prop :=
  ∀ request ∈ pool.locals, runtime.key request = key → request.stage.isOver = true

/-- Without requests in flight the shedder has no slot out. -/
theorem inFlight_of_quiet (run : runtime.earlyRequests.pool.Run (.empty .new) events final)
    (quiet : runtime.Quiet key final) : (final.shared.shedders.entry key).inFlight = 0 := by
  have counted := (runtime.requests_ledger.accounted run key).slots.counted
  have nothing : final.total
      (fun request => (runtime.holding request request.stage).slotsOf key) = 0 := by
    apply List.sum_eq_zero
    intro count member
    obtain ⟨request, place, rfl⟩ := List.mem_map.mp member
    rw [Holding.slotsOf]
    split
    · rename_i own
      rw [Holding.slots, holding, (holds_of_over (quiet request place own) _).2]
      rfl
    · rfl
  rw [nothing] at counted
  exact UInt64.toNat_inj.mp counted

end Runs

end GatewayRuntime

open GatewayRuntime in
/-- Over any interleaving of requests on a route, each completed or dropped wherever it awaits:
every slot that a request took is released exactly once by the time the request is over, and
without requests in flight the shedder has none out. Every permit is resolved exactly once by the
time the request is over, if and only if no request is dropped while it holds one. Without requests
in flight the breaker is not half open, if and only if no holder of a probe was dropped. -/
theorem requests_release_iff (runtime : GatewayRuntime)
    {events : List (PoolAction GatewayRequest RequestAction × Option GuardCall)}
    {final : Pool AdmissionRegistries GatewayRequest}
    (run : runtime.requests.pool.Run (.empty .new) events final)
    (early : ∀ index action output, (.act index action, output) ∈ events → action.early = true) :
    (∀ index request, final.locals[index]? = some request → request.stage.isOver = true →
        ReleasedOnce GuardCall.slotsTaken GuardCall.slotsReturned events index) ∧
    ((∀ index request, final.locals[index]? = some request → request.stage.isOver = true →
        ReleasedOnce GuardCall.permitsTaken GuardCall.permitsResolved events index) ↔
      ∀ key permit, runtime.requests.pool.Along
        (fun pool action _ _ => ¬ runtime.DropsHolder key permit pool action) (.empty .new) events) ∧
    ∀ key, runtime.Quiet key final →
      (final.shared.shedders.entry key).inFlight = 0 ∧
      ((final.shared.breakers.entry key).phase ≠ .halfOpen ↔ runtime.requests.pool.Along
        (fun pool action _ _ => ¬ runtime.DropsHolder key .probe pool action)
        (.empty .new) events) := by
  have restricted : runtime.earlyRequests.pool.Run (.empty .new) events final :=
    Process.restrict_run run early
  have ledger := runtime.requests_ledger.permitLedger
  refine ⟨fun index request found ended => ?_, ?_,
    fun key quiet => ⟨inFlight_of_quiet restricted quiet,
      (ledger.not_halfOpen_iff losing restricted quiet).trans (kept_iff run key .probe)⟩⟩
  · -- whatever happened to the request, it holds no slot
    have paid := runtime.requests_ledger.slots restricted found
    rw [Holding.slots, holding, (holds_of_over ended _).2, Bool.toNat_false, Nat.add_zero] at paid
    exact ⟨taken_le_one rfl pastShedder_le_one (fun _ _ _ advances => advances.shedder) restricted
      index, paid.symm⟩
  · refine Iff.trans ?_ ((ledger.all_resolved_iff losing restricted).trans
      (forall₂_congr (kept_iff run)))
    -- a request asks the breaker once, so the resolutions decide
    exact forall₄_congr fun index request found ended => ⟨ReleasedOnce.released, fun released =>
      ⟨taken_le_one rfl pastBreaker_le_one (fun _ _ _ advances => advances.breaker) restricted index,
        released⟩⟩

/-! ### A probe that is dropped -/

namespace DroppedProbe

/-- One failure opens the breaker for a millisecond. -/
def runtime : GatewayRuntime where
  route :=
    { path := "/orders"
      service := "orders"
      retries := 0
      retryBackoff := .zero
      retryMaxBackoff := .zero
      rateLimit := none
      breaker := some ⟨1, 1⟩
      shedding := some ⟨8, 1000, 100, 500, 500, 1000⟩ }
  requestBodyLimitBytes := 1024

def arrival : GatewayRequest where
  method := "GET"
  headers := .empty
  context := .backgroundWithRequestIdAndTraceId "request-1" "trace-1"
  stage := .entered

/-- A request is admitted and its body is collected. -/
def sent (index : Nat) (now : Instant) : List (PoolAction GatewayRequest RequestAction) :=
  [.spawn arrival, .act index (.limit .allowed), .act index (.askBreaker now),
    .act index (.askShedder now), .act index (.collect (some 0))]

/-- The upstream answers it. -/
def answered (index : Nat) (status : UInt16) (now : Instant) :
    List (PoolAction GatewayRequest RequestAction) :=
  [.act index (.send (.ok status)), .act index (.finishBreaker now),
    .act index (.finishGuard .zero now)]

/-- After the reset of the breaker. -/
def soon : Instant := .ofNanos 2000000

/-- The first request fails and the second, the probe, waits for the upstream. -/
def probing : List (PoolAction GatewayRequest RequestAction) :=
  sent 0 .zero ++ answered 0 500 .zero ++ sent 1 soon

/-- The probe is dropped, and a third request comes. -/
def dropping : List (PoolAction GatewayRequest RequestAction) :=
  probing ++ [.act 1 .drop, .spawn arrival, .act 2 (.limit .allowed), .act 2 (.askBreaker soon)]

/-- The probe is answered, and a third request is dropped before it holds anything. -/
def completing : List (PoolAction GatewayRequest RequestAction) :=
  probing ++ answered 1 200 soon ++ [.spawn arrival, .act 2 .drop]

end DroppedProbe

open DroppedProbe in
/-- The probe is dropped while it waits for the upstream. Its slot is released and its permit is
not: the breaker stays half open and rejects the next request. -/
theorem dropped_probe_unresolved :
    ∃ events final,
      runtime.requests.pool.Run (.empty .new) events final ∧ events.map Prod.fst = dropping ∧
      final.locals.map GatewayRequest.stage =
        [.returned .upstreamServerError, .dropped (some .probe), .returned .breakerOpen] ∧
      Process.tally GuardCall.permitsTaken 1 events = 1 ∧
      Process.tally GuardCall.permitsResolved 1 events = 0 ∧
      (final.shared.breakers.entry (runtime.key arrival)).phase = .halfOpen ∧
      (final.shared.shedders.entry (runtime.key arrival)).inFlight = 0 := by
  have evaluated : (runtime.requests.pool.exec (.empty .new) dropping).map (fun result =>
        (result.1.locals.map GatewayRequest.stage, Process.tally GuardCall.permitsTaken 1 result.2,
          Process.tally GuardCall.permitsResolved 1 result.2,
          (result.1.shared.breakers.entry (runtime.key arrival)).phase,
          (result.1.shared.shedders.entry (runtime.key arrival)).inFlight)) =
      some ([.returned .upstreamServerError, .dropped (some .probe), .returned .breakerOpen], 1, 0,
        .halfOpen, 0) := by
    decide +kernel
  obtain ⟨events, final, run, actions, same⟩ := Machine.exec_observed evaluated
  simp only [Prod.mk.injEq] at same
  exact ⟨events, final, run, actions, same⟩

open DroppedProbe in
/-- When the probe is answered, dropping a request that holds nothing does no harm. -/
theorem requests_release_iff_answered_probe :
    ∃ events final,
      runtime.requests.pool.Run (.empty .new) events final ∧ events.map Prod.fst = completing ∧
      (∀ index action output, (.act index action, output) ∈ events → action.early = true) ∧
      runtime.Quiet (runtime.key arrival) final ∧
      (final.shared.shedders.entry (runtime.key arrival)).inFlight = 0 ∧
      (final.shared.breakers.entry (runtime.key arrival)).phase ≠ .halfOpen ∧
      runtime.requests.pool.Along
        (fun pool action _ _ => ¬ runtime.DropsHolder (runtime.key arrival) .probe pool action)
        (.empty .new) events := by
  have evaluated : (runtime.requests.pool.exec (.empty .new) completing).map (fun result =>
        (result.1.locals.all (fun request => request.stage.isOver),
          (result.1.shared.breakers.entry (runtime.key arrival)).phase)) =
      some (true, .closed) := by
    decide +kernel
  obtain ⟨events, final, run, actions, same⟩ := Machine.exec_observed evaluated
  simp only [Prod.mk.injEq] at same
  obtain ⟨all, phase⟩ := same
  have early : ∀ index action output, (.act index action, output) ∈ events →
      action.early = true := by
    refine Process.allowed_of_allows ?_
    rw [actions]
    decide +kernel
  have quiet : runtime.Quiet (runtime.key arrival) final := fun request member _ =>
    List.all_eq_true.mp all request member
  have outside : (final.shared.breakers.entry (runtime.key arrival)).phase ≠ .halfOpen := by
    rw [phase]
    decide
  obtain ⟨slots, kept⟩ := (requests_release_iff runtime run early).2.2 _ quiet
  exact ⟨events, final, run, actions, early, quiet, slots, outside, kept.mp outside⟩

end Roze.Gateway
