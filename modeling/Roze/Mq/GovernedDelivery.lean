import Roze.Admission.Ledger

/-!
# Governed delivery of a message

A delivery passes the rate limiter, the breaker and the shedder, then runs its handler
with retries and records the outcome with the breaker and with the shedder. Many
deliveries do so at once, over shared registries; each registry call is one step.

The answers of the rate limiter and of the retry budget and the results of the handler
are part of the actions. A delivery that is aborted, or whose handler panics, takes no
further step. A call that opens a breaker or a cool-down beyond the clock panics after
its effect, and the delivery unwinds with what it then holds.
-/

namespace Roze.Mq

open Roze.Admission (Accounted GuardCall Holding Ledger)
open Roze.Library
open Roze.Resilience

/-- How one attempt of the handler ended. -/
inductive HandlerResult where
  | ok
  | failed
  | timedOut
deriving DecidableEq, Repr

def HandlerResult.isOk (result : HandlerResult) : Bool := decide (result = .ok)

/-- Why the function returned. -/
inductive DeliveryExit where
  | rateLimited
  | breakerOpen
  | shed
  | handled (result : HandlerResult)
deriving DecidableEq, Repr

/-- Where a delivery stands. -/
inductive DeliveryStage where
  | entered
  | limited
  | permitted (permit : Option BreakerPermit)
  | refused (permit : Option BreakerPermit)
  | handling (permit : Option BreakerPermit) (attempt : UInt32)
  | retrying (permit : Option BreakerPermit) (attempt : UInt32) (result : HandlerResult)
  | handled (permit : Option BreakerPermit) (result : HandlerResult)
  | recorded (result : HandlerResult)
  | returned (exit : DeliveryExit)
  | unwound (slot : Bool)
deriving DecidableEq

structure GovernedDelivery where
  topic : String
  policy : GovernancePolicy
  stage : DeliveryStage
deriving DecidableEq

/-- What happens next, with what the outside answers and the clock shows. -/
inductive DeliveryAction where
  | limit (allowed : Bool)
  | askBreaker (now : Instant)
  | askShedder (now : Instant)
  | cancel (now : Instant)
  | handle (result : HandlerResult)
  | retry (allowed : Bool)
  | resolve (now : Instant)
  | record (latency : Duration) (now : Instant)

namespace GovernedDelivery

def key (delivery : GovernedDelivery) : String := operationKey "consumer" .mq delivery.topic

/-- The delivery at another stage. -/
def moveTo (delivery : GovernedDelivery) (stage : DeliveryStage) : GovernedDelivery :=
  { delivery with stage }

def maxAttempts (delivery : GovernedDelivery) : UInt32 :=
  max (delivery.policy.retry.getD .default).maxAttempts 1

section Sections

variable (registries : AdmissionRegistries) (delivery : GovernedDelivery)

/-- Past the rate limiter, or back with its refusal. -/
def limit (allowed : Bool) : GovernedDelivery :=
  if delivery.policy.rateLimit.isSome && !allowed then delivery.moveTo (.returned .rateLimited)
  else delivery.moveTo .limited

/-- Ask the breaker, if there is one. -/
def askBreaker (now : Instant) : AdmissionRegistries × GovernedDelivery × GuardCall :=
  match delivery.policy.breaker with
  | none => (registries, delivery.moveTo (.permitted none), .none)
  | some _ =>
      let allowed := registries.breakers.allow delivery.key now
      let stage := match allowed.2 with
        | .allow permit => .permitted (some permit)
        | .reject => .returned .breakerOpen
      ({ registries with breakers := allowed.1 }, delivery.moveTo stage, .breakerAllow allowed.2)

/-- Ask the shedder, if there is one. -/
def askShedder (permit : Option BreakerPermit) (now : Instant) :
    AdmissionRegistries × GovernedDelivery × GuardCall :=
  match delivery.policy.shedding with
  | none => (registries, delivery.moveTo (.handling permit 1), .none)
  | some config =>
      let allowed := registries.shedders.allow delivery.key config now
      let stage := if allowed.2 then .handling permit 1 else .refused permit
      ({ registries with shedders := allowed.1 }, delivery.moveTo stage, .sheddingAllow allowed.2)

/-- Cancel the permit of a delivery that was shed. -/
def cancel (permit : Option BreakerPermit) (now : Instant) :
    AdmissionRegistries × GovernedDelivery × GuardCall :=
  match delivery.policy.breaker, permit with
  | some config, some permit =>
      let cancelled := registries.breakers.resolve delivery.key permit (.cancelled config now)
      let stage := match cancelled.2 with
        | .returned => .returned .shed
        | .panicked => .unwound false
      ({ registries with breakers := cancelled.1 }, delivery.moveTo stage,
        .breakerResolve cancelled.2)
  | _, _ => (registries, delivery.moveTo (.returned .shed), .none)

/-- One attempt of the handler has ended. -/
def handle (permit : Option BreakerPermit) (attempt : UInt32) (result : HandlerResult) :
    GovernedDelivery :=
  if result.isOk || delivery.maxAttempts ≤ attempt then delivery.moveTo (.handled permit result)
  else delivery.moveTo (.retrying permit attempt result)

/-- Try again, unless the retry budget is exhausted. -/
def retry (permit : Option BreakerPermit) (attempt : UInt32) (result : HandlerResult)
    (allowed : Bool) : GovernedDelivery :=
  if allowed then delivery.moveTo (.handling permit (attempt + 1))
  else delivery.moveTo (.handled permit result)

/-- Record the outcome with the breaker. -/
def resolve (permit : Option BreakerPermit) (result : HandlerResult) (now : Instant) :
    AdmissionRegistries × GovernedDelivery × GuardCall :=
  match delivery.policy.breaker, permit with
  | some config, some permit =>
      let resolved := registries.breakers.resolve delivery.key permit
        (if result.isOk then .success else .failure config now)
      let stage := match resolved.2 with
        | .returned => .recorded result
        | .panicked => .unwound delivery.policy.shedding.isSome
      ({ registries with breakers := resolved.1 }, delivery.moveTo stage,
        .breakerResolve resolved.2)
  | _, _ => (registries, delivery.moveTo (.recorded result), .none)

/-- Record the outcome with the shedder. -/
def record (result : HandlerResult) (latency : Duration) (now : Instant) :
    AdmissionRegistries × GovernedDelivery × GuardCall :=
  match delivery.policy.shedding with
  | none => (registries, delivery.moveTo (.returned (.handled result)), .none)
  | some config =>
      let recorded := registries.shedders.record delivery.key result.isOk latency config now
      let stage := match recorded.2 with
        | .returned => .returned (.handled result)
        | .panicked => .unwound false
      ({ registries with shedders := recorded.1 }, delivery.moveTo stage,
        .sheddingRecord recorded.2)

/-- `execute_governed_delivery`, one registry call or one answer from outside at a time. A
handler without a timeout does not time out. -/
def step (action : DeliveryAction) :
    Option (AdmissionRegistries × GovernedDelivery × GuardCall) :=
  match delivery.stage, action with
  | .entered, .limit allowed => some (registries, delivery.limit allowed, .none)
  | .limited, .askBreaker now => some (delivery.askBreaker registries now)
  | .permitted permit, .askShedder now => some (delivery.askShedder registries permit now)
  | .refused permit, .cancel now => some (delivery.cancel registries permit now)
  | .handling permit attempt, .handle result =>
      if result = .timedOut ∧ delivery.policy.timeout = none then none
      else some (registries, delivery.handle permit attempt result, .none)
  | .retrying permit attempt result, .retry allowed =>
      some (registries, delivery.retry permit attempt result allowed, .none)
  | .handled permit result, .resolve now => some (delivery.resolve registries permit result now)
  | .recorded result, .record latency now => some (delivery.record registries result latency now)
  | _, _ => none

end Sections

end GovernedDelivery

/-- Deliveries whose policies agree on the shedding configuration of each key. -/
def governedDeliveries (configs : String → SheddingConfig) :
    Process AdmissionRegistries GovernedDelivery DeliveryAction GuardCall where
  initial delivery := decide (delivery.stage = .entered) &&
    delivery.policy.shedding.all (fun config => decide (config = configs delivery.key))
  step registries delivery action := delivery.step registries action

/-! ## What a delivery holds -/

def DeliveryStage.permit : DeliveryStage → Option BreakerPermit
  | .permitted permit => permit
  | .refused permit => permit
  | .handling permit _ => permit
  | .retrying permit _ _ => permit
  | .handled permit _ => permit
  | _ => none

/-- The stage has a slot, if the policy asks for one. -/
def DeliveryStage.slot (shedding : Bool) : DeliveryStage → Bool
  | .handling _ _ => shedding
  | .retrying _ _ _ => shedding
  | .handled _ _ => shedding
  | .recorded _ => shedding
  | .unwound slot => slot
  | _ => false

namespace GovernedDelivery

/-- The permit that was taken and not resolved. -/
def permit (delivery : GovernedDelivery) : Option BreakerPermit := delivery.stage.permit

/-- A slot was taken and not returned. -/
def slot (delivery : GovernedDelivery) : Bool := delivery.stage.slot delivery.policy.shedding.isSome

/-- A permit comes from a configured breaker, and the shedding configuration is that of
the key. -/
structure Consistent (configs : String → SheddingConfig) (delivery : GovernedDelivery) : Prop where
  breaker : delivery.permit.isSome → delivery.policy.breaker.isSome
  shedding : ∀ config, delivery.policy.shedding = some config → config = configs delivery.key

def holding (delivery : GovernedDelivery) : Holding where
  key := delivery.key
  permit := delivery.permit
  slot := delivery.slot

/-- What holds of a step of a consistent delivery. -/
structure Advances (configs : String → SheddingConfig) (registries : AdmissionRegistries)
    (delivery : GovernedDelivery) (taken : AdmissionRegistries × GovernedDelivery × GuardCall) :
    Prop where
  effect : delivery.holding.Effect configs registries taken.1 taken.2.1.holding taken.2.2
  consistent : taken.2.1.Consistent configs

variable {configs : String → SheddingConfig} {registries : AdmissionRegistries}
variable {delivery : GovernedDelivery} {action : DeliveryAction}
variable {taken : AdmissionRegistries × GovernedDelivery × GuardCall}

theorem holding_moveTo {stage : DeliveryStage} (permit : Option BreakerPermit) (slot : Bool)
    (samePermit : stage.permit = permit)
    (sameSlot : stage.slot delivery.policy.shedding.isSome = slot) :
    (delivery.moveTo stage).holding = ⟨delivery.key, permit, slot⟩ := by
  rw [← samePermit, ← sameSlot]
  rfl

variable {next : DeliveryStage}

section

variable (consistent : delivery.Consistent configs)
include consistent

/-- A step without a registry call keeps what the delivery holds. -/
theorem Advances.silent (samePermit : next.permit = delivery.permit)
    (sameSlot : next.slot delivery.policy.shedding.isSome = delivery.slot) :
    Advances configs registries delivery (registries, delivery.moveTo next, .none) where
  effect := by
    rw [holding_moveTo _ _ samePermit sameSlot]
    exact .silent
  consistent := ⟨fun held => consistent.breaker (samePermit ▸ held), consistent.shedding⟩

/-- Moving between two stages that hold the same is silent. -/
theorem Advances.moved {stage : DeliveryStage} (here : delivery.stage = stage)
    (samePermit : next.permit = stage.permit)
    (sameSlot : ∀ shedding, next.slot shedding = stage.slot shedding) :
    Advances configs registries delivery (registries, delivery.moveTo next, .none) :=
  .silent consistent (by rw [permit, here, samePermit]) (by rw [slot, here, sameSlot])

/-- Resolving the permit gives it back. -/
theorem Advances.resolution {own : BreakerPermit} {resolution : Resolution}
    (held : delivery.permit = some own) (resolved : next.permit = none)
    (sameSlot : next.slot delivery.policy.shedding.isSome = delivery.slot) :
    Advances configs registries delivery
      ({ registries with
          breakers := (registries.breakers.resolve delivery.key own resolution).1 },
        delivery.moveTo next,
        .breakerResolve (registries.breakers.resolve delivery.key own resolution).2) where
  effect := by
    rw [holding_moveTo _ _ resolved sameSlot]
    exact .resolution own resolution held
  consistent := by
    have nothing : (delivery.moveTo next).permit = none := resolved
    exact ⟨by simp [nothing], consistent.shedding⟩

theorem limit_advances (stage : delivery.stage = .entered) (allowed : Bool) :
    Advances configs registries delivery (registries, delivery.limit allowed, .none) := by
  unfold limit
  split <;> exact .moved consistent stage rfl (fun _ => rfl)

theorem askBreaker_advances (stage : delivery.stage = .limited) (now : Instant) :
    Advances configs registries delivery (delivery.askBreaker registries now) := by
  unfold askBreaker
  split
  · exact .moved consistent stage rfl (fun _ => rfl)
  · rename_i configured
    refine ⟨?_, fun _ => by simp [moveTo, configured], consistent.shedding⟩
    rw [holding_moveTo (registries.breakers.allow delivery.key now).2.permit delivery.slot]
    · exact .admission now (by rw [holding, permit, stage]; rfl)
    · split
      · rename_i allowed
        rw [allowed]
        rfl
      · rename_i rejected
        rw [rejected]
        rfl
    · rw [slot, stage]
      split <;> rfl

variable {permit : Option BreakerPermit}

theorem askShedder_advances (stage : delivery.stage = .permitted permit) (now : Instant) :
    Advances configs registries delivery (delivery.askShedder registries permit now) := by
  have held : delivery.permit = permit := by rw [GovernedDelivery.permit, stage]; rfl
  unfold askShedder
  split
  · rename_i unconfigured
    exact .silent consistent held.symm (by simp [slot, stage, DeliveryStage.slot, unconfigured])
  · rename_i config configured
    have same : (if (registries.shedders.allow delivery.key config now).2 then
        DeliveryStage.handling permit 1 else .refused permit).permit = delivery.permit := by
      rw [held]
      split <;> rfl
    refine ⟨?_, fun holds => consistent.breaker (same ▸ holds), consistent.shedding⟩
    rw [holding_moveTo _ (registries.shedders.allow delivery.key config now).2 same]
    · exact .shedding config now (consistent.shedding config configured)
        (by rw [holding, slot, stage]; rfl)
    · rw [configured]
      split
      · rename_i allowed
        exact allowed.symm
      · rename_i refused
        exact (Bool.eq_false_iff.mpr refused).symm

theorem cancel_advances (stage : delivery.stage = .refused permit) (now : Instant) :
    Advances configs registries delivery (delivery.cancel registries permit now) := by
  have held : delivery.permit = permit := by rw [GovernedDelivery.permit, stage]; rfl
  unfold cancel
  split
  · refine .resolution consistent held ?_ ?_
    · split <;> rfl
    · rw [slot, stage]
      split <;> rfl
  · rename_i unmatched
    have nothing := Admission.permit_eq_none (held ▸ consistent.breaker) unmatched
    exact .moved consistent stage nothing.symm (fun _ => rfl)

variable {result : HandlerResult}

theorem resolve_advances (stage : delivery.stage = .handled permit result) (now : Instant) :
    Advances configs registries delivery (delivery.resolve registries permit result now) := by
  have held : delivery.permit = permit := by rw [GovernedDelivery.permit, stage]; rfl
  unfold resolve
  split
  · refine .resolution consistent held ?_ ?_
    · split <;> rfl
    · rw [slot, stage]
      split <;> rfl
  · rename_i unmatched
    have nothing := Admission.permit_eq_none (held ▸ consistent.breaker) unmatched
    exact .moved consistent stage nothing.symm (fun _ => rfl)

theorem record_advances (stage : delivery.stage = .recorded result) (latency : Duration)
    (now : Instant) :
    Advances configs registries delivery (delivery.record registries result latency now) := by
  have free : delivery.permit = none := by rw [permit, stage]; rfl
  unfold record
  split
  · rename_i unconfigured
    exact .silent consistent free.symm (by simp [slot, stage, DeliveryStage.slot, unconfigured])
  · rename_i config configured
    refine ⟨?_, ?_, consistent.shedding⟩
    · rw [holding_moveTo delivery.permit false]
      · exact .recording config result.isOk latency now (consistent.shedding config configured)
          (by simp [holding, slot, stage, DeliveryStage.slot, configured])
      · rw [free]
        split <;> rfl
      · split <;> rfl
    · simp only [permit, moveTo]
      split <;> simp [DeliveryStage.permit]

/-- Every step of a consistent delivery advances. -/
theorem step_advances (stepped : delivery.step registries action = some taken) :
    Advances configs registries delivery taken := by
  unfold step at stepped
  split at stepped
  · rename_i allowed stage
    cases stepped
    exact limit_advances consistent stage allowed
  · rename_i now stage
    cases stepped
    exact askBreaker_advances consistent stage now
  · rename_i now stage
    cases stepped
    exact askShedder_advances consistent stage now
  · rename_i now stage
    cases stepped
    exact cancel_advances consistent stage now
  · rename_i stage
    obtain ⟨_, rfl⟩ := of_unless stepped
    unfold handle
    split <;> exact .moved consistent stage rfl (fun _ => rfl)
  · rename_i stage
    cases stepped
    unfold retry
    split <;> exact .moved consistent stage rfl (fun _ => rfl)
  · rename_i now stage
    cases stepped
    exact resolve_advances consistent stage now
  · rename_i latency now stage
    cases stepped
    exact record_advances consistent stage latency now
  · cases stepped

end

/-! ## Accounting -/

theorem deliveries_consistent (configs : String → SheddingConfig) :
    (governedDeliveries configs).Invariant (Consistent configs) where
  starts delivery allowed := by
    obtain ⟨entered, agreed⟩ := Bool.and_eq_true_iff.mp allowed
    have stage := of_decide_eq_true entered
    refine ⟨fun held => ?_, fun config configured => ?_⟩
    · rw [permit, stage] at held
      cases held
    · simp_all
  kept registries delivery action registries' after call consistent stepped :=
    (step_advances consistent stepped).consistent

/-- The deliveries keep a ledger. -/
theorem deliveries_ledger (configs : String → SheddingConfig) :
    Ledger configs (governedDeliveries configs) (Consistent configs) holding where
  invariant := deliveries_consistent configs
  starts delivery allowed := by
    have stage := of_decide_eq_true (Bool.and_eq_true_iff.mp allowed).1
    change delivery.permit = none ∧ delivery.slot = false
    rw [permit, slot, stage]
    exact ⟨rfl, rfl⟩
  steps _ _ _ _ _ _ consistent stepped := (step_advances consistent stepped).effect

/-- What the calls of one delivery took is what they resolved or returned and what the
delivery still holds. -/
structure Settled (events : List (PoolAction GovernedDelivery DeliveryAction × Option GuardCall))
    (index : Nat) (delivery : GovernedDelivery) : Prop where
  permits : Process.tally GuardCall.permitsTaken index events =
    Process.tally GuardCall.permitsResolved index events + delivery.permit.isSome.toNat
  slots : Process.tally GuardCall.slotsTaken index events =
    Process.tally GuardCall.slotsReturned index events + delivery.slot.toNat

/-- The counter of a key is the number of its admitted and unfinished callers, within the
limit, over any interleaving of callers of the shedding registry. Over any interleaving of
governed deliveries the same holds of the slots and the breaker has out exactly the
probes that deliveries hold; what a delivery took it has resolved or still holds, and
by the time it returns, through any exit, it has resolved its permit and returned its
slot. -/
theorem admissions_accounted (configs : String → SheddingConfig) :
    (∀ events final, (sheddingCallers configs).pool.Run (.empty .new) events final →
        ∀ key, Occupied (configs key) (final.shared.entry key)
          (final.total (SheddingCaller.slots key))) ∧
      ∀ events final, (governedDeliveries configs).pool.Run (.empty .new) events final →
        (∀ key, Accounted configs holding key final) ∧
        ∀ index delivery, final.locals[index]? = some delivery →
          Settled events index delivery ∧
          ∀ exit, delivery.stage = .returned exit →
            Process.tally GuardCall.permitsResolved index events =
                Process.tally GuardCall.permitsTaken index events ∧
              Process.tally GuardCall.slotsReturned index events =
                Process.tally GuardCall.slotsTaken index events := by
  refine ⟨fun events final run key => callers_occupied run key, fun events final run => ?_⟩
  refine ⟨(deliveries_ledger configs).accounted run, fun index delivery found => ?_⟩
  -- the calls of every delivery balance with what it holds
  have settled : Settled events index delivery :=
    ⟨(deliveries_ledger configs).permitLedger.permits run found, (deliveries_ledger configs).slots run found⟩
  refine ⟨settled, fun exit returned => ?_⟩
  have nothing : delivery.permit.isSome.toNat = 0 ∧ delivery.slot.toNat = 0 := by
    rw [permit, slot, returned]
    exact ⟨rfl, rfl⟩
  have paid := settled.permits
  have given := settled.slots
  omega

/-- One consumer at a time, with a breaker. -/
def narrowPolicy : GovernancePolicy where
  timeout := none
  retry := none
  rateLimit := none
  breaker := some ⟨1, .millisecond⟩
  shedding := some ⟨1, .millisecond, 1, .millisecond, 1000, .millisecond⟩

def narrowConfigs (_ : String) : SheddingConfig :=
  ⟨1, .millisecond, 1, .millisecond, 1000, .millisecond⟩

/-- The first delivery is being handled when the second is shed. -/
def secondShed : List (PoolAction GovernedDelivery DeliveryAction) :=
  [.spawn ⟨"orders", narrowPolicy, .entered⟩, .spawn ⟨"orders", narrowPolicy, .entered⟩,
    .act 0 (.limit true), .act 0 (.askBreaker .zero), .act 0 (.askShedder .zero),
    .act 1 (.limit true), .act 1 (.askBreaker .zero), .act 1 (.askShedder .zero), .act 1 (.cancel .zero)]

/-- The delivery that was shed took a permit and resolved it; the other one holds the slot. -/
theorem second_shed_accounted :
    ∃ events final, (governedDeliveries narrowConfigs).pool.Run (.empty .new) events final ∧
      final.locals.map GovernedDelivery.stage = [.handling (some .closed) 1, .returned .shed] ∧
      (∀ key, Accounted narrowConfigs holding key final) ∧
      Process.tally GuardCall.permitsTaken 1 events = 1 ∧
      Process.tally GuardCall.permitsResolved 1 events = 1 := by
  have evaluated : ((governedDeliveries narrowConfigs).pool.exec (.empty .new) secondShed).map
      (fun result => (result.1.locals.map GovernedDelivery.stage,
        Process.tally GuardCall.permitsTaken 1 result.2)) =
      some ([.handling (some .closed) 1, .returned .shed], 1) := by decide
  obtain ⟨events, final, run, _, same⟩ := Machine.exec_observed evaluated
  obtain ⟨stages, taken⟩ := Prod.mk.inj same
  obtain ⟨accounted, settled⟩ := (admissions_accounted narrowConfigs).2 events final run
  have second : (final.locals.map GovernedDelivery.stage)[1]? = some (.returned .shed) := by
    rw [stages]
    rfl
  rw [List.getElem?_map] at second
  obtain ⟨delivery, found, stage⟩ := Option.map_eq_some_iff.mp second
  have resolved := ((settled 1 delivery found).2 .shed stage).1
  exact ⟨events, final, run, stages, accounted, taken, resolved.trans taken⟩

end GovernedDelivery

end Roze.Mq
