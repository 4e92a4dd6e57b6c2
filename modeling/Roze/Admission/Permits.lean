import Roze.Admission.Ledger

/-!
# The permits of admission guards

What a request took from the breaker it has resolved or still holds. A request that is
admitted resolves its permit when its guard is finished or dropped. A request that the
shedder refuses after the breaker admitted it returns with its permit unresolved; that is
the only way to lose one. A probe that is lost leaves the breaker half open, and then the
breaker rejects every later request.
-/

namespace Roze.Admission

open Roze.Library
open Roze.Resilience

namespace Guard

variable {family : GuardFamily}

/-- The permit that was taken and not resolved. -/
def permit (guard : Guard family) : Option BreakerPermit := guard.stage.permit

/-- The questions that a guard has put to the breaker. -/
def questions (guard : Guard family) : Nat :=
  if guard.stage = .entered then 0 else guard.policy.breaker.isSome.toNat

/-- A permit comes from a configured breaker, and no call that finished the guard panicked. -/
structure Sound (guard : Guard family) : Prop where
  configured : guard.permit.isSome → guard.policy.breaker.isSome
  calm : ∀ permit, guard.stage ≠ .unwinding permit

/-! ## What a step does -/

/-- What holds of an early step of a sound guard. -/
structure Advances (registries : AdmissionRegistries) (guard : Guard family)
    (taken : AdmissionRegistries × Guard family × GuardCall) : Prop where
  effect : PermitEffect guard.key registries.breakers guard.permit taken.1.breakers
    taken.2.1.permit taken.2.2
  sound : taken.2.1.Sound
  asked : guard.questions + taken.2.2.asked ≤ taken.2.1.questions

variable {registries : AdmissionRegistries} {guard : Guard family} {action : GuardAction family}
variable {taken : AdmissionRegistries × Guard family × GuardCall}

@[simp] theorem permit_moveTo (stage : GuardStage) : (guard.moveTo stage).permit = stage.permit := rfl

variable {stage : GuardStage}

/-- After the question the number of questions stays. -/
theorem questions_moveTo (before : guard.stage ≠ .entered) (after : stage ≠ .entered) :
    (guard.moveTo stage).questions = guard.questions := by
  rw [questions, questions, if_neg before]
  exact if_neg after

theorem permit_of_entered (entered : guard.stage = .entered) : guard.permit = none :=
  congrArg GuardStage.permit entered

/-- After the question, a step that leaves the breakers alone keeps the permit. -/
theorem Advances.silent {call : GuardCall} (sound : guard.Sound) (shedders : SheddingRegistry)
    (samePermit : stage.permit = guard.permit) (calm : ∀ permit, stage ≠ .unwinding permit)
    (before : guard.stage ≠ .entered) (after : stage ≠ .entered) (unasked : call.asked = 0)
    (unresolved : call.permitsResolved = 0) :
    Advances registries guard ({ registries with shedders }, guard.moveTo stage, call) where
  effect := by
    rw [permit_moveTo, samePermit]
    exact .silent call (Nat.eq_zero_of_le_zero (unasked ▸ call.permitsTaken_le_asked)) unresolved
  sound := ⟨fun held => sound.configured (samePermit ▸ held), calm⟩
  asked := by rw [unasked, questions_moveTo before after, Nat.add_zero]

/-- After the question, a call that resolves the permit and returns. -/
theorem Advances.resolution {own : BreakerPermit} {resolution : Resolution}
    (held : guard.permit = some own) (resolved : stage.permit = none)
    (calm : ∀ permit, stage ≠ .unwinding permit) (before : guard.stage ≠ .entered)
    (after : stage ≠ .entered) :
    Advances registries guard
      ({ registries with breakers := (registries.breakers.resolve guard.key own resolution).1 },
        guard.moveTo stage,
        .breakerResolve (registries.breakers.resolve guard.key own resolution).2) where
  effect := by
    rw [permit_moveTo, resolved]
    exact .resolution own resolution held
  sound := by
    refine ⟨fun holds => ?_, calm⟩
    simp_all
  asked := (questions_moveTo before after).ge

theorem askBreaker_advances (stage : guard.stage = .entered) (now : Instant) :
    Advances registries guard (guard.askBreaker registries now) := by
  have unasked : guard.questions = 0 := if_pos stage
  have free := permit_of_entered stage
  unfold askBreaker
  split
  · refine ⟨?_, ⟨by simp [GuardStage.permit], by simp [moveTo]⟩, ?_⟩
    · rw [free]
      exact .silent _ rfl rfl
    · rw [unasked]
      exact Nat.zero_le _
  · rename_i configured
    have known : guard.policy.breaker.isSome := by rw [configured]; rfl
    have called : PermitEffect guard.key registries.breakers guard.permit _ _ _ := .admission now free
    have once (next : GuardStage) (passed : next ≠ .entered) :
        guard.questions + 1 ≤ (guard.moveTo next).questions := by
      have after : (guard.moveTo next).questions = guard.policy.breaker.isSome.toNat := if_neg passed
      simp_all
    simp only
    cases decision : (registries.breakers.allow guard.key now).2 with
    | allow | reject =>
      rw [decision] at called
      exact ⟨called, ⟨fun _ => known, by simp [moveTo]⟩, once _ (by simp)⟩

section

variable (sound : guard.Sound)
include sound

theorem askShedder_advances {permit : Option BreakerPermit}
    (stage : guard.stage = .permitted permit) (now : Instant) :
    Advances registries guard (guard.askShedder registries permit now) := by
  have before : guard.stage ≠ .entered := by simp [stage]
  have held : guard.permit = permit := congrArg GuardStage.permit stage
  unfold askShedder
  split
  · exact .silent sound registries.shedders held.symm (by simp) before (by simp) rfl rfl
  · refine .silent sound _ ?_ ?_ before ?_ rfl rfl
    · rw [held]
      split <;> rfl
    all_goals split <;> simp

variable {now : Instant}

theorem finish_advances {permit : Option BreakerPermit} (stage : guard.stage = .alive permit)
    (success : Bool) (early : now.early = true) :
    Advances registries guard (guard.finish registries permit success now) := by
  have before : guard.stage ≠ .entered := by simp [stage]
  have held : guard.permit = permit := congrArg GuardStage.permit stage
  unfold finish
  split
  · rename_i config own configured
    have within : (if success then Resolution.success else .failure config now) = .success ∨
        (if success then Resolution.success else .failure config now).deadline.isSome := by
      cases success with
      | true => exact .inl rfl
      | false => exact .inr ((family.timely guard.request).breaker config configured now early)
    have returned := registries.breakers.resolve_returned guard.key own within
    refine .resolution held ?_ ?_ before ?_
    all_goals simp [returned, GuardStage.permit]
  · rename_i unmatched
    refine .silent sound registries.shedders ?_ (by simp) before (by simp) rfl rfl
    rw [held, permit_eq_none (held ▸ sound.configured) unmatched]
    rfl

theorem record_advances {permit : Option BreakerPermit} {success : Bool}
    (stage : guard.stage = .recorded permit success) (elapsed : Duration) (early : now.early = true) :
    Advances registries guard (guard.record registries permit success elapsed now) := by
  have before : guard.stage ≠ .entered := by simp [stage]
  have held : guard.permit = none := congrArg GuardStage.permit stage
  unfold record
  split
  · exact .silent sound registries.shedders held.symm (by simp) before (by simp) rfl rfl
  · rename_i config configured
    have within := (family.timely guard.request).shedding config configured now early
    have returned := registries.shedders.record_returned within guard.key success elapsed
    refine .silent sound _ ?_ ?_ before ?_ rfl rfl
    all_goals simp [returned, held, GuardStage.permit]

theorem drop_advances {permit : Option BreakerPermit} (stage : guard.stage = .alive permit)
    (early : now.early = true) :
    Advances registries guard (guard.drop registries permit now) := by
  have before : guard.stage ≠ .entered := by simp [stage]
  have held : guard.permit = permit := congrArg GuardStage.permit stage
  unfold drop
  split
  · rename_i config own configured
    have within : (Resolution.cancelled config now).deadline.isSome :=
      (family.timely guard.request).breaker config configured now early
    have returned := registries.breakers.resolve_returned guard.key own (.inr within)
    refine .resolution held ?_ ?_ before ?_
    all_goals simp [returned, GuardStage.permit]
  · rename_i unmatched
    refine .silent sound registries.shedders ?_ (by simp) before (by simp) rfl rfl
    rw [held, permit_eq_none (held ▸ sound.configured) unmatched]
    rfl

theorem release_advances (stage : guard.stage = .cancelled) :
    Advances registries guard (guard.release registries) := by
  have before : guard.stage ≠ .entered := by simp [stage]
  have held : guard.permit = none := congrArg GuardStage.permit stage
  unfold release
  split
  all_goals exact .silent sound _ held.symm (by simp) before (by simp) rfl rfl

/-- Every early step of a sound guard advances. -/
theorem step_advances (early : action.early = true)
    (stepped : guard.step registries action = some taken) : Advances registries guard taken := by
  unfold step at stepped
  split at stepped
  · rename_i now stage
    cases stepped
    exact askBreaker_advances stage now
  · rename_i stage
    cases stepped
    exact .silent sound registries.shedders (congrArg GuardStage.permit stage).symm (by simp)
      (by simp [stage]) (by simp) rfl rfl
  · rename_i now stage
    cases stepped
    exact askShedder_advances sound stage now
  · rename_i stage
    cases stepped
    exact finish_advances sound stage _ early
  · rename_i elapsed now stage
    cases stepped
    exact record_advances sound stage elapsed early
  · rename_i stage
    cases stepped
    exact drop_advances sound stage early
  · rename_i permit now stage
    exact absurd stage (sound.calm permit)
  · rename_i stage
    cases stepped
    exact release_advances sound stage
  · cases stepped

end

/-- A step keeps the request, and only asking the shedder fails with a permit. -/
theorem step_moveTo (stepped : guard.step registries action = some taken) :
    ∃ next, taken.2.1 = guard.moveTo next ∧ ((∃ now, action = .askShedder now) ∨
      ∀ error permit, next ≠ .failed error (some permit)) := by
  unfold step at stepped
  split at stepped
  · cases stepped
    unfold askBreaker
    split
    · exact ⟨_, rfl, .inr (by simp)⟩
    · refine ⟨_, rfl, .inr ?_⟩
      split <;> simp
  · cases stepped
    exact ⟨_, rfl, .inr (by simp)⟩
  · rename_i now stage
    cases stepped
    unfold askShedder
    split <;> simp
  · cases stepped
    unfold finish
    split
    · refine ⟨_, rfl, .inr ?_⟩
      split <;> simp
    · exact ⟨_, rfl, .inr (by simp)⟩
  · cases stepped
    unfold record
    split
    · exact ⟨_, rfl, .inr (by simp)⟩
    · refine ⟨_, rfl, .inr ?_⟩
      split <;> simp
  iterate 2
    · cases stepped
      unfold drop
      split
      · grind
      · exact ⟨_, rfl, .inr (by simp)⟩
  · cases stepped
    unfold release
    split <;> exact ⟨_, rfl, .inr (by simp)⟩
  · cases stepped

theorem step_key (stepped : guard.step registries action = some taken) :
    taken.2.1.key = guard.key := by
  obtain ⟨_, moved, -⟩ := step_moveTo stepped
  rw [moved]
  rfl

/-! ## Accounting -/

/-- The guards that act early. -/
def earlyGuards (family : GuardFamily) :
    Process AdmissionRegistries (Guard family) (GuardAction family) GuardCall :=
  (guards family).restrict GuardAction.early

theorem earlyGuards_step {shared : AdmissionRegistries} {after : Guard family} {call : GuardCall}
    (stepped : (earlyGuards family).step registries guard action = some (shared, after, call)) :
    action.early = true ∧ guard.step registries action = some (shared, after, call) := by
  rw [earlyGuards, Process.restrict] at stepped
  exact Option.ite_none_right_eq_some.mp stepped

/-- A new guard holds nothing. -/
theorem initial_stage (allowed : (earlyGuards family).initial guard = true) :
    guard.stage = .entered := of_decide_eq_true allowed

theorem earlyGuards_sound (family : GuardFamily) : (earlyGuards family).Invariant Sound where
  starts guard allowed := by
    have stage := initial_stage allowed
    refine ⟨fun held => ?_, by simp [stage]⟩
    rw [permit_of_entered stage] at held
    cases held
  kept registries guard action registries' after call sound stepped := by
    obtain ⟨early, taken⟩ := earlyGuards_step stepped
    exact (step_advances sound early taken).sound

theorem earlyGuards_ledger (family : GuardFamily) :
    PermitLedger (earlyGuards family) Sound key permit where
  invariant := earlyGuards_sound family
  starts guard allowed := permit_of_entered (initial_stage allowed)
  steps registries guard action registries' after call sound stepped := by
    obtain ⟨early, taken⟩ := earlyGuards_step stepped
    exact ⟨step_key taken, (step_advances sound early taken).effect⟩

/-- A guard asks the breaker once, so it takes at most one permit. -/
theorem permitsTaken_le_one
    {events : List (PoolAction (Guard family) (GuardAction family) × Option GuardCall)}
    {final : Pool AdmissionRegistries (Guard family)}
    (run : (earlyGuards family).pool.Run (.empty .new) events final) (index : Nat) :
    Process.tally GuardCall.permitsTaken index events ≤ 1 := by
  refine (Process.tally_le GuardCall.permitsTaken_le_asked index events).trans ?_
  refine Process.spent_le_of_empty questions (earlyGuards_sound family) ?_ ?_ ?_ run index
  · intro guard allowed
    exact if_pos (initial_stage allowed)
  · intro registries guard action registries' after call sound stepped
    obtain ⟨early, taken⟩ := earlyGuards_step stepped
    exact (step_advances sound early taken).asked
  · intro guard
    rw [questions]
    split
    · exact Nat.zero_le 1
    · exact Bool.toNat_le _

/-! ## Lost permits -/

/-- The permit that a request had when it returned with an error. -/
def lost (guard : Guard family) : Option BreakerPermit :=
  match guard.stage with
  | .failed _ permit => permit
  | _ => none

theorem over_of_lost {permit : BreakerPermit} (lost : guard.lost = some permit) :
    guard.stage.isOver = true := by
  rw [Guard.lost] at lost
  split at lost
  · rename_i stage
    rw [stage]
    rfl
  · cases lost

theorem losing : Losing permit lost (fun guard : Guard family => guard.stage.isOver) := by
  refine ⟨fun {guard} ended => ?_, over_of_lost⟩
  rw [permit, lost]
  cases stage : guard.stage with
  | failed | finished | dropped => rfl
  | _ =>
    rw [stage] at ended
    cases ended

/-- Asking the shedder loses the permit when it refuses. -/
theorem askShedder_lost (permit : Option BreakerPermit) (now : Instant) (own : BreakerPermit) :
    (guard.askShedder registries permit now).2.1.lost = some own ↔
      permit = some own ∧ ∃ config, guard.policy.shedding = some config ∧
        (registries.shedders.entry guard.key).refuses config now = true := by
  unfold askShedder
  split
  · rename_i unconfigured
    simp [lost, moveTo, unconfigured]
  · rename_i config configured
    have answer : (registries.shedders.allow guard.key config now).2 =
        !(registries.shedders.entry guard.key).refuses config now :=
      SheddingState.allow_eq_not_refuses _ config now
    cases refused : (registries.shedders.entry guard.key).refuses config now with
    | true | false =>
      simp only [answer, refused]
      simp [lost, moveTo, configured, refused]

theorem step_askShedder (stepped : guard.step registries (.askShedder now) = some taken) :
    ∃ permit, guard.stage = .permitted permit ∧ guard.askShedder registries permit now = taken := by
  cases stage : guard.stage with
  | permitted permit =>
    simp only [step, stage, Option.some.injEq] at stepped
    simp_all
  | _ => simp [step, stage] at stepped

/-- A step loses a permit exactly when the shedder refuses a request that has one. -/
theorem step_lost (stepped : guard.step registries action = some taken) (own : BreakerPermit) :
    taken.2.1.lost = some own ↔ ∃ now config, action = .askShedder now ∧
      guard.stage = .permitted (some own) ∧ guard.policy.shedding = some config ∧
      (registries.shedders.entry guard.key).refuses config now = true := by
  by_cases asks : ∃ now, action = .askShedder now
  · obtain ⟨now, rfl⟩ := asks
    obtain ⟨permit, stage, rfl⟩ := step_askShedder stepped
    rw [askShedder_lost]
    constructor <;> simp_all
  · have other : ∀ now, action ≠ .askShedder now := fun now same => asks ⟨now, same⟩
    refine iff_of_false (fun lost => ?_) fun ⟨now, _, same, _⟩ => other now same
    obtain ⟨_, moved, ⟨now, same⟩ | kept⟩ := step_moveTo stepped
    · exact other now same
    · rw [moved, Guard.lost] at lost
      split at lost
      · rename_i error permit failed
        exact kept error own (lost ▸ failed)
      · cases lost

/-- A request for the key has lost such a permit. -/
def Loses (key : String) (permit : BreakerPermit) (pool : Pool AdmissionRegistries (Guard family)) :
    Prop :=
  ∃ guard ∈ pool.locals, guard.key = key ∧ guard.lost = some permit

/-- The action asks the shedder for a request that holds such a permit of the key, while the
shedder is cooling down or has no slot left. -/
def RefusesHolder (key : String) (permit : BreakerPermit)
    (pool : Pool AdmissionRegistries (Guard family))
    (action : PoolAction (Guard family) (GuardAction family)) : Prop :=
  ∃ index now guard config, action = .act index (.askShedder now) ∧
    pool.locals[index]? = some guard ∧ guard.key = key ∧ guard.stage = .permitted (some permit) ∧
    guard.policy.shedding = some config ∧
    (pool.shared.shedders.entry guard.key).refuses config now = true

/-- A permit is lost exactly by a refusal of its holder, and for ever. -/
theorem loses_step {key : String} {permit : BreakerPermit}
    {pool next : Pool AdmissionRegistries (Guard family)}
    {move : PoolAction (Guard family) (GuardAction family)} {output : Option GuardCall}
    (moved : (guards family).pool.step pool move = some (next, output)) :
    Loses key permit next ↔ Loses key permit pool ∨ RefusesHolder key permit pool move := by
  let refuses (shared : AdmissionRegistries) (guard : Guard family) (action : GuardAction family) :
      Prop :=
    guard.key = key ∧ ∃ now config, action = .askShedder now ∧ guard.stage = .permitted (some permit) ∧
      guard.policy.shedding = some config ∧
      (shared.shedders.entry guard.key).refuses config now = true
  have refused : (∃ index action guard, move = .act index action ∧
      pool.locals[index]? = some guard ∧ refuses pool.shared guard action) ↔
      RefusesHolder key permit pool move := by
    constructor
    · rintro ⟨index, _, guard, rfl, found, own, now, config, rfl, stage, configured, refused⟩
      exact ⟨index, now, guard, config, rfl, found, own, stage, configured, refused⟩
    · rintro ⟨index, now, guard, config, rfl, found, own, stage, configured, refused⟩
      grind
  rw [← refused]
  refine Process.pool_marked ?_ ?_ ?_ moved
  · rintro guard allowed ⟨-, lost⟩
    have entered : guard.stage = .entered := of_decide_eq_true allowed
    rw [Guard.lost, entered] at lost
    cases lost
  · intro registries guard action registries' after call stepped
    exact and_congr (by rw [step_key stepped]) (step_lost stepped permit)
  · rintro _ _ _ ⟨-, lost⟩
    have ended := over_of_lost lost
    change Guard.step _ _ _ = none
    unfold Guard.step
    split
    all_goals first
      | rfl
      | rename_i stage
        rw [stage] at ended
        cases ended

section Claims

variable {events : List (PoolAction (Guard family) (GuardAction family) × Option GuardCall)}
variable {final : Pool AdmissionRegistries (Guard family)}

/-- The calls of a request took at most one permit and resolved what they took. -/
def Settled (events : List (PoolAction (Guard family) (GuardAction family) × Option GuardCall))
    (index : Nat) : Prop :=
  Process.tally GuardCall.permitsTaken index events ≤ 1 ∧
    Process.tally GuardCall.permitsResolved index events =
      Process.tally GuardCall.permitsTaken index events

/-- No permit is lost along a run exactly when the shedder never refuses a holder. -/
theorem kept_iff (run : (guards family).pool.Run (.empty .new) events final) (key : String)
    (permit : BreakerPermit) :
    ¬ Loses key permit final ↔
      (guards family).pool.Along (fun pool action _ _ => ¬ RefusesHolder key permit pool action)
        (.empty .new) events := by
  refine run.marked_iff (fun _ _ _ _ moved => loses_step moved) ?_
  rintro ⟨_, member, -⟩
  cases member

end Claims

end Guard

open Guard in
/-- Over any interleaving of the requests of a boundary, every request that has returned an
error or whose guard is finished or dropped has resolved its permit exactly once, if and only
if the shedder never refuses a request that holds a permit. When all requests for a key are
over, its breaker is not half open, if and only if the shedder never refused one that held a
probe. -/
theorem permits_resolved_iff (boundary : GuardedBoundary)
    {events : List (PoolAction (Guard boundary.family) (GuardAction boundary.family) ×
      Option GuardCall)}
    {final : Pool AdmissionRegistries (Guard boundary.family)}
    (run : (guards boundary.family).pool.Run (.empty .new) events final)
    (early : ∀ index action output, (.act index action, output) ∈ events → action.early = true) :
    ((∀ index guard, final.locals[index]? = some guard → guard.stage.isOver = true →
        Settled events index) ↔
      ∀ key permit, (guards boundary.family).pool.Along
        (fun pool action _ _ => ¬ RefusesHolder key permit pool action) (.empty .new) events) ∧
    ∀ key, (∀ guard ∈ final.locals, guard.key = key → guard.stage.isOver = true) →
      ((final.shared.breakers.entry key).phase ≠ .halfOpen ↔
        (guards boundary.family).pool.Along
          (fun pool action _ _ => ¬ RefusesHolder key .probe pool action) (.empty .new) events) := by
  have restricted : (earlyGuards boundary.family).pool.Run (.empty .new) events final :=
    Process.restrict_run run early
  have ledger := earlyGuards_ledger boundary.family
  refine ⟨?_, fun key ended => (ledger.not_halfOpen_iff losing restricted ended).trans
    (kept_iff run key .probe)⟩
  refine Iff.trans ?_ ((ledger.all_resolved_iff losing restricted).trans
    (forall₂_congr (kept_iff run)))
  exact forall₄_congr fun index guard found ended =>
    and_iff_right (permitsTaken_le_one restricted index)

/-! ### A probe that is shed -/

namespace ShedProbe

/-- One failure opens the breaker for a millisecond and the shedder for a second. -/
def governance : Config.GovernanceConfig where
  timeoutMs := none
  retry := none
  rateLimit := none
  breaker := some ⟨1, 1⟩
  shedding := some ⟨1, 1000, 1, 500, 500, 1000⟩
  routes _ := none

def request : RouteRequest where
  service := "users"
  route := "/users"
  method := "get"
  governance := some governance

def arrival : Guard routeGuards := ⟨request, .entered⟩

/-- A request fails at the start of the clock. -/
def failure : List (PoolAction (Guard routeGuards) (GuardAction routeGuards)) :=
  [.spawn arrival, .act 0 (.askBreaker .zero), .act 0 (.askShedder .zero),
    .act 0 (.finish ⟨false, "500"⟩ .zero), .act 0 (.record .zero .zero)]

/-- The next one asks both registries. -/
def retry (now : Instant) : List (PoolAction (Guard routeGuards) (GuardAction routeGuards)) :=
  [.spawn arrival, .act 1 (.askBreaker now), .act 1 (.askShedder now)]

/-- After the reset of the breaker and before the shedder has cooled down. -/
def soon : Instant where
  nanos := 2000000
  representable := by decide

/-- After both. -/
def later : Instant where
  nanos := 2000000000
  representable := by decide

end ShedProbe

open ShedProbe

/-- The second request gets the probe and is shed with it: nobody resolves the probe, and the
breaker stays half open when both requests are over. -/
theorem shed_probe_unresolved :
    ∃ events final,
      (guards routeGuards).pool.Run (.empty .new) events final ∧
      events.map Prod.fst = ShedProbe.failure ++ ShedProbe.retry ShedProbe.soon ∧
      final.locals.map Guard.stage = [.finished, .failed .loadShed (some .probe)] ∧
      Process.tally GuardCall.permitsTaken 1 events = 1 ∧
      Process.tally GuardCall.permitsResolved 1 events = 0 ∧
      (final.shared.breakers.entry ShedProbe.arrival.key).phase = .halfOpen := by
  have evaluated : ((guards routeGuards).pool.exec (.empty .new)
      (failure ++ retry soon)).map (fun result =>
        (result.1.locals.map Guard.stage, Process.tally GuardCall.permitsTaken 1 result.2,
          Process.tally GuardCall.permitsResolved 1 result.2,
          (result.1.shared.breakers.entry arrival.key).phase)) =
      some ([.finished, .failed .loadShed (some .probe)], 1, 0, .halfOpen) := by
    decide +kernel
  obtain ⟨events, final, run, actions, same⟩ := Machine.exec_observed evaluated
  simp only [Prod.mk.injEq] at same
  exact ⟨events, final, run, actions, same⟩

/-- When the shedder has cooled down as well, the probe is admitted; its guard is dropped and
the breaker leaves the half-open phase. -/
theorem permits_resolved_iff_dropped_probe :
    ∃ events final,
      (guards routeGuards).pool.Run (.empty .new) events final ∧
      events.map Prod.fst = ShedProbe.failure ++ ShedProbe.retry ShedProbe.later ++
        [.act 1 (.drop ShedProbe.later), .act 1 .release] ∧
      (∀ index action output, (.act index action, output) ∈ events → action.early = true) ∧
      (∀ guard ∈ final.locals, guard.key = ShedProbe.arrival.key → guard.stage.isOver = true) ∧
      (final.shared.breakers.entry ShedProbe.arrival.key).phase ≠ .halfOpen ∧
      (guards routeGuards).pool.Along
        (fun pool action _ _ => ¬ Guard.RefusesHolder ShedProbe.arrival.key .probe pool action)
        (.empty .new) events := by
  have evaluated : ((guards routeGuards).pool.exec (.empty .new)
      (failure ++ retry later ++
        [.act 1 (.drop later), .act 1 .release])).map (fun result =>
        (result.1.locals.all (fun guard => guard.stage.isOver),
          (result.1.shared.breakers.entry arrival.key).phase)) =
      some (true, .opened) := by
    decide +kernel
  obtain ⟨events, final, run, actions, same⟩ := Machine.exec_observed evaluated
  simp only [Prod.mk.injEq] at same
  obtain ⟨all, phase⟩ := same
  have early : ∀ index action output, (.act index action, output) ∈ events →
      action.early = true := by
    refine Process.allowed_of_allows ?_
    rw [actions]
    decide +kernel
  have ended : ∀ guard ∈ final.locals, guard.key = arrival.key →
      guard.stage.isOver = true := fun guard member _ => List.all_eq_true.mp all guard member
  have outside : (final.shared.breakers.entry arrival.key).phase ≠ .halfOpen := by
    rw [phase]
    decide
  exact ⟨events, final, run, actions, early, ended, outside,
    ((permits_resolved_iff .rest run early).2 _ ended).mp outside⟩

end Roze.Admission
