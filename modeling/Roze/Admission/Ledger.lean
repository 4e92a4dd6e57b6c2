import Roze.Admission.Guard
import Roze.Resilience.SheddingSlots

/-!
# What requests hold of the registries

A request holds at most a permit of the breaker and a slot of the shedder of its key. Each step
makes at most one registry call, and the call says what the request takes or gives back. When
every step of a process does so, the registries agree with what all requests hold together, and
what the calls of one request took is what they gave back and what it still holds.
-/

namespace Roze.Admission

open Roze.Library
open Roze.Resilience

/-- What a request holds, and for which key. -/
structure Holding where
  key : String
  permit : Option BreakerPermit
  slot : Bool
deriving DecidableEq

namespace GuardCall

/-- The slots that a call hands out. -/
def slotsTaken : GuardCall → Nat
  | .sheddingAllow allowed => allowed.toNat
  | _ => 0

/-- Recording an outcome returns the slot, and so does releasing it. -/
def slotsReturned : GuardCall → Nat
  | .sheddingRecord _ => 1
  | .sheddingRelease => 1
  | _ => 0

end GuardCall

/-- What one step does to the breakers and to the permit of its request for a key. -/
inductive PermitEffect (key : String) (breakers : BreakerRegistry) (permit : Option BreakerPermit) :
    BreakerRegistry → Option BreakerPermit → GuardCall → Prop
  | silent (call : GuardCall) (untaken : call.permitsTaken = 0)
      (unresolved : call.permitsResolved = 0) :
      PermitEffect key breakers permit breakers permit call
  | admission (now : Instant) (free : permit = none) :
      PermitEffect key breakers permit (breakers.allow key now).1
        (breakers.allow key now).2.permit (.breakerAllow (breakers.allow key now).2)
  | resolution (own : BreakerPermit) (resolution : Resolution) (held : permit = some own) :
      PermitEffect key breakers permit (breakers.resolve key own resolution).1 none
        (.breakerResolve (breakers.resolve key own resolution).2)

/-- A permit comes from a configured breaker, so without one there is none. -/
theorem permit_eq_none {Breaker : Type} {breaker : Option Breaker} {permit : Option BreakerPermit}
    (configured : permit.isSome → breaker.isSome)
    (unmatched : ∀ config own, breaker = some config → permit = some own → False) :
    permit = none := by
  cases permit with
  | none => rfl
  | some own =>
    obtain ⟨config, known⟩ := Option.isSome_iff_exists.mp (configured rfl)
    simp_all

/-- The probes of a key that a request with a key of its own holds. -/
def probesHeld (key own : String) (permit : Option BreakerPermit) : Nat :=
  if own = key then (permit.map BreakerPermit.probes).getD 0 else 0

namespace PermitEffect

variable {key own : String} {breakers breakers' : BreakerRegistry} {others : Nat}
variable {permit after : Option BreakerPermit} {call : GuardCall}

/-- The balance of a key's probes is kept, whatever the other requests hold. -/
theorem balance (effect : PermitEffect own breakers permit breakers' after call)
    (before : ProbeBalance (breakers.entry key) (others + probesHeld key own permit)) :
    ProbeBalance (breakers'.entry key) (others + probesHeld key own after) := by
  cases effect with
  | silent => exact before
  | admission now free =>
    rw [probesHeld, free, Option.map_none, Option.getD_none, ite_self, Nat.add_zero] at before
    simp only [BreakerRegistry.allow, BreakerRegistry.entry_store, probesHeld]
    by_cases same : own = key
    · subst same
      simp only [if_true]
      exact before.allow now
    · grind
  | resolution permit resolution held =>
    rw [probesHeld, held, Option.map_some, Option.getD_some] at before
    rw [probesHeld, Option.map_none, Option.getD_none, ite_self, Nat.add_zero]
    rw [BreakerRegistry.entry_resolve]
    by_cases same : own = key
    · subst same
      simp only [if_true] at before ⊢
      exact before.resolve resolution
    · grind

/-- The permit held before and what the call takes are the permit held after and what the call
resolves. -/
theorem permits (effect : PermitEffect own breakers permit breakers' after call) :
    permit.isSome.toNat + call.permitsTaken = after.isSome.toNat + call.permitsResolved := by
  cases effect with
  | silent call untaken unresolved => rw [untaken, unresolved]
  | admission now free =>
    rw [free]
    exact Nat.zero_add _
  | resolution permit resolution held =>
    rw [held]
    rfl

end PermitEffect

namespace Holding

def slots (holding : Holding) : Nat := holding.slot.toNat

/-- The probes of a key that are held. -/
def probesOf (key : String) (holding : Holding) : Nat := probesHeld key holding.key holding.permit

/-- The slots of a key that are held. -/
def slotsOf (key : String) (holding : Holding) : Nat :=
  if holding.key = key then holding.slots else 0

/-- What one step does to the registries and to what its request holds. -/
inductive Effect (configs : String → SheddingConfig) (registries : AdmissionRegistries)
    (holding : Holding) : AdmissionRegistries → Holding → GuardCall → Prop
  | silent : Effect configs registries holding registries holding .none
  | admission (now : Instant) (free : holding.permit = none) :
      Effect configs registries holding
        { registries with breakers := (registries.breakers.allow holding.key now).1 }
        { holding with permit := (registries.breakers.allow holding.key now).2.permit }
        (.breakerAllow (registries.breakers.allow holding.key now).2)
  | resolution (permit : BreakerPermit) (resolution : Resolution)
      (held : holding.permit = some permit) :
      Effect configs registries holding
        { registries with breakers := (registries.breakers.resolve holding.key permit resolution).1 }
        { holding with permit := none }
        (.breakerResolve (registries.breakers.resolve holding.key permit resolution).2)
  | shedding (config : SheddingConfig) (now : Instant) (configured : config = configs holding.key)
      (free : holding.slot = false) :
      Effect configs registries holding
        { registries with shedders := (registries.shedders.allow holding.key config now).1 }
        { holding with slot := (registries.shedders.allow holding.key config now).2 }
        (.sheddingAllow (registries.shedders.allow holding.key config now).2)
  | recording (config : SheddingConfig) (success : Bool) (latency : Duration) (now : Instant)
      (configured : config = configs holding.key) (held : holding.slot = true) :
      Effect configs registries holding
        { registries with
          shedders := (registries.shedders.record holding.key success latency config now).1 }
        { holding with slot := false }
        (.sheddingRecord (registries.shedders.record holding.key success latency config now).2)
  | releasing (held : holding.slot = true) :
      Effect configs registries holding
        { registries with shedders := registries.shedders.release holding.key }
        { holding with slot := false } .sheddingRelease

namespace Effect

variable {configs : String → SheddingConfig} {registries registries' : AdmissionRegistries}
variable {holding after : Holding} {call : GuardCall} {key : String} {others : Nat}

section

variable (effect : holding.Effect configs registries registries' after call)
include effect

/-- The part of an effect that concerns the permit. -/
theorem permitEffect :
    PermitEffect holding.key registries.breakers holding.permit registries'.breakers after.permit
      call := by
  cases effect with
  | silent | shedding | recording | releasing => exact .silent _ rfl rfl
  | admission now free => exact .admission now free
  | resolution permit resolution held => exact .resolution permit resolution held

theorem key_eq :
    after.key = holding.key := by
  cases effect <;> rfl

/-- The count of a key's slots is kept, whatever the other requests hold. -/
theorem occupied
    (before : Occupied (configs key) (registries.shedders.entry key) (others + holding.slotsOf key)) :
    Occupied (configs key) (registries'.shedders.entry key) (others + after.slotsOf key) := by
  cases effect with
  | silent | admission | resolution => exact before
  | shedding config now configured free =>
    subst configured
    rw [slotsOf, slots, free, Bool.toNat_false, ite_self, Nat.add_zero] at before
    exact SheddingRegistry.occupied_allow holding.key now configs before
  | recording config success latency now configured held =>
    subst configured
    rw [slotsOf, slots, held, Bool.toNat_true] at before
    rw [slotsOf, slots, Bool.toNat_false, ite_self, Nat.add_zero]
    exact SheddingRegistry.occupied_record success latency now configs before
  | releasing held =>
    rw [slotsOf, slots, held, Bool.toNat_true] at before
    rw [slotsOf, slots, Bool.toNat_false, ite_self, Nat.add_zero]
    exact SheddingRegistry.occupied_release before

/-- The slot held before and what the call takes are the slot held after and what the call returns. -/
theorem slots :
    holding.slots + call.slotsTaken = after.slots + call.slotsReturned := by
  cases effect with
  | silent | admission | resolution => rfl
  | shedding config now configured free =>
    rw [Holding.slots, free]
    exact Nat.zero_add _
  | recording config success latency now configured held =>
    rw [Holding.slots, held]
    rfl
  | releasing held =>
    rw [Holding.slots, held]
    rfl

end

end Effect

end Holding

/-! ## Processes -/

/-- Requests that start without a permit and whose steps do what their calls say to it. -/
structure PermitLedger {Local Action : Type}
    (process : Process AdmissionRegistries Local Action GuardCall) (sound : Local → Prop)
    (keyOf : Local → String) (permitOf : Local → Option BreakerPermit) : Prop where
  invariant : process.Invariant sound
  starts : ∀ start, process.initial start = true → permitOf start = none
  steps : ∀ registries current action registries' after call, sound current →
    process.step registries current action = some (registries', after, call) →
    keyOf after = keyOf current ∧
      PermitEffect (keyOf current) registries.breakers (permitOf current) registries'.breakers
        (permitOf after) call

/-- Whoever is over holds what it has lost, and whoever has lost a permit is over. -/
structure Losing {Local : Type} (permitOf lost : Local → Option BreakerPermit)
    (isOver : Local → Bool) : Prop where
  held : ∀ {current}, isOver current = true → permitOf current = lost current
  ended : ∀ {current permit}, lost current = some permit → isOver current = true

namespace PermitLedger

variable {Local Action : Type} {process : Process AdmissionRegistries Local Action GuardCall}
variable {sound : Local → Prop} {keyOf : Local → String}
variable {permitOf : Local → Option BreakerPermit} {final : Pool AdmissionRegistries Local}
variable {events : List (PoolAction Local Action × Option GuardCall)}

section

variable (ledger : PermitLedger process sound keyOf permitOf)
include ledger

/-- The breaker of a key has out the probes that the requests hold, after any interleaving. -/
theorem probes (run : process.pool.Run (.empty .new) events final) (key : String) :
    ProbeBalance (final.shared.breakers.entry key)
      (final.total fun current => probesHeld key (keyOf current) (permitOf current)) := by
  have closed : ProbeBalance (AdmissionRegistries.new.breakers.entry key) 0 := .default
  have balanced : final.Balanced sound
      (fun registries held => ProbeBalance (registries.breakers.entry key) held)
      (fun current => probesHeld key (keyOf current) (permitOf current)) := by
    refine Process.run_total ledger.invariant ?_ ?_ closed run
    · intro start allowed
      rw [probesHeld, ledger.starts start allowed]
      exact ite_self 0
    · intro registries current action registries' after call others kept stepped before
      obtain ⟨same, effect⟩ := ledger.steps _ _ _ _ _ _ kept stepped
      rw [same]
      exact effect.balance before
  exact balanced.agreed

/-- What the calls of one request took they have resolved, or it still holds it. -/
theorem permits (run : process.pool.Run (.empty .new) events final) {index : Nat} {current : Local}
    (found : final.locals[index]? = some current) :
    Process.tally GuardCall.permitsTaken index events =
      Process.tally GuardCall.permitsResolved index events +
        (permitOf current).isSome.toNat := by
  refine Process.settled_of_empty (fun current => (permitOf current).isSome.toNat)
    ledger.invariant ?_ ?_ run found
  · intro start allowed
    rw [ledger.starts start allowed]
    rfl
  · intro registries current action registries' after call kept stepped
    exact (ledger.steps _ _ _ _ _ _ kept stepped).2.permits

variable {lost : Local → Option BreakerPermit} {isOver : Local → Bool}

/-- When every request is over that has lost its permit, the permits of those that are over are
resolved exactly if none is lost. -/
theorem all_resolved_iff (losing : Losing permitOf lost isOver)
    (run : process.pool.Run (.empty .new) events final) :
    (∀ index current, final.locals[index]? = some current → isOver current = true →
        Process.tally GuardCall.permitsResolved index events =
          Process.tally GuardCall.permitsTaken index events) ↔
      ∀ key permit, ¬ ∃ current ∈ final.locals, keyOf current = key ∧ lost current = some permit := by
  have resolved {index : Nat} {current : Local} (found : final.locals[index]? = some current)
      (ended : isOver current = true) :
      Process.tally GuardCall.permitsResolved index events =
        Process.tally GuardCall.permitsTaken index events ↔ lost current = none := by
    rw [ledger.permits run found, losing.held ended]
    cases lost current <;> simp
  constructor
  · rintro all _ permit ⟨current, member, _, gone⟩
    obtain ⟨index, found⟩ := List.mem_iff_getElem?.mp member
    have ended := losing.ended gone
    rw [(resolved found ended).mp (all index current found ended)] at gone
    cases gone
  · intro kept index current found ended
    rw [resolved found ended, Option.eq_none_iff_forall_ne_some]
    intro permit gone
    exact kept (keyOf current) permit ⟨current, List.mem_of_getElem? found, rfl, gone⟩

/-- When the requests for a key are over, the breaker is half open exactly if a probe was lost. -/
theorem not_halfOpen_iff (losing : Losing permitOf lost isOver)
    (run : process.pool.Run (.empty .new) events final) {key : String}
    (ended : ∀ current ∈ final.locals, keyOf current = key → isOver current = true) :
    (final.shared.breakers.entry key).phase ≠ .halfOpen ↔
      ¬ ∃ current ∈ final.locals, keyOf current = key ∧ lost current = some .probe := by
  have balance := ledger.probes run key
  constructor
  · rintro outside ⟨current, member, own, gone⟩
    have probe : probesHeld key (keyOf current) (permitOf current) = 1 := by
      rw [probesHeld, if_pos own, losing.held (losing.ended gone), gone]
      rfl
    have counted : probesHeld key (keyOf current) (permitOf current) ≤
        final.total (fun current => probesHeld key (keyOf current) (permitOf current)) :=
      List.le_sum_of_mem (List.mem_map_of_mem member)
    have none := balance.otherwise outside
    omega
  · intro kept inside
    have one := balance.halfOpen inside
    have none : final.total
        (fun current => probesHeld key (keyOf current) (permitOf current)) = 0 := by
      apply List.sum_eq_zero
      intro count member
      obtain ⟨current, place, rfl⟩ := List.mem_map.mp member
      rw [probesHeld]
      split
      · rename_i own
        rw [losing.held (ended current place own)]
        cases gone : lost current with
        | none => rfl
        | some permit =>
          cases permit with
          | closed => rfl
          | probe => simp_all
      · rfl
    omega

end

end PermitLedger

/-- Requests that start with nothing and whose steps do what their calls say. -/
structure Ledger {Local Action : Type} (configs : String → SheddingConfig)
    (process : Process AdmissionRegistries Local Action GuardCall) (sound : Local → Prop)
    (holding : Local → Holding) : Prop where
  invariant : process.Invariant sound
  starts : ∀ start, process.initial start = true →
    (holding start).permit = none ∧ (holding start).slot = false
  steps : ∀ registries current action registries' after call, sound current →
    process.step registries current action = some (registries', after, call) →
    (holding current).Effect configs registries registries' (holding after) call

/-- The registries agree with what the requests hold. -/
structure Accounted {Local : Type} (configs : String → SheddingConfig) (holding : Local → Holding)
    (key : String) (pool : Pool AdmissionRegistries Local) : Prop where
  slots : Occupied (configs key) (pool.shared.shedders.entry key)
    (pool.total fun current => (holding current).slotsOf key)
  probes : ProbeBalance (pool.shared.breakers.entry key)
    (pool.total fun current => (holding current).probesOf key)

namespace Ledger

variable {Local Action : Type} {configs : String → SheddingConfig}
variable {process : Process AdmissionRegistries Local Action GuardCall}
variable {sound : Local → Prop} {holding : Local → Holding} {final : Pool AdmissionRegistries Local}
variable {events : List (PoolAction Local Action × Option GuardCall)}

section

variable (ledger : Ledger configs process sound holding)
include ledger

theorem permitLedger :
    PermitLedger process sound (fun current => (holding current).key)
      (fun current => (holding current).permit) where
  invariant := ledger.invariant
  starts start allowed := (ledger.starts start allowed).1
  steps registries current action registries' after call kept stepped := by
    have effect := ledger.steps _ _ _ _ _ _ kept stepped
    exact ⟨effect.key_eq, effect.permitEffect⟩

theorem accounted (run : process.pool.Run (.empty .new) events final) (key : String) :
    Accounted configs holding key final := by
  have empty : Occupied (configs key) (AdmissionRegistries.new.shedders.entry key) 0 :=
    .default (configs key)
  have slots : final.Balanced sound
      (fun registries held => Occupied (configs key) (registries.shedders.entry key) held)
      (fun current => (holding current).slotsOf key) := by
    refine Process.run_total ledger.invariant ?_ ?_ empty run
    · intro start allowed
      rw [Holding.slotsOf, Holding.slots, (ledger.starts start allowed).2]
      exact ite_self 0
    · intro registries current action registries' after call others kept stepped before
      exact (ledger.steps _ _ _ _ _ _ kept stepped).occupied before
  exact ⟨slots.agreed, ledger.permitLedger.probes run key⟩

/-- The slots that the calls of one request took. -/
theorem slots (run : process.pool.Run (.empty .new) events final) {index : Nat} {current : Local}
    (found : final.locals[index]? = some current) :
    Process.tally GuardCall.slotsTaken index events =
      Process.tally GuardCall.slotsReturned index events +
        (holding current).slots := by
  refine Process.settled_of_empty (fun current => (holding current).slots) ledger.invariant ?_ ?_
    run found
  · intro start allowed
    rw [Holding.slots, (ledger.starts start allowed).2]
    rfl
  · intro registries current action registries' after call kept stepped
    exact (ledger.steps _ _ _ _ _ _ kept stepped).slots

end

end Ledger

end Roze.Admission
