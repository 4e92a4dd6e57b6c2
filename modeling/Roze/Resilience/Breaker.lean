import Roze.Library.Clock
import Roze.Library.Execution
import Roze.Library.MachineInteger

/-!
# The circuit breaker registry

Each key has a breaker that is closed, open or half open. `allow` hands out permits;
the caller later resolves its permit by recording the outcome or by cancelling. An
open breaker whose time has passed hands out one probe and is half open until that
probe is resolved.

Opening adds the reset timeout to the clock. That addition panics when the sum is
beyond the clock, and then the phase is already written and the deadline is not; the
map entry keeps what was written. The model returns how a call ended together with
the state it leaves.

Callers are tickets: an issued permit that has not been resolved, with the key it
was issued for. A ticket is resolved at most once, by one of the three calls, at any
later time and in any phase.
-/

namespace Roze.Resilience

open Roze.Library

/-- How many failures open a breaker, and for how long. -/
structure BreakerConfig where
  failureThreshold : UInt32
  resetTimeout : Duration
deriving DecidableEq

/-- The state of a breaker. -/
inductive BreakerPhase where
  | closed
  | opened
  | halfOpen
deriving DecidableEq, Repr

/-- What an admitted caller holds. -/
inductive BreakerPermit where
  | closed
  | probe
deriving DecidableEq, Repr

/-- The answer to a caller. -/
inductive BreakerDecision where
  | allow (permit : BreakerPermit)
  | reject
deriving DecidableEq, Repr

/-- The breaker of a key. -/
structure BreakerState where
  failures : UInt32
  phase : BreakerPhase
  openUntil : Option Instant
deriving DecidableEq

/-- How a call ended. -/
inductive Completion where
  | returned
  | panicked
deriving DecidableEq, Repr

namespace BreakerState

/-- A closed breaker without failures. -/
def default : BreakerState where
  failures := 0
  phase := .closed
  openUntil := none

/-- Open the breaker. The fields are written in order and the deadline comes last. -/
def openBreaker (state : BreakerState) (resetTimeout : Duration) (now : Instant) :
    BreakerState × Completion :=
  let state := { state with failures := 0, phase := .opened }
  match now.checkedAdd resetTimeout with
  | some deadline => ({ state with openUntil := some deadline }, .returned)
  | none => (state, .panicked)

/-- Only an open breaker changes here, when its time has come. -/
def allow (state : BreakerState) (now : Instant) : BreakerState × BreakerDecision :=
  match state.phase with
  | .closed => (state, .allow .closed)
  | .opened =>
      if state.openUntil.any (fun deadline => decide (now < deadline)) then (state, .reject)
      else ({ state with phase := .halfOpen, openUntil := none }, .allow .probe)
  | .halfOpen => (state, .reject)

/-- A success closes the breaker if it is the probe's. -/
def recordSuccess (state : BreakerState) (permit : BreakerPermit) : BreakerState :=
  match permit, state.phase with
  | .closed, .closed => { state with failures := 0 }
  | .probe, .halfOpen => { failures := 0, phase := .closed, openUntil := none }
  | _, _ => state

/-- The failure of a probe, or one too many, opens the breaker. -/
def recordFailure (state : BreakerState) (permit : BreakerPermit) (config : BreakerConfig)
    (now : Instant) : BreakerState × Completion :=
  match permit, state.phase with
  | .closed, .closed =>
      let state := { state with failures := saturatingAddU32 state.failures 1 }
      if max config.failureThreshold 1 ≤ state.failures then
        state.openBreaker config.resetTimeout now
      else (state, .returned)
  | .probe, .halfOpen => state.openBreaker config.resetTimeout now
  | _, _ => (state, .returned)

/-- What cancelling does to an existing entry. -/
def cancel (state : BreakerState) (permit : BreakerPermit) (config : BreakerConfig)
    (now : Instant) : BreakerState × Completion :=
  if permit ≠ .probe then (state, .returned)
  else if state.phase = .halfOpen then state.openBreaker config.resetTimeout now
  else (state, .returned)

/-- How long a request that was rejected should wait. -/
def retryAfter (state : BreakerState) (now : Instant) : Option Duration :=
  match state.phase with
  | .opened => state.openUntil.map (fun deadline => max (deadline.durationSince now) .millisecond)
  | .halfOpen => some .second
  | .closed => none

end BreakerState

/-- A breaker for every key that was used. -/
structure BreakerRegistry where
  states : String → Option BreakerState

namespace BreakerRegistry

def new : BreakerRegistry where
  states _ := none

/-- The state of a key, the default one when the key is new. -/
def entry (registry : BreakerRegistry) (key : String) : BreakerState :=
  (registry.states key).getD .default

/-- Store the state of a key. -/
def store (registry : BreakerRegistry) (key : String) (state : BreakerState) : BreakerRegistry where
  states := Function.update registry.states key (some state)

def allow (registry : BreakerRegistry) (key : String) (now : Instant) :
    BreakerRegistry × BreakerDecision :=
  let allowed := (registry.entry key).allow now
  (registry.store key allowed.1, allowed.2)

def recordSuccess (registry : BreakerRegistry) (key : String) (permit : BreakerPermit) :
    BreakerRegistry :=
  registry.store key ((registry.entry key).recordSuccess permit)

def recordFailure (registry : BreakerRegistry) (key : String) (permit : BreakerPermit)
    (config : BreakerConfig) (now : Instant) : BreakerRegistry × Completion :=
  let recorded := (registry.entry key).recordFailure permit config now
  (registry.store key recorded.1, recorded.2)

/-- Cancelling does not create an entry. -/
def cancel (registry : BreakerRegistry) (key : String) (permit : BreakerPermit)
    (config : BreakerConfig) (now : Instant) : BreakerRegistry × Completion :=
  match registry.states key with
  | none => (registry, .returned)
  | some state =>
      let cancelled := state.cancel permit config now
      (registry.store key cancelled.1, cancelled.2)

def retryAfter (registry : BreakerRegistry) (key : String) (now : Instant) : Option Duration :=
  (registry.states key).bind (BreakerState.retryAfter · now)

end BreakerRegistry

/-! ## Callers -/

/-- A call that resolves a permit, with its arguments. -/
inductive Resolution where
  | success
  | failure (config : BreakerConfig) (now : Instant)
  | cancelled (config : BreakerConfig) (now : Instant)

/-- What a resolution does to the state of the permit's key. -/
def BreakerState.resolve (state : BreakerState) (permit : BreakerPermit) :
    Resolution → BreakerState × Completion
  | .success => (state.recordSuccess permit, .returned)
  | .failure config now => state.recordFailure permit config now
  | .cancelled config now => state.cancel permit config now

/-- Resolve a permit of a key. -/
def BreakerRegistry.resolve (registry : BreakerRegistry) (key : String) (permit : BreakerPermit) :
    Resolution → BreakerRegistry × Completion
  | .success => (registry.recordSuccess key permit, .returned)
  | .failure config now => registry.recordFailure key permit config now
  | .cancelled config now => registry.cancel key permit config now

/-- An issued permit that has not been resolved. -/
structure Ticket where
  id : Nat
  key : String
  permit : BreakerPermit
deriving DecidableEq

/-- A call of a registry. -/
inductive BreakerAction where
  | allow (ticket : Nat) (key : String) (now : Instant)
  | resolve (ticket : Nat) (resolution : Resolution)

/-- What a call returns. -/
inductive BreakerOutput where
  | decided (decision : BreakerDecision)
  | completed (completion : Completion)
deriving DecidableEq

/-- The registry and the tickets that are out. -/
structure BreakerSystem where
  registry : BreakerRegistry
  outstanding : List Ticket

namespace BreakerSystem

/-- A ticket is issued once and resolved once. -/
def step (system : BreakerSystem) : BreakerAction → Option (BreakerSystem × BreakerOutput)
  | .allow ticket key now =>
      if ticket ∈ system.outstanding.map Ticket.id then none
      else
        let allowed := system.registry.allow key now
        some ({ registry := allowed.1
                outstanding := match allowed.2 with
                  | .allow permit => ⟨ticket, key, permit⟩ :: system.outstanding
                  | .reject => system.outstanding }, .decided allowed.2)
  | .resolve ticket resolution =>
      match system.outstanding.find? (fun issued => issued.id = ticket) with
      | none => none
      | some issued =>
          let resolved := system.registry.resolve issued.key issued.permit resolution
          some ({ registry := resolved.1, outstanding := system.outstanding.erase issued },
            .completed resolved.2)

/-- A new registry without callers. -/
def idle : BreakerSystem where
  registry := .new
  outstanding := []

/-- The state of the key's breaker. -/
def breaker (system : BreakerSystem) (key : String) : BreakerState := system.registry.entry key

/-- How many probes of the key are out. -/
def probes (system : BreakerSystem) (key : String) : Nat :=
  system.outstanding.countP (fun issued => issued.key = key && issued.permit = .probe)

end BreakerSystem

/-- The registry with its callers as a machine. -/
def breakers : Machine BreakerSystem BreakerAction BreakerOutput where
  step := BreakerSystem.step

/-! ## What a call does to a breaker -/

namespace BreakerRegistry

/-- A call touches one key. -/
@[simp] theorem entry_store (registry : BreakerRegistry) (key other : String)
    (state : BreakerState) :
    (registry.store key state).entry other = if other = key then state else registry.entry other := by
  by_cases same : other = key <;> simp [entry, store, same]

/-- A resolution changes the breaker of its own key only. -/
theorem entry_resolve (registry : BreakerRegistry) (key other : String) (permit : BreakerPermit)
    (resolution : Resolution) :
    (registry.resolve key permit resolution).1.entry other =
      if other = key then ((registry.entry key).resolve permit resolution).1
      else registry.entry other := by
  cases resolution with
  | success | failure => exact entry_store registry key other _
  | cancelled config now =>
    cases found : registry.states key with
    | some state =>
      have current : registry.entry key = state := by simp [entry, found]
      simp only [resolve, cancel, found, entry_store, BreakerState.resolve, current]
    | none =>
      have current : registry.entry key = .default := by simp [entry, found]
      have nothing : (BreakerState.default.cancel permit config now).1 = .default := by
        simp [BreakerState.cancel, BreakerState.default]
      simp only [resolve, cancel, found, BreakerState.resolve, current, nothing]
      simp_all

end BreakerRegistry

/-- The deadline a resolution computes; none when it is beyond the clock. -/
def Resolution.deadline : Resolution → Option Instant
  | .success => none
  | .failure config now => now.checkedAdd config.resetTimeout
  | .cancelled config now => now.checkedAdd config.resetTimeout

namespace BreakerState

/-- The resolution opens the breaker: a failure that reaches the threshold, or a probe
that does not succeed. -/
def opens (state : BreakerState) (permit : BreakerPermit) : Resolution → Bool
  | .success => false
  | .failure config _ =>
      match permit, state.phase with
      | .closed, .closed =>
          decide (max config.failureThreshold 1 ≤ saturatingAddU32 state.failures 1)
      | .probe, .halfOpen => true
      | _, _ => false
  | .cancelled _ _ => decide (permit = .probe) && decide (state.phase = .halfOpen)

variable {state : BreakerState} {permit : BreakerPermit} {resolution : Resolution}

/-- An admission leaves the state alone unless it hands out a probe. -/
theorem allow_cases (state : BreakerState) (now : Instant) :
    (∃ decision, decision ≠ .allow .probe ∧ state.allow now = (state, decision)) ∨
      (state.phase = .opened ∧
        state.allow now = ({ state with phase := .halfOpen, openUntil := none }, .allow .probe)) := by
  cases phase : state.phase with
  | closed => exact .inl ⟨.allow .closed, by simp, by simp only [allow, phase]⟩
  | halfOpen => exact .inl ⟨.reject, by simp, by simp only [allow, phase]⟩
  | opened =>
    by_cases waiting : state.openUntil.any (fun deadline => decide (now < deadline)) = true
    · exact .inl ⟨.reject, by simp, by simp only [allow, phase, if_pos waiting]⟩
    · exact .inr ⟨rfl, by simp only [allow, phase, if_neg waiting]⟩

/-- The phase is written whatever becomes of the deadline. -/
theorem openBreaker_fst (state : BreakerState) (resetTimeout : Duration) (now : Instant) :
    (state.openBreaker resetTimeout now).1 =
      { failures := 0
        phase := .opened
        openUntil := (now.checkedAdd resetTimeout).or state.openUntil } := by
  unfold openBreaker
  grind

/-- Only a closed permit in a closed breaker and a probe in a half-open one can open it. -/
theorem phase_of_opens (opens : state.opens permit resolution = true) :
    (permit = .closed ∧ state.phase = .closed) ∨ (permit = .probe ∧ state.phase = .halfOpen) := by
  cases resolution with
  | success => cases opens
  | failure =>
    cases permit <;> cases phase : state.phase <;> simp_all [BreakerState.opens]
  | cancelled =>
    simp only [BreakerState.opens, Bool.and_eq_true, decide_eq_true_eq] at opens
    exact .inr opens

/-- A resolution that opens the breaker resets the count and writes its deadline, if
that exists. -/
theorem resolve_opens (opens : state.opens permit resolution = true) :
    (state.resolve permit resolution).1 =
      { failures := 0, phase := .opened, openUntil := resolution.deadline.or state.openUntil } := by
  cases resolution with
  | success => cases opens
  | failure config =>
    rcases phase_of_opens opens with ⟨rfl, phase⟩ | ⟨rfl, phase⟩
    · have reached : max config.failureThreshold 1 ≤ saturatingAddU32 state.failures 1 := by
        simpa [BreakerState.opens, phase] using opens
      simp only [resolve, recordFailure, phase, if_pos reached, openBreaker_fst, Resolution.deadline]
    · simp only [resolve, recordFailure, phase, openBreaker_fst, Resolution.deadline]
  | cancelled =>
    simp only [BreakerState.opens, Bool.and_eq_true, decide_eq_true_eq] at opens
    simp only [resolve, cancel, opens, ne_eq, not_true, if_false, if_true, openBreaker_fst,
      Resolution.deadline]

/-- A resolution that does not open the breaker keeps its phase and deadline, or is the
success of a probe and closes it. -/
theorem resolve_of_not_opens (stays : state.opens permit resolution = false) :
    ((state.resolve permit resolution).1.phase = state.phase ∧
        (state.resolve permit resolution).1.openUntil = state.openUntil ∧
        (permit = .probe → state.phase ≠ .halfOpen)) ∨
      (permit = .probe ∧ state.phase = .halfOpen ∧ (state.resolve permit resolution).1 = .default) := by
  cases resolution with
  | success =>
    cases permit <;> cases phase : state.phase <;>
      simp [resolve, recordSuccess, phase, BreakerState.default]
  | failure config =>
    cases permit with
    | closed =>
      cases phase : state.phase with
      | closed =>
        have below : ¬ max config.failureThreshold 1 ≤ saturatingAddU32 state.failures 1 := by
          simpa [BreakerState.opens, phase] using stays
        simp only [resolve, recordFailure, phase, if_neg below]
        simp
      | opened | halfOpen => simp [resolve, recordFailure, phase]
    | probe =>
      cases phase : state.phase with
      | closed | opened => simp [resolve, recordFailure, phase]
      | halfOpen => simp [BreakerState.opens, phase] at stays
  | cancelled =>
    simp only [BreakerState.opens, Bool.and_eq_false_iff, decide_eq_false_iff_not] at stays
    rcases stays with notProbe | notHalfOpen
    · simp [resolve, cancel, notProbe]
    · simp [resolve, cancel, notHalfOpen]

/-- A deadline within the clock lets a resolution return. -/
theorem resolve_returned (state : BreakerState) (permit : BreakerPermit)
    (within : resolution = .success ∨ resolution.deadline.isSome) :
    (state.resolve permit resolution).2 = .returned := by
  have opened (state : BreakerState) {timeout : Duration} {now : Instant}
      (within : (now.checkedAdd timeout).isSome) : (state.openBreaker timeout now).2 = .returned := by
    obtain ⟨_, sum⟩ := Option.isSome_iff_exists.mp within
    simp only [openBreaker, sum]
  cases resolution with
  | success => rfl
  | failure =>
    have room := within.resolve_left (by simp)
    simp only [resolve, recordFailure]
    split
    · split
      · exact opened _ room
      · rfl
    · exact opened _ room
    · rfl
  | cancelled =>
    have room := within.resolve_left (by simp)
    simp only [resolve, cancel]
    split
    · rfl
    · split
      · exact opened _ room
      · rfl

end BreakerState

open BreakerState

theorem BreakerRegistry.resolve_returned {resolution : Resolution} (registry : BreakerRegistry)
    (key : String) (permit : BreakerPermit)
    (within : resolution = .success ∨ resolution.deadline.isSome) :
    (registry.resolve key permit resolution).2 = .returned := by
  cases resolution with
  | success => rfl
  | failure => exact (registry.entry key).resolve_returned permit within
  | cancelled =>
    simp only [resolve, cancel]
    split
    · rfl
    · rename_i state found
      exact state.resolve_returned permit within

/-- The probes that a permit is. -/
def BreakerPermit.probes (permit : BreakerPermit) : Nat := if permit = .probe then 1 else 0

/-- The permit that a decision hands out. -/
def BreakerDecision.permit : BreakerDecision → Option BreakerPermit
  | .allow permit => some permit
  | .reject => none

/-- The number of probes that are out is one in the half-open phase and zero in the
others. -/
structure ProbeBalance (state : BreakerState) (probes : Nat) : Prop where
  halfOpen : state.phase = .halfOpen → probes = 1
  otherwise : state.phase ≠ .halfOpen → probes = 0

namespace ProbeBalance

variable {state : BreakerState} {probes : Nat}

/-- Outside the half-open phase no probe is out. -/
theorem of_outside (outside : state.phase ≠ .halfOpen) : ProbeBalance state 0 :=
  ⟨fun inside => absurd inside outside, fun _ => rfl⟩

theorem default : ProbeBalance .default 0 := of_outside (by simp [BreakerState.default])

/-- An admission hands out at most one probe, and only when none is out. -/
theorem allow (balance : ProbeBalance state probes) (now : Instant) :
    ProbeBalance (state.allow now).1
      (probes + ((state.allow now).2.permit.map BreakerPermit.probes).getD 0) := by
  rcases state.allow_cases now with ⟨decision, notProbe, allowed⟩ | ⟨due, allowed⟩
  · have nothing : (decision.permit.map BreakerPermit.probes).getD 0 = 0 := by
      cases decision with
      | reject => rfl
      | allow permit =>
        have closed : permit ≠ .probe := fun same => notProbe (same ▸ rfl)
        exact if_neg closed
    simp_all
  · have none : probes = 0 := balance.otherwise (by simp [due])
    rw [allowed, none]
    exact ⟨fun _ => rfl, fun outside => absurd rfl outside⟩

/-- Resolving a permit takes it out of the probes.

Proof: a probe that is out means the half-open phase, so its resolution is the one that
leaves the phase, and it takes the only probe away. A closed permit acts in the closed
phase alone. -/
theorem resolve {permit : BreakerPermit} (balance : ProbeBalance state (probes + permit.probes))
    (resolution : Resolution) : ProbeBalance (state.resolve permit resolution).1 probes := by
  have probe : permit = .probe → state.phase = .halfOpen ∧ probes = 0 := by
    rintro rfl
    have inside : state.phase = .halfOpen := by
      by_contra outside
      exact absurd (balance.otherwise outside) (Nat.succ_ne_zero probes)
    exact ⟨inside, Nat.succ_injective (balance.halfOpen inside)⟩
  cases opens : state.opens permit resolution with
  | true =>
    have none : probes = 0 := by
      rcases phase_of_opens opens with ⟨rfl, phase⟩ | ⟨isProbe, _⟩
      · exact balance.otherwise (by simp [phase])
      · exact (probe isProbe).2
    rw [resolve_opens opens, none]
    exact of_outside (by simp)
  | false =>
    rcases resolve_of_not_opens opens with
      ⟨samePhase, _, notHalfOpen⟩ | ⟨isProbe, _, closed⟩
    · have notProbe : permit ≠ .probe := fun isProbe => notHalfOpen isProbe (probe isProbe).1
      rw [BreakerPermit.probes, if_neg notProbe, Nat.add_zero] at balance
      exact ⟨by rw [samePhase]; exact balance.halfOpen, by rw [samePhase]; exact balance.otherwise⟩
    · rw [closed, (probe isProbe).2]
      exact default

end ProbeBalance

/-- What one call can do to a key: the state of its breaker and the number of its
probes that are out. -/
inductive BreakerEffect (system : BreakerSystem) (key : String) :
    BreakerAction → BreakerState → Nat → Prop
  | unaffected (action : BreakerAction) :
      BreakerEffect system key action (system.breaker key) (system.probes key)
  | probed (ticket : Nat) (now : Instant) (due : (system.breaker key).phase = .opened) :
      BreakerEffect system key (.allow ticket key now)
        { system.breaker key with phase := .halfOpen, openUntil := none } (system.probes key + 1)
  | resolved (ticket : Nat) (resolution : Resolution) (issued : Ticket)
      (out : system.outstanding.find? (fun issued => issued.id = ticket) = some issued)
      (own : issued.key = key) (left : Nat)
      (count : system.probes key = left + if issued.permit = .probe then 1 else 0) :
      BreakerEffect system key (.resolve ticket resolution)
        ((system.breaker key).resolve issued.permit resolution).1 left

namespace BreakerSystem

variable {system next : BreakerSystem} {action : BreakerAction} {output : BreakerOutput}

/-- Resolving a ticket takes it out of the probes of its key if it is one. -/
theorem probes_erase {issued : Ticket} (member : issued ∈ system.outstanding) (key : String) :
    system.probes key =
      (system.outstanding.erase issued).countP
          (fun issued => issued.key = key && issued.permit = .probe) +
        if issued.key = key ∧ issued.permit = .probe then 1 else 0 := by
  rw [probes, (List.perm_cons_erase member).countP_eq, List.countP_cons]
  simp

/-- Issuing a ticket adds it to the probes of its key if it is one. -/
theorem probes_issue (registry : BreakerRegistry) (issued : Ticket) (key : String) :
    probes ⟨registry, issued :: system.outstanding⟩ key =
      system.probes key + if issued.key = key ∧ issued.permit = .probe then 1 else 0 := by
  simp [probes, List.countP_cons]

/-- Every call has one of the three effects on every key. -/
theorem step_effect (taken : breakers.step system action = some (next, output)) (key : String) :
    BreakerEffect system key action (next.breaker key) (next.probes key) := by
  cases action with
  | allow ticket wanted now =>
    obtain ⟨_, built⟩ := of_unless taken
    cases built
    rcases (system.registry.entry wanted).allow_cases now with
      ⟨decision, notProbe, allowed⟩ | ⟨due, allowed⟩
    · have kept : (system.registry.store wanted (system.registry.entry wanted)).entry key =
          system.breaker key := by
        rw [BreakerRegistry.entry_store, breaker]
        simp_all
      simp only [BreakerRegistry.allow, allowed, breaker, kept]
      cases decision with
      | reject => exact .unaffected _
      | allow permit =>
        have closed : permit ≠ .probe := fun same => notProbe (same ▸ rfl)
        rw [probes_issue, if_neg (fun counted => closed counted.2)]
        exact .unaffected _
    · simp only [BreakerRegistry.allow, allowed, breaker, BreakerRegistry.entry_store]
      by_cases same : key = wanted
      · subst same
        rw [if_pos rfl, probes_issue, if_pos ⟨rfl, rfl⟩]
        exact .probed ticket now due
      · rw [if_neg same, probes_issue, if_neg (fun counted => same counted.1.symm)]
        exact .unaffected _
  | resolve ticket resolution =>
    simp only [breakers, step] at taken
    split at taken
    · cases taken
    · rename_i issued out
      cases taken
      have count := probes_erase (List.mem_of_find?_eq_some out) key
      rw [breaker, BreakerRegistry.entry_resolve]
      by_cases own : issued.key = key
      · subst own
        rw [if_pos rfl]
        simp only [true_and] at count
        exact .resolved ticket resolution issued out rfl _ count
      · rw [if_neg (Ne.symm own)]
        simp only [own, false_and, if_false, Nat.add_zero] at count
        rw [probes, ← count]
        exact .unaffected _

/-- A resolution is that of a ticket that is out, and the ticket's permit acts on the
breaker of the ticket's key. -/
theorem step_resolve {ticket : Nat} {resolution : Resolution}
    (taken : breakers.step system (.resolve ticket resolution) = some (next, output)) :
    ∃ issued, system.outstanding.find? (fun issued => issued.id = ticket) = some issued ∧
      next.breaker issued.key =
        ((system.breaker issued.key).resolve issued.permit resolution).1 := by
  simp only [breakers, step] at taken
  split at taken
  · cases taken
  · rename_i issued out
    cases taken
    refine ⟨issued, out, ?_⟩
    simp only [breaker, BreakerRegistry.entry_resolve, if_true]

/-! ## One probe at a time -/

/-- One probe is out exactly in the half-open phase and none in the others, and a
deadline is set exactly in the open phase. -/
structure SingleProbe (key : String) (system : BreakerSystem) : Prop where
  halfOpen : (system.breaker key).phase = .halfOpen ↔ system.probes key = 1
  otherwise : (system.breaker key).phase ≠ .halfOpen → system.probes key = 0
  deadline : (system.breaker key).openUntil.isSome ↔ (system.breaker key).phase = .opened

/-- Only the resolution of a probe of this key that is out ends the half-open phase. -/
def LeavesByProbe (key : String) (system : BreakerSystem) (action : BreakerAction)
    (next : BreakerSystem) : Prop :=
  (system.breaker key).phase = .halfOpen → (next.breaker key).phase ≠ .halfOpen →
    ∃ ticket resolution issued, action = .resolve ticket resolution ∧
      system.outstanding.find? (fun issued => issued.id = ticket) = some issued ∧
      issued.key = key ∧ issued.permit = .probe

/-- The call opens the key's breaker with a deadline beyond the clock. -/
def OpensBeyondClock (key : String) (system : BreakerSystem) : BreakerAction → Prop
  | .allow _ _ _ => False
  | .resolve ticket resolution => ∃ issued,
      system.outstanding.find? (fun issued => issued.id = ticket) = some issued ∧
      issued.key = key ∧ (system.breaker key).opens issued.permit resolution = true ∧
      resolution.deadline = none

/-- What holds of the probes and the deadline of a key even when a call panics. -/
structure ProbeInvariant (key : String) (system : BreakerSystem) : Prop where
  halfOpen : (system.breaker key).phase = .halfOpen → system.probes key = 1
  otherwise : (system.breaker key).phase ≠ .halfOpen → system.probes key = 0
  deadline : (system.breaker key).openUntil.isSome → (system.breaker key).phase = .opened

/-- Every call keeps the probe invariant. -/
theorem probeInvariant_step {key : String} (invariant : ProbeInvariant key system)
    (taken : breakers.step system action = some (next, output)) : ProbeInvariant key next := by
  obtain ⟨halfOpen, otherwise, deadline⟩ := invariant
  have effect := step_effect taken key
  generalize after : next.breaker key = state, counted : next.probes key = count at effect
  cases effect with
  | unaffected => exact ⟨by rwa [after, counted], by rwa [after, counted], by rwa [after]⟩
  | probed ticket now due =>
    have none : system.probes key = 0 := otherwise (by simp [due])
    constructor
    · omega
    · simp_all
    · simp_all
  | resolved ticket resolution issued out own _ remaining =>
    have before : ProbeBalance (system.breaker key) (count + issued.permit.probes) := by
      rw [BreakerPermit.probes, ← remaining]
      exact ⟨halfOpen, otherwise⟩
    obtain ⟨inside, outside⟩ := before.resolve resolution
    rw [← after] at inside outside
    refine ⟨counted ▸ inside, counted ▸ outside, fun set => ?_⟩
    rw [after] at set ⊢
    -- a resolution sets a deadline only when it leaves the breaker open
    cases opens : (system.breaker key).opens issued.permit resolution with
    | true => rw [resolve_opens opens]
    | false =>
      rcases resolve_of_not_opens opens with ⟨samePhase, sameDeadline, _⟩ | ⟨_, _, closed⟩
      · simp_all
      · rw [closed] at set
        cases set

/-- A new registry has no probe out. -/
theorem idle_probeInvariant (key : String) : ProbeInvariant key idle := by
  obtain ⟨inside, outside⟩ := ProbeBalance.default
  exact ⟨inside, outside, fun set => by cases set⟩

/-- The half-open phase ends only with its probe. -/
theorem leavesByProbe_step {key : String}
    (taken : breakers.step system action = some (next, output)) :
    LeavesByProbe key system action next := by
  intro inside outside
  have effect := step_effect taken key
  generalize after : next.breaker key = state, next.probes key = count at effect
  cases effect with
  | unaffected | probed => simp_all
  | resolved ticket resolution issued out own =>
    refine ⟨ticket, resolution, issued, rfl, out, own, ?_⟩
    by_contra notProbe
    cases opens : (system.breaker key).opens issued.permit resolution with
    | true =>
      rcases phase_of_opens opens with ⟨_, closed⟩ | ⟨isProbe, _⟩
      · simp_all
      · exact notProbe isProbe
    | false =>
      rcases resolve_of_not_opens opens with ⟨samePhase, _, _⟩ | ⟨isProbe, _, _⟩
      · simp_all
      · exact notProbe isProbe

/-- An open breaker has a deadline, and not one before a time. -/
def DeadlineSet (key : String) (earliest : Nat) (system : BreakerSystem) : Prop :=
  (system.breaker key).phase = .opened →
    ∃ deadline, (system.breaker key).openUntil = some deadline ∧ earliest ≤ deadline.nanos

/-- A call that opens the key's breaker does so until a time at the least. -/
def OpensUntil (key : String) (earliest : Nat) (system : BreakerSystem) : BreakerAction → Prop
  | .allow _ _ _ => True
  | .resolve ticket resolution => ∀ issued,
      system.outstanding.find? (fun issued => issued.id = ticket) = some issued → issued.key = key →
      (system.breaker key).opens issued.permit resolution = true →
      ∃ deadline, resolution.deadline = some deadline ∧ earliest ≤ deadline.nanos

/-- A call that opens the breaker, if any, until late enough keeps the deadline set. -/
theorem deadlineSet_step {key : String} {earliest : Nat} (set : DeadlineSet key earliest system)
    (taken : breakers.step system action = some (next, output))
    (late : OpensUntil key earliest system action) : DeadlineSet key earliest next := by
  have effect := step_effect taken key
  generalize after : next.breaker key = state, next.probes key = count at effect
  cases effect with
  | unaffected =>
    rw [DeadlineSet, after]
    exact set
  | probed =>
    intro opened
    simp_all
  | resolved ticket resolution issued out own =>
    cases opens : (system.breaker key).opens issued.permit resolution with
    | true =>
      intro _
      obtain ⟨deadline, computed, above⟩ := late issued out own opens
      rw [after, resolve_opens opens, computed]
      simp_all
    | false =>
      rcases resolve_of_not_opens opens with ⟨samePhase, sameDeadline, _⟩ | ⟨_, _, closed⟩
      · rw [DeadlineSet, after, samePhase, sameDeadline]
        exact set
      · intro opened
        rw [after, closed] at opened
        cases opened

theorem opensUntil_zero {key : String} (within : ¬ OpensBeyondClock key system action) :
    OpensUntil key 0 system action := by
  cases action with
  | allow => trivial
  | resolve ticket resolution =>
    intro issued out own opens
    cases computed : resolution.deadline with
    | none => exact absurd ⟨issued, out, own, opens, computed⟩ within
    | some deadline => simp

/-- A call that opens the breaker beyond the clock leaves it open without a deadline. -/
theorem open_without_deadline {key : String} (invariant : ProbeInvariant key system)
    (taken : breakers.step system action = some (next, output))
    (beyond : OpensBeyondClock key system action) :
    (next.breaker key).phase = .opened ∧ (next.breaker key).openUntil = none := by
  cases action with
  | allow => cases beyond
  | resolve =>
    obtain ⟨issued, out, rfl, opens, deadline⟩ := beyond
    obtain ⟨found, outAgain, after⟩ := step_resolve taken
    obtain rfl : issued = found := Option.some.inj (out.symm.trans outAgain)
    have unset : (system.breaker issued.key).openUntil = none := by
      have notOpened : (system.breaker issued.key).phase ≠ .opened := by
        rcases phase_of_opens opens with ⟨_, phase⟩ | ⟨_, phase⟩ <;> simp [phase]
      exact Option.not_isSome_iff_eq_none.mp fun set => notOpened (invariant.deadline set)
    rw [after, resolve_opens opens, deadline, unset]
    exact ⟨rfl, rfl⟩

/-- Along any interleaving, a key has the one probe of its half-open phase, loses it only
by that probe's resolution and has a deadline exactly while it is open, if and only if no
call opens it beyond the clock. Everything but the deadline holds in any case. -/
theorem singleProbe_iff (key : String) (events : List (BreakerAction × BreakerOutput)) :
    (breakers.Throughout (SingleProbe key) idle events ∧
        breakers.Along (fun system action _ next => LeavesByProbe key system action next)
          idle events) ↔
      breakers.Along (fun system action _ _ => ¬ OpensBeyondClock key system action)
        idle events := by
  have reached : ∀ before state, breakers.Run idle before state → ProbeInvariant key state :=
    fun before state run => run.invariant (idle_probeInvariant key)
      (fun _ _ _ _ invariant taken => probeInvariant_step invariant taken)
  constructor
  · rintro ⟨throughout, -⟩ before action output after state next split run taken beyond
    have along := (Machine.throughout_iff.mp throughout).2
    have single := along before action output after state next split run taken
    obtain ⟨opened, unset⟩ := open_without_deadline (reached before state run) taken beyond
    have set := single.deadline.mpr opened
    rw [unset] at set
    cases set
  · intro within
    constructor
    · intro before after state split run
      have invariant := reached before state run
      rw [split] at within
      have set : DeadlineSet key 0 state :=
        run.invariant_along within.first (fun opened => by cases opened)
          (fun _ _ _ _ set taken condition => deadlineSet_step set taken (opensUntil_zero condition))
      refine ⟨⟨invariant.halfOpen, fun one => ?_⟩, invariant.otherwise, invariant.deadline, ?_⟩
      · by_contra outside
        have zero := invariant.otherwise outside
        omega
      · intro opened
        obtain ⟨_, found, -⟩ := set opened
        rw [found, Option.isSome_some]
    · intro before action output after state next split run taken
      exact leavesByProbe_step taken

/-- One failure opens the breaker for longer than the clock can show. -/
def openForever : List BreakerAction :=
  [.allow 0 "svc:GetUser" .zero,
    .resolve 0 (.failure ⟨1, Duration.max⟩ .zero)]

/-- The recording call panics and leaves an open breaker without a deadline. -/
theorem opened_without_deadline :
    ¬ ∀ (key : String) (events : List (BreakerAction × BreakerOutput)) (final : BreakerSystem),
      breakers.Run idle events final →
      breakers.Throughout (SingleProbe key) idle events ∧
        breakers.Along (fun system action _ next => LeavesByProbe key system action next)
          idle events := by
  intro single
  have evaluated : (breakers.exec idle openForever).map (fun result =>
      ((result.1.breaker "svc:GetUser").phase, (result.1.breaker "svc:GetUser").openUntil)) =
      some (.opened, none) := by decide
  obtain ⟨events, final, run, _, same⟩ := Machine.exec_observed evaluated
  obtain ⟨opened, unset⟩ := Prod.mk.inj same
  have last := (single "svc:GetUser" events final run).1 events [] final (by simp) run
  have set := last.deadline.mpr opened
  simp only [unset] at set
  cases set

/-! ## The time between probes -/

/-- The reading of the clock of a call that looks at it. -/
def reading : BreakerAction → Option Instant
  | .allow _ _ now | .resolve _ (.failure _ now) | .resolve _ (.cancelled _ now) => some now
  | .resolve _ .success => none

/-- When calls have read the clock. -/
def readings (events : List (BreakerAction × BreakerOutput)) : List Instant :=
  events.filterMap (fun event => reading event.1)

/-- The time of an event that hands out a probe of a key. -/
def probeTime (key : String) : BreakerAction × BreakerOutput → Option Instant
  | (.allow _ wanted now, .decided (.allow .probe)) => if wanted = key then some now else none
  | _ => none

/-- When the probes of a key were handed out. -/
def probeTimes (key : String) (events : List (BreakerAction × BreakerOutput)) : List Instant :=
  events.filterMap (probeTime key)

/-- A call that opens the key's breaker does so for a time at the least, and within the clock. -/
def OpensFor (key : String) (timeout : Duration) (system : BreakerSystem) : BreakerAction → Prop
  | .allow _ _ _ => True
  | .resolve ticket resolution => ∀ issued,
      system.outstanding.find? (fun issued => issued.id = ticket) = some issued → issued.key = key →
      (system.breaker key).opens issued.permit resolution = true →
      ∃ now deadline, reading (.resolve ticket resolution) = some now ∧
        resolution.deadline = some deadline ∧ now.nanos + timeout.nanos ≤ deadline.nanos

variable {key : String} {earliest : Nat} {timeout : Duration} {now : Instant}

theorem OpensFor.opensUntil (opens : OpensFor key timeout system action)
    (after : ∀ now ∈ reading action, earliest ≤ now.nanos + timeout.nanos) :
    OpensUntil key earliest system action := by
  cases action with
  | allow => trivial
  | resolve =>
    intro issued out own opened
    obtain ⟨now, deadline, read, computed, late⟩ := opens issued out own opened
    grind

/-- Only an `allow` hands out a probe. -/
theorem of_probeTime (handed : probeTime key (action, output) = some now) :
    ∃ ticket, action = .allow ticket key now ∧ output = .decided (.allow .probe) := by
  unfold probeTime at handed
  grind

/-- A probe is handed out when the breaker is open and its deadline, if any, has come. -/
theorem probe_handed {ticket : Nat}
    (taken : breakers.step system (.allow ticket key now) = some (next, .decided (.allow .probe))) :
    (system.breaker key).phase = .opened ∧ (next.breaker key).phase = .halfOpen ∧
      ∀ deadline ∈ (system.breaker key).openUntil, deadline.nanos ≤ now.nanos := by
  obtain ⟨_, built⟩ := of_unless taken
  obtain ⟨rfl, decided⟩ := Prod.mk.inj built
  replace decided : ((system.registry.entry key).allow now).2 = .allow .probe :=
    BreakerOutput.decided.inj decided
  rcases (system.registry.entry key).allow_cases now with ⟨_, notProbe, same⟩ | ⟨opened, handed⟩
  · simp_all
  · refine ⟨opened, ?_, ?_⟩
    · simp [breaker, BreakerRegistry.allow, handed]
    · intro deadline set
      by_contra early
      have waits : now < deadline := Nat.lt_of_not_le early
      have found : (system.registry.entry key).openUntil = some deadline := set
      simp [BreakerState.allow, opened, found, waits] at decided

variable {events : List (BreakerAction × BreakerOutput)} {final : BreakerSystem}

/-- No probe is handed out before the time until which every deadline is set.

Proof: by induction on the run. -/
theorem probeTimes_after (run : breakers.Run system events final)
    (set : DeadlineSet key earliest system)
    (opens : breakers.Along (fun system action _ _ => OpensFor key timeout system action) system events)
    (after : ∀ now ∈ readings events, earliest ≤ now.nanos + timeout.nanos) :
    ∀ now ∈ probeTimes key events, earliest ≤ now.nanos := by
  induction run with
  | done => exact nofun
  | @step system next _ action output rest taken _ ih =>
    obtain ⟨opensNow, opensLater⟩ := (Machine.along_cons_iff taken).mp opens
    have read : ∀ now ∈ reading action, earliest ≤ now.nanos + timeout.nanos :=
      fun now found => after now (List.mem_filterMap.mpr ⟨_, List.mem_cons_self, found⟩)
    have later := ih (deadlineSet_step set taken (opensNow.opensUntil read)) opensLater
      (fun now found => after now ((List.sublist_cons_self _ _).filterMap _ |>.mem found))
    intro now member
    obtain ⟨event, inside, handed⟩ := List.mem_filterMap.mp member
    rcases List.mem_cons.mp inside with rfl | inRest
    · obtain ⟨_, rfl, rfl⟩ := of_probeTime handed
      obtain ⟨opened, -, come⟩ := probe_handed taken
      obtain ⟨deadline, found, above⟩ := set opened
      exact above.trans (come deadline found)
    · exact later now (List.mem_filterMap.mpr ⟨event, inRest, handed⟩)

/-- Any two probes of a key are at least as far apart as its breaker stays open, in every run from any
state in which the clock does not go back and each call that opens the breaker does so for that time.

Proof: by induction on the run. A probe makes the breaker half open, so the next one needs that it is
opened again, after the probe, and that the deadline set then has come. -/
theorem probes_apart (key : String) (timeout : Duration) (system final : BreakerSystem)
    (events : List (BreakerAction × BreakerOutput)) (run : breakers.Run system events final)
    (clock : (readings events).Pairwise (· ≤ ·))
    (opens : breakers.Along (fun system action _ _ => OpensFor key timeout system action)
      system events) :
    (probeTimes key events).Pairwise (fun first second =>
      first.nanos + timeout.nanos ≤ second.nanos) := by
  induction run with
  | done => exact .nil
  | @step system next _ action output rest taken run ih =>
    obtain ⟨-, opensLater⟩ := (Machine.along_cons_iff taken).mp opens
    have rested := ih (clock.sublist ((List.sublist_cons_self _ _).filterMap _)) opensLater
    cases handed : probeTime key (action, output) with
    | none =>
      rw [probeTimes, List.filterMap_cons_none handed]
      exact rested
    | some first =>
      rw [probeTimes, List.filterMap_cons_some handed, List.pairwise_cons]
      refine ⟨?_, rested⟩
      obtain ⟨ticket, rfl, rfl⟩ := of_probeTime handed
      obtain ⟨-, halfOpen, -⟩ := probe_handed taken
      have set : DeadlineSet key (first.nanos + timeout.nanos) next :=
        fun opened => by rw [halfOpen] at opened; cases opened
      refine probeTimes_after run set opensLater (fun now found => ?_)
      have order : first ≤ now := List.rel_of_pairwise_cons clock found
      exact Nat.add_le_add_right order _

namespace ProbedTwice

/-- One failure opens the breaker for a second. -/
def config : BreakerConfig := ⟨1, .second⟩

/-- The probe fails after one second and a half, and a second one is handed out a second later. -/
def actions : List BreakerAction :=
  [.allow 0 "svc:GetUser" .zero, .resolve 0 (.failure config .zero),
    .allow 1 "svc:GetUser" (.ofNanos 1500000000),
    .resolve 1 (.failure config (.ofNanos 1500000000)),
    .allow 2 "svc:GetUser" (.ofNanos 2000000000), .allow 3 "svc:GetUser" (.ofNanos 2500000000)]

end ProbedTwice

open ProbedTwice in
/-- Two probes, a second apart. -/
theorem probes_apart_second :
    ∃ events final, breakers.Run idle events final ∧ events.map Prod.fst = actions ∧
      probeTimes "svc:GetUser" events = [.ofNanos 1500000000, .ofNanos 2500000000] ∧
      (probeTimes "svc:GetUser" events).Pairwise (fun first second =>
        first.nanos + Duration.second.nanos ≤ second.nanos) := by
  have evaluated : (breakers.exec idle actions).map (fun run =>
      (probeTimes "svc:GetUser" run.2, decide ((readings run.2).Pairwise (· ≤ ·)))) =
      some ([.ofNanos 1500000000, .ofNanos 2500000000], true) := by decide +kernel
  obtain ⟨events, final, run, same, observed⟩ := Machine.exec_observed evaluated
  obtain ⟨times, clock⟩ := Prod.mk.inj observed
  refine ⟨events, final, run, same, times, ?_⟩
  refine probes_apart "svc:GetUser" .second idle final events run (of_decide_eq_true clock) ?_
  intro before action output after state next split _ _
  have member : action ∈ actions := by
    rw [← same, split]
    simp
  simp only [actions, List.mem_cons, List.not_mem_nil, or_false] at member
  rcases member with rfl | rfl | rfl | rfl | rfl | rfl
  · trivial
  · exact fun _ _ _ _ => ⟨_, _, rfl, rfl, le_rfl⟩
  · trivial
  · exact fun _ _ _ _ => ⟨_, _, rfl, rfl, le_rfl⟩
  · trivial
  · trivial

end BreakerSystem

end Roze.Resilience
