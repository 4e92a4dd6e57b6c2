import Roze.Library.ProcessPool
import Roze.Resilience.Shedding

/-!
# The slots of the load shedding registry

A caller that was admitted holds a slot until it records an outcome or releases. The
counter of a key saturates at zero when it is decreased, so an imbalance would not show
in it. Over all interleavings of callers the counter is the number of slots that are
held, and never more than the configured concurrency.
-/

namespace Roze.Resilience

open Roze.Library

/-- The counter is the number of held slots and within the concurrency limit. -/
structure Occupied (config : SheddingConfig) (state : SheddingState) (held : Nat) : Prop where
  counted : state.inFlight.toNat = held
  bounded : held ≤ max config.concurrency.toNat 1

namespace SheddingState

section

variable (state : SheddingState)
include state

@[simp] theorem recordSheddingSample_inFlight (now : Instant) (success : Bool)
    (latency window : Duration) :
    (state.recordSheddingSample now success latency window).inFlight = state.inFlight := by
  simp only [recordSheddingSample]
  split
  · split
    · rfl
    · rfl
  · rfl

@[simp] theorem sheddingIsOpen_inFlight (now : Instant) :
    (state.sheddingIsOpen now).1.inFlight = state.inFlight := by
  simp only [sheddingIsOpen]
  split
  · split
    · rfl
    · rfl
  · rfl

/-- An admission takes a slot when one is free and leaves the counter alone when it
refuses. -/
theorem allow_inFlight (config : SheddingConfig) (now : Instant) :
    ((state.allow config now).2 = false ∧
        (state.allow config now).1.inFlight = state.inFlight) ∨
      ((state.allow config now).2 = true ∧ state.inFlight < max config.concurrency 1 ∧
        (state.allow config now).1.inFlight = saturatingAddU64 state.inFlight 1) := by
  have same : ((state.pruneSheddingBuckets now config.window).sheddingIsOpen now).1.inFlight =
      state.inFlight := sheddingIsOpen_inFlight _ now
  simp only [allow]
  grind

end

end SheddingState

namespace Occupied

variable {config : SheddingConfig} {state : SheddingState} {held : Nat}

theorem default (config : SheddingConfig) : Occupied config .default 0 := ⟨rfl, Nat.zero_le _⟩

/-- Below the limit the saturating addition is exact. -/
theorem allow (occupied : Occupied config state held) (now : Instant) :
    Occupied config (state.allow config now).1
      (held + (state.allow config now).2.toNat) := by
  obtain ⟨counted, bounded⟩ := occupied
  rcases state.allow_inFlight config now with ⟨refused, same⟩ | ⟨admitted, free, taken⟩
  · rw [refused]
    exact ⟨by rw [same]; exact counted, bounded⟩
  · have below : held < max config.concurrency.toNat 1 := by
      have compared := UInt64.lt_iff_toNat_lt.mp free
      rwa [UInt64.toNat_max, counted] at compared
    have limit : config.concurrency.toNat < 2 ^ 64 := config.concurrency.toNat_lt
    rw [admitted]
    refine ⟨?_, below⟩
    rw [taken, saturatingAddU64_toNat, counted]
    grind

/-- With a slot held the saturating subtraction is exact. -/
theorem returned {after : SheddingState} (occupied : Occupied config state (held + 1))
    (given : after.inFlight = saturatingSubU64 state.inFlight 1) : Occupied config after held := by
  obtain ⟨counted, bounded⟩ := occupied
  refine ⟨?_, Nat.le_of_succ_le bounded⟩
  rw [given, saturatingSubU64_toNat, counted]
  rfl

theorem record (occupied : Occupied config state (held + 1)) (success : Bool) (latency : Duration)
    (now : Instant) : Occupied config (state.record success latency config now).1 held := by
  -- the slot is returned whether or not recording panics afterwards
  have same := state.release.recordSheddingSample_inFlight now success latency config.window
  apply occupied.returned
  simp only [SheddingState.record]
  split
  · split
    · exact same
    · exact same
  · exact same

end Occupied

/-! ## Callers -/

/-- A caller between its calls. -/
inductive SheddingCaller where
  | idle
  | admitted (key : String)
deriving DecidableEq

/-- A call with its arguments and the reading of the clock. -/
inductive SheddingCall where
  | allow (key : String) (now : Instant)
  | record (success : Bool) (latency : Duration) (now : Instant)
  | release

inductive SheddingAnswer where
  | decided (allowed : Bool)
  | completed (completion : Completion)
deriving DecidableEq

/-- The slots of a key that a caller holds. -/
def SheddingCaller.slots (key : String) : SheddingCaller → Nat
  | .idle => 0
  | .admitted own => if own = key then 1 else 0

/-- A caller asks for admission and, once admitted, records or releases exactly once. -/
def sheddingCallers (configs : String → SheddingConfig) :
    Process SheddingRegistry SheddingCaller SheddingCall SheddingAnswer where
  initial caller := decide (caller = .idle)
  step registry
    | .idle, .allow key now =>
        let allowed := registry.allow key (configs key) now
        some (allowed.1, if allowed.2 then .admitted key else .idle, .decided allowed.2)
    | .admitted key, .record success latency now =>
        let recorded := registry.record key success latency (configs key) now
        some (recorded.1, .idle, .completed recorded.2)
    | .admitted key, .release => some (registry.release key, .idle, .completed .returned)
    | _, _ => none

namespace SheddingRegistry

variable {registry : SheddingRegistry} {config : SheddingConfig} {key : String} {held : Nat}

/-- The slots of one key after a call for another key or the same. -/
theorem occupied_allow (own : String) (now : Instant) (configs : String → SheddingConfig)
    (occupied : Occupied (configs key) (registry.entry key) held) :
    Occupied (configs key) ((registry.allow own (configs own) now).1.entry key)
      (held + if own = key then (registry.allow own (configs own) now).2.toNat else 0) := by
  simp only [allow, entry_store]
  by_cases same : own = key
  · subst same
    simp only [if_true]
    exact occupied.allow now
  · grind

theorem occupied_record {own : String} (success : Bool) (latency : Duration) (now : Instant)
    (configs : String → SheddingConfig)
    (occupied : Occupied (configs key) (registry.entry key) (held + if own = key then 1 else 0)) :
    Occupied (configs key) ((registry.record own success latency (configs own) now).1.entry key)
      held := by
  simp only [record, entry_store]
  by_cases same : own = key
  · subst same
    simp only [if_true] at occupied ⊢
    exact occupied.record success latency now
  · grind

/-- A key without an entry has no slot to release, so an admitted caller finds one. -/
theorem occupied_release {own : String}
    (occupied : Occupied config (registry.entry key) (held + if own = key then 1 else 0)) :
    Occupied config ((registry.release own).entry key) held := by
  by_cases same : own = key
  · subst same
    rw [if_pos rfl] at occupied
    cases found : registry.states own with
    | none =>
      have missing : registry.entry own = .default := by simp [entry, found]
      have counted := occupied.counted
      rw [missing] at counted
      cases counted
    | some state =>
      have current : registry.entry own = state := by simp [entry, found]
      rw [current] at occupied
      simp only [release, found, entry_store, if_true]
      exact occupied.returned rfl
  · rw [if_neg same, Nat.add_zero] at occupied
    cases found : registry.states own with
    | none => simpa only [release, found] using occupied
    | some => simpa only [release, found, entry_store, if_neg (Ne.symm same)] using occupied

end SheddingRegistry

/-- Every call keeps the count of a key, whatever the other callers hold. -/
theorem sheddingCallers_step {configs : String → SheddingConfig} {key : String}
    {registry registry' : SheddingRegistry} {caller after : SheddingCaller} {call : SheddingCall}
    {answer : SheddingAnswer} {others : Nat}
    (taken : (sheddingCallers configs).step registry caller call = some (registry', after, answer))
    (occupied : Occupied (configs key) (registry.entry key) (others + caller.slots key)) :
    Occupied (configs key) (registry'.entry key) (others + after.slots key) := by
  cases caller with
  | idle =>
    cases call with
    | allow own now =>
      cases taken
      have next := SheddingRegistry.occupied_allow own now configs occupied
      cases allowed : (registry.allow own (configs own) now).2 with
      | false | true => simpa [SheddingCaller.slots, allowed] using next
    | record | release => cases taken
  | admitted own =>
    cases call with
    | allow => cases taken
    | record success latency now =>
      cases taken
      exact SheddingRegistry.occupied_record success latency now configs occupied
    | release =>
      cases taken
      exact SheddingRegistry.occupied_release occupied

/-- Over any interleaving of callers, the counter of a key is the number of its admitted
callers that have not finished, and within the limit. -/
theorem callers_occupied {configs : String → SheddingConfig}
    {events : List (PoolAction SheddingCaller SheddingCall × Option SheddingAnswer)}
    {final : Pool SheddingRegistry SheddingCaller}
    (run : (sheddingCallers configs).pool.Run (.empty .new) events final) (key : String) :
    Occupied (configs key) (final.shared.entry key) (final.total (SheddingCaller.slots key)) := by
  have initially : Occupied (configs key) (SheddingRegistry.new.entry key) 0 :=
    .default (configs key)
  have balanced : final.Balanced (fun _ => True)
      (fun registry held => Occupied (configs key) (registry.entry key) held)
      (SheddingCaller.slots key) := by
    refine Process.run_total ⟨fun _ _ => trivial, fun _ _ _ _ _ _ _ _ => trivial⟩ ?_ ?_ initially run
    · intro start idle
      rw [of_decide_eq_true idle]
      rfl
    · intro registry caller call registry' after answer others _ taken occupied
      exact sheddingCallers_step taken occupied
  exact balanced.agreed

end Roze.Resilience
