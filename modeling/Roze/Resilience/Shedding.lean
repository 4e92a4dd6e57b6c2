import Roze.Resilience.Breaker

/-!
# The load shedding registry

Each key counts the requests in flight and keeps a rolling window of samples, in at
most fifty buckets. A request is admitted while the shedder is not cooling down and a
slot is free. Recording an outcome returns the slot, adds a sample and opens a
cool-down when the samples of the window show overload; releasing only returns the
slot.

The cool-down adds to the clock after everything else is written. When that sum is
beyond the clock the call panics and leaves the earlier deadline in place.
-/

namespace Roze.Resilience

open Roze.Library

structure SheddingConfig where
  concurrency : UInt64
  window : Duration
  minSamples : UInt64
  maxAvgLatency : Duration
  maxFailureRatioPerMille : UInt32
  coolDown : Duration
deriving DecidableEq

structure SheddingBucket where
  startedAt : Instant
  samples : UInt64
  failures : UInt64
  totalLatency : Duration
deriving DecidableEq

structure SheddingState where
  inFlight : UInt64
  buckets : List SheddingBucket
  openUntil : Option Instant
deriving DecidableEq

/-- The number of buckets a window has at most. -/
def sheddingBuckets : Nat := 50

def sheddingBucketDuration (window : Duration) : Duration :=
  max (window.div sheddingBuckets) .millisecond

/-- The age at which a bucket expires. -/
def effectiveWindow (window : Duration) : Duration := max window (sheddingBucketDuration window)

namespace SheddingBucket

/-- A bucket with its first sample. -/
def opened (now : Instant) (success : Bool) (latency : Duration) : SheddingBucket where
  startedAt := now
  samples := 1
  failures := if success then 0 else 1
  totalLatency := latency

/-- A bucket with one more sample. -/
def add (bucket : SheddingBucket) (success : Bool) (latency : Duration) : SheddingBucket :=
  { bucket with
    samples := saturatingAddU64 bucket.samples 1
    failures := saturatingAddU64 bucket.failures (if success then 0 else 1)
    totalLatency := bucket.totalLatency.saturatingAdd latency }

/-- The bucket has reached the effective window. -/
def expired (now : Instant) (window : Duration) (bucket : SheddingBucket) : Bool :=
  decide (effectiveWindow window ≤ now.durationSince bucket.startedAt)

end SheddingBucket

namespace SheddingState

def default : SheddingState where
  inFlight := 0
  buckets := []
  openUntil := none

def pruneSheddingBuckets (state : SheddingState) (now : Instant) (window : Duration) :
    SheddingState :=
  { state with buckets := state.buckets.dropWhile (SheddingBucket.expired now window) }

/-- Whether a cool-down is on; one that has ended is forgotten. -/
def sheddingIsOpen (state : SheddingState) (now : Instant) : SheddingState × Bool :=
  match state.openUntil with
  | some openUntil => if now < openUntil then (state, true) else ({ state with openUntil := none }, false)
  | none => (state, false)

/-- Add a bucket at the back and pop from the front what exceeds the fifty. -/
def pushBucket (state : SheddingState) (bucket : SheddingBucket) : SheddingState :=
  let buckets := state.buckets ++ [bucket]
  { state with buckets := buckets.drop (buckets.length - sheddingBuckets) }

def recordSheddingSample (state : SheddingState) (now : Instant) (success : Bool)
    (latency window : Duration) : SheddingState :=
  let state := state.pruneSheddingBuckets now window
  match state.buckets.getLast? with
  | some bucket =>
      if now.durationSince bucket.startedAt < sheddingBucketDuration window then
        { state with buckets := state.buckets.dropLast ++ [bucket.add success latency] }
      else state.pushBucket (.opened now success latency)
  | none => state.pushBucket (.opened now success latency)

/-- Whether the samples of the window show overload. The sums of 64-bit counts wrap, as
they do without overflow checks. -/
def shouldShed (state : SheddingState) (config : SheddingConfig) : Bool :=
  let sampleCount := (state.buckets.map SheddingBucket.samples).sum
  if sampleCount < max config.minSamples 1 then false
  else
    let totalLatency := state.buckets.foldl
      (fun total bucket => total.saturatingAdd bucket.totalLatency) Duration.zero
    if config.maxAvgLatency.nanos < totalLatency.nanos / sampleCount.toNat then true
    else
      let failures := (state.buckets.map SheddingBucket.failures).sum
      let failureRatio := saturatingMulU64 failures 1000 / max sampleCount 1
      decide (config.maxFailureRatioPerMille.toUInt64 < failureRatio)

def allow (state : SheddingState) (config : SheddingConfig) (now : Instant) :
    SheddingState × Bool :=
  let asked := (state.pruneSheddingBuckets now config.window).sheddingIsOpen now
  if asked.2 then (asked.1, false)
  else if max config.concurrency 1 ≤ asked.1.inFlight then (asked.1, false)
  else ({ asked.1 with inFlight := saturatingAddU64 asked.1.inFlight 1 }, true)

def release (state : SheddingState) : SheddingState :=
  { state with inFlight := saturatingSubU64 state.inFlight 1 }

/-- The slot is returned first and the deadline of a cool-down comes last. -/
def record (state : SheddingState) (success : Bool) (latency : Duration) (config : SheddingConfig)
    (now : Instant) : SheddingState × Completion :=
  let state := state.release.recordSheddingSample now success latency config.window
  if state.shouldShed config then
    match now.checkedAdd config.coolDown with
    | some deadline => ({ state with openUntil := some deadline }, .returned)
    | none => (state, .panicked)
  else (state, .returned)

end SheddingState

/-- A shedder for every key that was used. -/
structure SheddingRegistry where
  states : String → Option SheddingState

namespace SheddingRegistry

def new : SheddingRegistry where
  states _ := none

/-- The state of a key, the default one when the key is new. -/
def entry (registry : SheddingRegistry) (key : String) : SheddingState :=
  (registry.states key).getD .default

/-- Store the state of a key. -/
def store (registry : SheddingRegistry) (key : String) (state : SheddingState) :
    SheddingRegistry where
  states := Function.update registry.states key (some state)

def allow (registry : SheddingRegistry) (key : String) (config : SheddingConfig) (now : Instant) :
    SheddingRegistry × Bool :=
  let allowed := (registry.entry key).allow config now
  (registry.store key allowed.1, allowed.2)

def record (registry : SheddingRegistry) (key : String) (success : Bool) (latency : Duration)
    (config : SheddingConfig) (now : Instant) : SheddingRegistry × Completion :=
  let recorded := (registry.entry key).record success latency config now
  (registry.store key recorded.1, recorded.2)

/-- Releasing does not create an entry. -/
def release (registry : SheddingRegistry) (key : String) : SheddingRegistry :=
  match registry.states key with
  | none => registry
  | some state => registry.store key state.release

@[simp] theorem entry_store (registry : SheddingRegistry) (key other : String)
    (state : SheddingState) :
    (registry.store key state).entry other = if other = key then state else registry.entry other := by
  by_cases same : other = key <;> simp [entry, store, same]

/-- A deadline within the clock lets a recording return. -/
theorem record_returned {config : SheddingConfig} {now : Instant}
    (within : (now.checkedAdd config.coolDown).isSome) (registry : SheddingRegistry) (key : String)
    (success : Bool) (latency : Duration) :
    (registry.record key success latency config now).2 = .returned := by
  obtain ⟨_, sum⟩ := Option.isSome_iff_exists.mp within
  simp only [record, SheddingState.record, sum]
  split <;> rfl

end SheddingRegistry

namespace SheddingState

/-- The shedder is cooling down, or all slots are taken. -/
def refuses (state : SheddingState) (config : SheddingConfig) (now : Instant) : Bool :=
  state.openUntil.any (fun deadline => decide (now < deadline)) ||
    decide (max config.concurrency 1 ≤ state.inFlight)

theorem allow_eq_not_refuses (state : SheddingState) (config : SheddingConfig) (now : Instant) :
    (state.allow config now).2 = !state.refuses config now := by
  obtain ⟨inFlight, _, openUntil⟩ := state
  simp only [allow, sheddingIsOpen, pruneSheddingBuckets, refuses]
  cases openUntil with
  | none => grind
  | some deadline => grind

end SheddingState

end Roze.Resilience
