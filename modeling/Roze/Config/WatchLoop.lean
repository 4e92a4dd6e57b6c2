import Roze.Library.Clock

/-!
# The loop that reloads a watched configuration

The loop receives snapshots of the configuration. A snapshot that differs from the current one is
pending until the same snapshot is received again after the debounce interval; only then it is read,
validated and put in place. That suits polling, where the source is read again and again. A native
watch delivers each change once.
-/

namespace Roze.Config

open Roze.Library

/-- What listeners are told of a reload. -/
structure ReloadResult (Value Digest : Type) where
  version : UInt64
  oldVersion : UInt64
  hash : Digest
  oldHash : Digest
  changed : Bool
  success : Bool
  error : Option String
  config : Option Value

/-- The variables of the loop, with the current value and its version. -/
structure WatchLoop (Value Digest : Type) where
  lastSnapshot : String
  lastHash : Digest
  lastFailedHash : Option Digest
  pending : Option (String × Instant)
  value : Value
  version : UInt64

/-- How snapshots are hashed and read: `candidate` parses a snapshot and applies the validator. -/
structure WatchOptions (Value Digest : Type) where
  snapshotHash : String → Digest
  candidate : String → Except String Value
  debounce : Duration

/-- A snapshot that the native watch delivers, and when the loop receives it. -/
structure Arrival where
  snapshot : String
  deliveredAt : Instant
  receivedAt : Instant

namespace WatchLoop

variable {Value Digest : Type} [DecidableEq Digest]

/-- The loop begins with the snapshot that was loaded. -/
def new (options : WatchOptions Value Digest) (snapshot : String) (value : Value) :
    WatchLoop Value Digest where
  lastSnapshot := snapshot
  lastHash := options.snapshotHash snapshot
  lastFailedHash := none
  pending := none
  value
  version := 0

variable (options : WatchOptions Value Digest)

/-- The snapshot is read, and takes the place of the current one when it is valid. -/
def reload (loop : WatchLoop Value Digest) (snapshot : String) :
    WatchLoop Value Digest × ReloadResult Value Digest :=
  let hash := options.snapshotHash snapshot
  match options.candidate snapshot with
  | .error message =>
      ({ loop with pending := none, lastFailedHash := some hash },
        { version := loop.version + 1
          oldVersion := loop.version
          hash
          oldHash := loop.lastHash
          changed := false
          success := false
          error := some message
          config := none })
  | .ok parsed =>
      ({ lastSnapshot := snapshot
         lastHash := hash
         lastFailedHash := none
         pending := none
         value := parsed
         version := loop.version + 1 },
        { version := loop.version + 1
          oldVersion := loop.version
          hash
          oldHash := loop.lastHash
          changed := decide (loop.lastHash ≠ hash)
          success := true
          error := none
          config := some parsed })

/-- A failure is forgotten when another snapshot comes. -/
def forget (loop : WatchLoop Value Digest) (hash : Digest) : WatchLoop Value Digest :=
  if loop.lastFailedHash.any (fun failed => failed ≠ hash) then { loop with lastFailedHash := none }
  else loop

/-- Since when the snapshot is pending. -/
def pendingSince (loop : WatchLoop Value Digest) (snapshot : String) : Option Instant :=
  (loop.pending.filter (fun cached => cached.1 = snapshot)).map Prod.snd

/-- One round of the loop. -/
def receive (loop : WatchLoop Value Digest) (snapshot : String) (now : Instant) :
    WatchLoop Value Digest × Option (ReloadResult Value Digest) :=
  let hash := options.snapshotHash snapshot
  let loop := loop.forget hash
  if hash = loop.lastHash then ({ loop with pending := none }, none)
  else if loop.lastFailedHash = some hash then ({ loop with pending := none }, none)
  else
    match loop.pendingSince snapshot with
    | some since =>
        if now.durationSince since < options.debounce then (loop, none)
        else ((loop.reload options snapshot).1, some (loop.reload options snapshot).2)
    | none => ({ loop with pending := some (snapshot, now) }, none)

/-- The loop after some arrivals. -/
def run (loop : WatchLoop Value Digest) (arrivals : List Arrival) : WatchLoop Value Digest :=
  arrivals.foldl (fun loop arrival => (loop.receive options arrival.snapshot arrival.receivedAt).1) loop

/-- A moment after an arrival at which the loop waits for the next message, and the debounce interval
has passed since the delivery. -/
structure Waiting (arrival : Arrival) (after : List Arrival) (moment : Instant) : Prop where
  received : arrival.receivedAt ≤ moment
  undelivered : ∀ next ∈ after.head?, moment < next.deliveredAt
  passed : options.debounce ≤ moment.durationSince arrival.deliveredAt

/-- Whenever the loop waits and the debounce interval has passed, the latest snapshot is the current
value if it is valid. -/
def Applied (loop : WatchLoop Value Digest) (arrivals : List Arrival) : Prop :=
  ∀ before arrival after moment, arrivals = before ++ arrival :: after →
    Waiting options arrival after moment → ∀ value, options.candidate arrival.snapshot = .ok value →
      (loop.run options (before ++ [arrival])).value = value

/-- The snapshot has been pending for the debounce interval. -/
def Ripe (loop : WatchLoop Value Digest) (arrival : Arrival) : Prop :=
  ∃ since, loop.pending = some (arrival.snapshot, since) ∧
    options.debounce ≤ arrival.receivedAt.durationSince since

/-! ## One round -/

/-- A pending snapshot is neither the current one nor the one that failed last. -/
def Sound (loop : WatchLoop Value Digest) : Prop :=
  ∀ snapshot since, loop.pending = some (snapshot, since) →
    options.snapshotHash snapshot ≠ loop.lastHash ∧
      loop.lastFailedHash ≠ some (options.snapshotHash snapshot)

variable {options} {loop : WatchLoop Value Digest} {snapshot : String} {now : Instant}

omit [DecidableEq Digest] in
theorem pendingSince_eq_some_iff {since : Instant} :
    loop.pendingSince snapshot = some since ↔ loop.pending = some (snapshot, since) := by
  rw [pendingSince]
  simp

/-- Only the failure of the same snapshot is remembered. -/
theorem forget_eq (hash : Digest) :
    loop.forget hash =
      { loop with lastFailedHash := loop.lastFailedHash.filter (fun failed => failed = hash) } := by
  rw [forget]
  obtain ⟨_, _, failed, _, _, _⟩ := loop
  cases failed with
  | none => rfl
  | some failed => grind

theorem failed_of_forget {hash : Digest} (failed : (loop.forget hash).lastFailedHash = some hash) :
    loop.lastFailedHash = some hash := by
  rw [forget_eq] at failed
  simp_all

/-- A valid snapshot is the current value after its arrival when it was before, or when it has been
pending for the debounce interval. -/
theorem receive_value_iff (sound : loop.Sound options) {value : Value}
    (valid : options.candidate snapshot = .ok value) :
    (loop.receive options snapshot now).1.value = value ↔
      loop.value = value ∨ ∃ since, loop.pending = some (snapshot, since) ∧
        options.debounce ≤ now.durationSince since := by
  have value_forget : (loop.forget (options.snapshotHash snapshot)).value = loop.value := by
    rw [forget_eq]
  have pending_forget : (loop.forget (options.snapshotHash snapshot)).pending = loop.pending := by
    rw [forget_eq]
  -- a snapshot that is not pending leaves the value alone
  have unripe (absent : ∀ since, loop.pending ≠ some (snapshot, since)) :
      ¬ ∃ since, loop.pending = some (snapshot, since) ∧
        options.debounce ≤ now.durationSince since :=
    fun ⟨since, pending, _⟩ => absent since pending
  rw [receive]
  split
  · rename_i current
    rw [forget_eq] at current
    rw [or_iff_left (unripe fun since pending => (sound snapshot since pending).1 current), value_forget]
  · split
    · rename_i failed
      rw [or_iff_left (unripe fun since pending =>
        (sound snapshot since pending).2 (failed_of_forget failed)), value_forget]
    · split
      · rename_i since found
        rw [pendingSince_eq_some_iff, pending_forget] at found
        split
        · rename_i early
          have unfinished : ¬ ∃ since, loop.pending = some (snapshot, since) ∧
              options.debounce ≤ now.durationSince since := by
            rintro ⟨_, again, passed⟩
            cases found.symm.trans again
            exact Nat.not_le_of_lt early passed
          simp_all
        · rename_i passed
          refine iff_of_true ?_ (.inr ⟨since, found, Nat.le_of_not_lt passed⟩)
          rw [reload, valid]
      · rename_i absent
        have unmatched (since : Instant) : loop.pending ≠ some (snapshot, since) := by
          intro pending
          rw [← pending_forget, ← pendingSince_eq_some_iff, absent] at pending
          cases pending
        simp_all

/-- A round keeps what is pending apart from what was applied and what failed. -/
theorem Sound.receive (sound : loop.Sound options) :
    (loop.receive options snapshot now).1.Sound options := by
  rw [WatchLoop.receive]
  split
  · exact nofun
  · rename_i other
    split
    · exact nofun
    · rename_i fresh
      split
      · split
        · intro cached since pending
          rw [forget_eq] at pending ⊢
          refine ⟨(sound cached since pending).1, fun failed => ?_⟩
          exact (sound cached since pending).2 (Option.filter_eq_some_iff.mp failed).1
        · rw [reload]
          split <;> exact nofun
      · intro cached since pending
        simp_all

/-! ## Sequences of arrivals -/

theorem Sound.run (sound : loop.Sound options) (arrivals : List Arrival) :
    (loop.run options arrivals).Sound options := by
  induction arrivals generalizing loop with
  | nil => exact sound
  | cons arrival rest ih => exact ih sound.receive

/-- Whatever the watch delivers and when: a valid snapshot that is the latest one is the current value
whenever the loop waits after the debounce interval, if and only if each snapshot after which it waits
so long was the current value before, or had been pending for that interval. -/
theorem changes_applied_iff (snapshot : String) (initial : Value) (arrivals : List Arrival) :
    (new options snapshot initial).Applied options arrivals ↔
      ∀ before arrival after moment, arrivals = before ++ arrival :: after →
        Waiting options arrival after moment → ∀ value, options.candidate arrival.snapshot = .ok value →
          ((new options snapshot initial).run options before).value = value ∨
            ((new options snapshot initial).run options before).Ripe options arrival := by
  have last (before : List Arrival) (arrival : Arrival) {value : Value}
      (valid : options.candidate arrival.snapshot = .ok value) :
      ((new options snapshot initial).run options (before ++ [arrival])).value = value ↔
        ((new options snapshot initial).run options before).value = value ∨
          ((new options snapshot initial).run options before).Ripe options arrival := by
    have sound : (new options snapshot initial).Sound options := nofun
    rw [run, List.foldl_append]
    exact receive_value_iff (sound.run before) valid
  constructor
  · intro applied before arrival after moment split waiting value valid
    exact (last before arrival valid).mp (applied before arrival after moment split waiting value valid)
  · intro ready before arrival after moment split waiting value valid
    exact (last before arrival valid).mpr (ready before arrival after moment split waiting value valid)

end WatchLoop

namespace Sample

/-- Texts are their own values and hashes. -/
def options : WatchOptions String String := ⟨id, .ok, .fromMillis 400⟩

def initial : WatchLoop String String := .new options "a" "a"

/-- A snapshot that is received as it is delivered, at some millisecond. -/
def arrival (snapshot : String) (millis : UInt64) : Arrival :=
  ⟨snapshot, .ofNanos (millis * 1000000), .ofNanos (millis * 1000000)⟩

def hour : Instant := .ofNanos 3600000000000

end Sample

/-- A change that is delivered once is still pending after an hour. -/
theorem change_suppressed :
    (Sample.initial.run Sample.options [Sample.arrival "b" 0]).value = "a" ∧
      Sample.options.candidate "b" = .ok "b" ∧
      WatchLoop.Waiting Sample.options (Sample.arrival "b" 0) [] Sample.hour ∧
      ¬ Sample.initial.Applied Sample.options [Sample.arrival "b" 0] := by
  have kept : (Sample.initial.run Sample.options [Sample.arrival "b" 0]).value = "a" := by
    decide +kernel
  have waiting : WatchLoop.Waiting Sample.options (Sample.arrival "b" 0) [] Sample.hour :=
    ⟨by decide, nofun, by decide⟩
  refine ⟨kept, rfl, waiting, fun applied => ?_⟩
  have changed := applied [] _ [] _ rfl waiting "b" rfl
  exact absurd (kept.symm.trans changed) (by decide)

theorem changes_applied_iff_repeated :
    Sample.initial.Applied Sample.options [Sample.arrival "b" 0, Sample.arrival "b" 400] ∧
      (Sample.initial.run Sample.options [Sample.arrival "b" 0, Sample.arrival "b" 400]).value = "b" := by
  refine ⟨(WatchLoop.changes_applied_iff "a" "a" _).mpr ?_, by decide +kernel⟩
  intro before arrival after moment split waiting value valid
  rcases before with - | ⟨_, before⟩
  · -- the second delivery comes before the interval has passed
    cases split
    have early : moment.nanos < 400000000 := waiting.undelivered _ rfl
    have passed : 400000000 ≤ moment.nanos - 0 := waiting.passed
    omega
  · rcases before with - | ⟨_, before⟩
    · cases split
      exact .inr ⟨_, rfl, by decide⟩
    · cases before with
      | nil | cons => cases split

end Roze.Config
