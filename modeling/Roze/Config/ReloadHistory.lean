import Roze.Config.WatchLoop
import Roze.Library.Execution

/-!
# The history of reloads

The loop takes its snapshots from the native watch as long as that is open, and reads the source again
and again afterwards; a read may fail. A history is the sequence of what the loop saw, each round with
the result that its listeners were told. Whatever the loop sees, the value in memory comes from the
loaded snapshot or from a delivered one that was valid, the results of the valid ones form a chain,
and an invalid one changes nothing and is reported once.
-/

namespace Roze.Config

open Roze.Library List

/-- What the loop sees in one round. -/
inductive Observation where
  /-- The native watch delivers a snapshot. -/
  | watched (snapshot : String) (now : Instant)
  /-- The channel of the native watch is closed. -/
  | closed
  /-- The source is read after the poll interval. -/
  | polled (snapshot : String) (now : Instant)
  /-- The source cannot be read. -/
  | unread
  deriving DecidableEq

/-- The snapshot of a round, unless it brought none. -/
def Observation.snapshot : Observation → Option String
  | .watched snapshot _ => some snapshot
  | .closed => none
  | .polled snapshot _ => some snapshot
  | .unread => none

/-- The loop with its source: `native` as long as the channel of the native watch is there. -/
structure Watcher (Value Digest : Type) where
  loop : WatchLoop Value Digest
  native : Bool

variable {Value Digest : Type}

namespace WatchLoop

variable [DecidableEq Digest] (options : WatchOptions Value Digest)

/-- What a round makes of a snapshot. -/
inductive Received (loop : WatchLoop Value Digest) (snapshot : String) :
    WatchLoop Value Digest → Option (ReloadResult Value Digest) → Prop
  /-- The snapshot is current, failed before or has to wait. -/
  | kept (pending : Option (String × Instant)) :
      Received loop snapshot
        { loop with
          lastFailedHash :=
            loop.lastFailedHash.filter (fun failed => failed = options.snapshotHash snapshot)
          pending } none
  | rejected (fresh : loop.lastFailedHash ≠ some (options.snapshotHash snapshot)) (message : String)
      (invalid : options.candidate snapshot = .error message) :
      Received loop snapshot
        { loop with pending := none, lastFailedHash := some (options.snapshotHash snapshot) }
        (some
          { version := loop.version + 1
            oldVersion := loop.version
            hash := options.snapshotHash snapshot
            oldHash := loop.lastHash
            changed := false
            success := false
            error := some message
            config := none })
  | applied (fresh : loop.lastFailedHash ≠ some (options.snapshotHash snapshot)) (parsed : Value)
      (valid : options.candidate snapshot = .ok parsed) :
      Received loop snapshot
        { lastSnapshot := snapshot
          lastHash := options.snapshotHash snapshot
          lastFailedHash := none
          pending := none
          value := parsed
          version := loop.version + 1 }
        (some
          { version := loop.version + 1
            oldVersion := loop.version
            hash := options.snapshotHash snapshot
            oldHash := loop.lastHash
            changed := decide (loop.lastHash ≠ options.snapshotHash snapshot)
            success := true
            error := none
            config := some parsed })

variable {options} {loop : WatchLoop Value Digest} {snapshot : String}

theorem received_of_receive (now : Instant) :
    Received options loop snapshot (loop.receive options snapshot now).1
      (loop.receive options snapshot now).2 := by
  rw [receive]
  split
  · rw [forget_eq]
    exact .kept none
  · split
    · rw [forget_eq]
      exact .kept none
    · rename_i fresh
      split
      · split
        · rw [forget_eq]
          exact .kept loop.pending
        · have unfailed : loop.lastFailedHash ≠ some (options.snapshotHash snapshot) := by
            intro failed
            rw [forget_eq] at fresh
            exact fresh (by simp [failed])
          rw [reload, forget_eq]
          cases read : options.candidate snapshot with
          | error message => exact .rejected unfailed message read
          | ok parsed => exact .applied unfailed parsed read
      · rw [forget_eq]
        exact .kept _

end WatchLoop

namespace Watcher

variable [DecidableEq Digest] (options : WatchOptions Value Digest)

/-- A snapshot goes through the loop. -/
def hear (watcher : Watcher Value Digest) (snapshot : String) (now : Instant) :
    Watcher Value Digest × Option (ReloadResult Value Digest) :=
  ({ watcher with loop := (watcher.loop.receive options snapshot now).1 },
    (watcher.loop.receive options snapshot now).2)

/-- One round of the loop: the native watch first, and polling once its channel is closed. -/
def round (watcher : Watcher Value Digest) :
    Observation → Option (Watcher Value Digest × Option (ReloadResult Value Digest))
  | .watched snapshot now => if watcher.native then some (watcher.hear options snapshot now) else none
  | .closed => if watcher.native then some ({ watcher with native := false }, none) else none
  | .polled snapshot now => if watcher.native then none else some (watcher.hear options snapshot now)
  | .unread => if watcher.native then none else some (watcher, none)

def machine : Machine (Watcher Value Digest) Observation (Option (ReloadResult Value Digest)) where
  step watcher observation := watcher.round options observation

/-- The loop as it is spawned, with the native watch where the source offers one. -/
def new (native : Bool) (snapshot : String) (value : Value) : Watcher Value Digest where
  loop := .new options snapshot value
  native

/-- What a round does: it passes a snapshot through the loop or leaves the loop alone. -/
inductive Rounded (watcher : Watcher Value Digest) (observation : Observation) :
    Watcher Value Digest → Option (ReloadResult Value Digest) → Prop
  | silent (native : Bool) (unseen : observation.snapshot = none) :
      Rounded watcher observation { watcher with native } none
  | heard (snapshot : String) (seen : observation.snapshot = some snapshot)
      {loop : WatchLoop Value Digest} {result : Option (ReloadResult Value Digest)}
      (received : WatchLoop.Received options watcher.loop snapshot loop result) :
      Rounded watcher observation { watcher with loop } result

variable {options} {watcher next : Watcher Value Digest} {observation : Observation}
variable {result : Option (ReloadResult Value Digest)}

theorem rounded_of_round (taken : watcher.round options observation = some (next, result)) :
    Rounded options watcher observation next result := by
  cases observation with
  | watched snapshot now =>
    obtain ⟨_, same⟩ := Option.ite_none_right_eq_some.mp taken
    cases same
    exact .heard snapshot rfl (WatchLoop.received_of_receive now)
  | closed =>
    obtain ⟨_, same⟩ := Option.ite_none_right_eq_some.mp taken
    cases same
    exact .silent false rfl
  | polled snapshot now =>
    obtain ⟨_, same⟩ := Option.ite_none_left_eq_some.mp taken
    cases same
    exact .heard snapshot rfl (WatchLoop.received_of_receive now)
  | unread =>
    obtain ⟨_, same⟩ := Option.ite_none_left_eq_some.mp taken
    cases same
    exact .silent watcher.native rfl

end Watcher

/-! ## What a history tells -/

namespace History

/-- The rounds of a history. -/
abbrev Events (Value Digest : Type) := List (Observation × Option (ReloadResult Value Digest))

/-- The snapshots that were delivered. -/
def delivered (events : Events Value Digest) : List String :=
  events.filterMap (fun event => event.1.snapshot)

/-- The snapshot of a round with the result it was given, if it has such a result. -/
def resulting (success : Bool) (event : Observation × Option (ReloadResult Value Digest)) :
    Option (String × ReloadResult Value Digest) :=
  match event with
  | (observation, some result) =>
      if result.success = success then observation.snapshot.map (fun snapshot => (snapshot, result))
      else none
  | (_, none) => none

/-- The snapshots that were applied, with the results of their success. -/
def applied (events : Events Value Digest) : List (String × ReloadResult Value Digest) :=
  events.filterMap (resulting true)

/-- The snapshots that were rejected, with the results of their failure. -/
def rejected (events : Events Value Digest) : List (String × ReloadResult Value Digest) :=
  events.filterMap (resulting false)

/-- The successes of a history from a loop form a chain: each version is the next one, and each old hash
is that of the snapshot applied before. The value at the end comes from the snapshot the loop began
with or from a delivered one. -/
structure Chained (options : WatchOptions Value Digest) (start : WatchLoop Value Digest)
    (events : Events Value Digest) (final : WatchLoop Value Digest) : Prop where
  value : ∃ source ∈ start.lastSnapshot :: delivered events,
    options.candidate source = .ok final.value
  versions : (applied events).map (fun success => success.2.version) =
    (List.range (applied events).length).map (fun count => start.version + UInt64.ofNat (count + 1))
  oldVersions : (applied events).map (fun success => success.2.oldVersion) =
    (List.range (applied events).length).map (fun count => start.version + UInt64.ofNat count)
  hashes : (applied events).map (fun success => success.2.hash) =
    (applied events).map (fun success => options.snapshotHash success.1)
  oldHashes : (applied events).map (fun success => success.2.oldHash) =
    (start.lastSnapshot :: (applied events).map Prod.fst).dropLast.map options.snapshotHash

/-- A failure leaves the value, the version and what was applied alone. -/
def Unharmed (before : Watcher Value Digest) (_ : Observation)
    (result : Option (ReloadResult Value Digest)) (after : Watcher Value Digest) : Prop :=
  ∀ failure, result = some failure → failure.success = false →
    after.loop.value = before.loop.value ∧ after.loop.version = before.loop.version ∧
      after.loop.lastHash = before.loop.lastHash ∧ after.loop.lastSnapshot = before.loop.lastSnapshot

/-- In a stretch of a history that brings one snapshot only, at most one failure is reported. -/
def ReportedOnce (events : Events Value Digest) : Prop :=
  ∀ before middle after snapshot, events = before ++ middle ++ after →
    (∀ seen ∈ delivered middle, seen = snapshot) → (rejected middle).length ≤ 1

end History

namespace WatchLoop

/-- What is in memory comes from the snapshot that was applied last. -/
structure Loaded (options : WatchOptions Value Digest) (loop : WatchLoop Value Digest) : Prop where
  value : options.candidate loop.lastSnapshot = .ok loop.value
  hash : loop.lastHash = options.snapshotHash loop.lastSnapshot

end WatchLoop

namespace History

variable [DecidableEq Digest] {options : WatchOptions Value Digest}
variable {start final : Watcher Value Digest} {events : Events Value Digest}

open WatchLoop (Loaded Received)

variable {loop : WatchLoop Value Digest}

omit [DecidableEq Digest] in
theorem Chained.done (loaded : Loaded options loop) : Chained options loop [] loop where
  value := ⟨loop.lastSnapshot, mem_cons_self, loaded.value⟩
  versions := rfl
  oldVersions := rfl
  hashes := rfl
  oldHashes := rfl

omit [DecidableEq Digest] in
/-- A round that applies nothing does not add to the chain. -/
theorem Chained.skip {first last : WatchLoop Value Digest}
    {event : Observation × Option (ReloadResult Value Digest)}
    (chained : Chained options loop events last) (unapplied : resulting true event = none)
    (snapshot : loop.lastSnapshot = first.lastSnapshot) (version : loop.version = first.version) :
    Chained options first (event :: events) last := by
  have same : applied (event :: events) = applied events := filterMap_cons_none unapplied
  obtain ⟨value, versions, oldVersions, hashes, oldHashes⟩ := chained
  refine ⟨?_, ?_, ?_, ?_, ?_⟩
  · obtain ⟨source, member, read⟩ := value
    refine ⟨source, ?_, read⟩
    rw [snapshot] at member
    refine (mem_cons.mp member).elim (fun same => same ▸ mem_cons_self) fun later => ?_
    refine mem_cons_of_mem _ ?_
    obtain ⟨other, inside, seen⟩ := mem_filterMap.mp later
    exact mem_filterMap.mpr ⟨other, mem_cons_of_mem _ inside, seen⟩
  · rw [same, versions, version]
  · rw [same, oldVersions, version]
  · rw [same, hashes]
  · rw [same, oldHashes, snapshot]

omit [DecidableEq Digest] in
/-- A round that applies a snapshot is the first link of the chain. -/
theorem Chained.link {first last : WatchLoop Value Digest} {observation : Observation}
    {result : ReloadResult Value Digest} (chained : Chained options loop events last)
    (seen : observation.snapshot = some loop.lastSnapshot) (success : result.success = true)
    (held : first.lastHash = options.snapshotHash first.lastSnapshot)
    (advanced : loop.version = first.version + 1)
    (told : result.version = first.version + 1 ∧ result.oldVersion = first.version ∧
      result.hash = options.snapshotHash loop.lastSnapshot ∧ result.oldHash = first.lastHash) :
    Chained options first ((observation, some result) :: events) last := by
  have resulted : resulting true (observation, some result) = some (loop.lastSnapshot, result) := by
    simp [resulting, success, seen]
  have linked : applied ((observation, some result) :: events) =
      (loop.lastSnapshot, result) :: applied events := filterMap_cons_some resulted
  have brought : delivered ((observation, some result) :: events) =
      loop.lastSnapshot :: delivered events := filterMap_cons_some seen
  obtain ⟨value, versions, oldVersions, hashes, oldHashes⟩ := chained
  obtain ⟨version, oldVersion, hash, oldHash⟩ := told
  refine ⟨?_, ?_, ?_, ?_, ?_⟩
  · obtain ⟨source, member, read⟩ := value
    grind
  · rw [linked, map_cons, versions, length_cons, range_succ_eq_map, map_cons,
      map_map, version, advanced]
    refine congrArg (List.cons _) (map_congr_left fun count _ => ?_)
    simp [UInt64.add_assoc, UInt64.add_comm]
  · rw [linked, map_cons, oldVersions, length_cons, range_succ_eq_map, map_cons,
      map_map, oldVersion, advanced]
    refine congr (congrArg List.cons (by simp)) (map_congr_left fun count _ => ?_)
    simp [UInt64.add_assoc, UInt64.add_comm]
  · rw [linked, map_cons, hashes, hash, map_cons]
  · rw [linked, map_cons, oldHashes, oldHash, held, map_cons]
    rfl

/-- Every history from a loaded loop is a chain. -/
theorem chained_of_run (run : (Watcher.machine options).Run start events final)
    (loaded : Loaded options start.loop) : Chained options start.loop events final.loop := by
  induction run with
  | done => exact .done loaded
  | @step watcher next final observation result events taken rest ih =>
    cases Watcher.rounded_of_round taken with
    | silent => exact (ih loaded).skip rfl rfl rfl
    | heard snapshot seen received =>
      cases received with
      | kept | rejected => exact (ih ⟨loaded.value, loaded.hash⟩).skip rfl rfl rfl
      | applied fresh parsed valid =>
        exact (ih ⟨valid, rfl⟩).link seen rfl loaded.hash rfl ⟨rfl, rfl, rfl, rfl⟩

variable {snapshot : String}

/-- A snapshot that is delivered again and again without another one in between is reported at most
once: its failure is remembered until another snapshot comes, and as long as it is remembered nothing
is reported. -/
theorem rejected_length_le_one (run : (Watcher.machine options).Run start events final)
    (only : ∀ seen ∈ delivered events, seen = snapshot) : (rejected events).length ≤ 1 ∧
      (start.loop.lastFailedHash = some (options.snapshotHash snapshot) → rejected events = []) := by
  induction run with
  | done => exact ⟨Nat.zero_le 1, fun _ => rfl⟩
  | @step watcher next final observation result events taken rest ih =>
    have later := ih fun seen member => by
      obtain ⟨other, inside, brought⟩ := mem_filterMap.mp member
      exact only seen (mem_filterMap.mpr ⟨other, mem_cons_of_mem _ inside, brought⟩)
    cases Watcher.rounded_of_round taken with
    | silent => exact later
    | heard other seen received =>
      have same : other = snapshot :=
        only other (mem_filterMap.mpr ⟨_, mem_cons_self, seen⟩)
      subst same
      cases received with
      | kept => exact ⟨later.1, fun failed => later.2 (by simp [failed])⟩
      | rejected fresh =>
        refine ⟨?_, fun failed => absurd failed fresh⟩
        rw [rejected, filterMap_cons, ← rejected, later.2 rfl]
        grind
      | applied fresh => exact ⟨later.1, fun failed => absurd failed fresh⟩

/-- Whatever the loop sees from the watch or by polling, the value in memory is that of the loaded
snapshot or of a delivered one that was valid; the successes carry the versions 1, 2, 3, … and the hash
of the snapshot applied before each; failures change nothing; and a rejected snapshot is reported at
most once until another one comes. -/
theorem last_valid_kept (native : Bool) {snapshot : String} {value : Value}
    (loaded : options.candidate snapshot = .ok value)
    (run : (Watcher.machine options).Run (.new options native snapshot value) events final) :
    Chained options (.new options snapshot value) events final.loop ∧
      (Watcher.machine options).Along Unharmed (.new options native snapshot value) events ∧
      ReportedOnce events := by
  refine ⟨chained_of_run run ⟨loaded, rfl⟩, ?_, ?_⟩
  · intro before observation result after watcher next _ _ taken failure told unsuccessful
    -- a failed round changes neither the value nor what it was applied from
    cases Watcher.rounded_of_round taken with
    | silent => cases told
    | heard snapshot seen received =>
      cases received with
      | kept => cases told
      | rejected => exact ⟨rfl, rfl, rfl, rfl⟩
      | applied =>
        cases told
        cases unsuccessful
  · intro before middle after snapshot split only
    rw [split, append_assoc, Machine.run_append_iff] at run
    obtain ⟨_, _, run⟩ := run
    obtain ⟨_, run, _⟩ := Machine.run_append_iff.mp run
    exact (rejected_length_le_one run only).1

end History

namespace Sample

/-- Texts are their own values and hashes, and the text "bad" is not valid. -/
def strict : WatchOptions String String where
  snapshotHash := id
  candidate snapshot := if snapshot = "bad" then .error "invalid" else .ok snapshot
  debounce := .fromMillis 400

def second (count : UInt64) : Instant := .ofNanos (count * 1000000000)

/-- The watch brings a change and an invalid snapshot, twice each, and is closed; polling then fails
once, finds the invalid snapshot again, and a second change. -/
def observations : List Observation :=
  [.watched "b" (second 0), .watched "b" (second 1), .watched "bad" (second 2),
    .watched "bad" (second 3), .closed, .unread, .polled "bad" (second 4), .polled "c" (second 5),
    .polled "c" (second 6)]

def watched : Option (Watcher String String × History.Events String String) :=
  (Watcher.machine strict).exec (.new strict true "a" "a") observations

end Sample

theorem last_valid_kept_mixed :
    ∃ final events, Sample.watched = some (final, events) ∧ final.loop.value = "c" ∧
      (History.rejected events).map Prod.fst = ["bad"] ∧
      (History.applied events).map (fun success => (success.1, success.2.version)) =
        [("b", 1), ("c", 2)] ∧
      History.Chained Sample.strict (.new Sample.strict "a" "a") events final.loop := by
  have shown : Sample.watched.map (fun result => (result.1.loop.value,
      (History.rejected result.2).map Prod.fst,
      (History.applied result.2).map (fun success => (success.1, success.2.version)))) =
      some ("c", ["bad"], [("b", 1), ("c", 2)]) := by
    decide +kernel
  obtain ⟨⟨final, events⟩, executed, same⟩ := Option.map_eq_some_iff.mp shown
  obtain ⟨value, rejections, successes⟩ : _ ∧ _ ∧ _ := by simpa only [Prod.mk.injEq] using same
  exact ⟨final, events, executed, value, rejections, successes,
    (History.last_valid_kept true rfl (Machine.exec_run executed)).1⟩

end Roze.Config
