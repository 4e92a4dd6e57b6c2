import Roze.Kafka.Recovery

/-!
# Commits of a Kafka subscription

One task reads the records of a partition and hands each one to the handlers over a channel that
keeps the last deliveries only. An acknowledgement is a command to the same task, which commits the
offset after the acknowledged record. A restart reads on from the committed offset, so what matters
is that no record before it is unfinished.
-/

namespace Roze.Kafka

open Roze.Library List

/-! ## The subscription -/

/-- A record that was received, and what its handlers did with it. -/
structure Tracked (Payload : Type) where
  offset : Nat
  message : KafkaRecord Payload
  acked : Bool
  handedOn : Bool

def Tracked.finished {Payload : Type} (record : Tracked Payload) : Bool := record.acked || record.handedOn

/-- The task of a subscription with its channels, for one partition. `position` is the offset from
which records are fetched, and `committed` the one from which a restart would fetch them. -/
structure Subscription (Payload : Type) where
  received : List (Tracked Payload)
  /-- Deliveries in the broadcast channel, by their offsets. -/
  pending : List Nat
  /-- Deliveries that handlers have. -/
  taken : List Nat
  /-- Offsets to commit. -/
  commands : List Nat
  position : Nat
  committed : Nat

inductive SubscriptionAction (Payload : Type) where
  /-- The task receives a record and broadcasts its delivery. -/
  | receive (offset : Nat) (wire : WireRecord Payload)
  /-- A handler takes the oldest delivery from the channel. -/
  | take
  | ack (offset : Nat)
  /-- A delivery is refused; the publication of its copy may fail. -/
  | nack (offset : Nat) (published : Bool)
  /-- The task executes the next command; the commit may fail. -/
  | commit (succeeds : Bool)

namespace Subscription

variable {Payload : Type}

def channelCapacity : Nat := 256

/-- A subscription that begins at the offset that was committed before. -/
def new (committed : Nat) : Subscription Payload := ⟨[], [], [], [], committed, committed⟩

/-- A slow receiver loses the oldest delivery of a full channel. -/
def broadcast (pending : List Nat) (offset : Nat) : List Nat :=
  (pending ++ [offset]).drop (pending.length + 1 - channelCapacity)

/-- The records of an offset are changed. -/
def mark (subscription : Subscription Payload) (offset : Nat)
    (change : Tracked Payload → Tracked Payload) : Subscription Payload :=
  { subscription with
    received := subscription.received.map (fun record =>
      if record.offset = offset then change record else record) }

variable (config : KafkaConfig)

/-- A refused record is handed on when there is a topic for it and the publication succeeds. -/
def refuse (published : Bool) (record : Tracked Payload) : Tracked Payload :=
  { record with
    handedOn := record.handedOn || (published && (publishRecover config record.message).isSome) }

def step (subscription : Subscription Payload) :
    SubscriptionAction Payload → Option (Subscription Payload)
  | .receive offset wire =>
      if subscription.position ≤ offset then
        some { subscription with
          received := subscription.received ++ [⟨offset, wire.received, false, false⟩]
          pending := broadcast subscription.pending offset
          position := offset + 1 }
      else none
  | .take =>
      match subscription.pending with
      | [] => none
      | offset :: rest =>
          some { subscription with pending := rest, taken := subscription.taken ++ [offset] }
  | .ack offset =>
      if offset ∈ subscription.taken then
        some { subscription.mark offset (fun record => { record with acked := true }) with
          commands := subscription.commands ++ [offset + 1] }
      else none
  | .nack offset published =>
      if offset ∈ subscription.taken then some (subscription.mark offset (refuse config published))
      else none
  | .commit succeeds =>
      match subscription.commands with
      | [] => none
      | next :: rest =>
          some { subscription with
            commands := rest
            committed := if succeeds then next else subscription.committed }

/-- Any number of handlers, in any interleaving with the task. -/
def machine : Machine (Subscription Payload) (SubscriptionAction Payload) Unit where
  step subscription action := (subscription.step config action).map (fun next => (next, ()))

/-- A restart receives every unfinished record again. -/
def Covered (subscription : Subscription Payload) : Prop :=
  ∀ record ∈ subscription.received, record.finished = false → subscription.committed ≤ record.offset

/-- A commit that is executed finds the records up to its offset finished. -/
def timely (subscription : Subscription Payload) : SubscriptionAction Payload → Bool
  | .commit true =>
      subscription.commands.head?.all (fun next =>
        subscription.received.all (fun record => record.finished || next ≤ record.offset))
  | _ => true

/-! ## One step -/

/-- No offset is beyond what was fetched. -/
structure Sound (subscription : Subscription Payload) : Prop where
  pending : ∀ offset ∈ subscription.pending, offset < subscription.position
  taken : ∀ offset ∈ subscription.taken, offset < subscription.position
  commands : ∀ next ∈ subscription.commands, next ≤ subscription.position
  committed : subscription.committed ≤ subscription.position

theorem Sound.new (committed : Nat) : (new committed : Subscription Payload).Sound :=
  ⟨nofun, nofun, nofun, Nat.le_refl _⟩

variable {config} {subscription next : Subscription Payload} {action : SubscriptionAction Payload}

/-- A record that stays unfinished when records are marked was unfinished before. -/
theorem Covered.mark {offset : Nat} {change : Tracked Payload → Tracked Payload}
    (covered : subscription.Covered) (same : ∀ record, (change record).offset = record.offset)
    (kept : ∀ record, (change record).finished = false → record.finished = false) :
    (subscription.mark offset change).Covered := by
  intro record member unfinished
  obtain ⟨before, inside, rfl⟩ := mem_map.mp member
  by_cases marked : before.offset = offset
  · rw [if_pos marked] at unfinished ⊢
    rw [same]
    exact covered before inside (kept before unfinished)
  · rw [if_neg marked] at unfinished ⊢
    exact covered before inside unfinished

/-- A step keeps what was fetched ahead of all offsets, and it keeps all unfinished records at the
committed offset or after it exactly when a commit is timely. Records that are received lie after
everything that was committed. -/
theorem Covered.step_iff (sound : subscription.Sound) (covered : subscription.Covered)
    (taken : subscription.step config action = some next) :
    next.Sound ∧ (next.Covered ↔ subscription.timely action = true) := by
  cases action with
  | receive offset =>
    obtain ⟨ahead, rfl⟩ := of_guard taken
    have beyond : subscription.position ≤ offset + 1 := Nat.le_succ_of_le ahead
    refine ⟨⟨fun other member => ?_, fun other member => (sound.taken other member).trans_le beyond,
      fun other member => (sound.commands other member).trans beyond,
      sound.committed.trans beyond⟩, iff_of_true (fun record member unfinished => ?_) rfl⟩
    · dsimp only at member
      rcases mem_append.mp (mem_of_mem_drop member) with before | last
      · exact (sound.pending other before).trans_le beyond
      · simp_all
    · rcases mem_append.mp member with before | last
      · exact covered record before unfinished
      · rw [mem_singleton.mp last]
        exact sound.committed.trans ahead
  | take =>
    simp only [Subscription.step] at taken
    split at taken
    · cases taken
    · rename_i offset rest queued
      cases taken
      have waiting := sound.pending
      rw [queued] at waiting
      refine ⟨⟨fun other member => waiting other (mem_cons_of_mem _ member),
        fun other member => ?_, sound.commands, sound.committed⟩, iff_of_true covered rfl⟩
      rcases mem_append.mp member with before | last
      · exact sound.taken other before
      · simp_all
  | ack offset =>
    obtain ⟨held, rfl⟩ := of_guard taken
    refine ⟨⟨sound.pending, sound.taken, fun other member => ?_, sound.committed⟩,
      iff_of_true (covered.mark (fun _ => rfl) nofun) rfl⟩
    rcases mem_append.mp member with before | last
    · exact sound.commands other before
    · rw [mem_singleton.mp last]
      exact sound.taken offset held
  | nack =>
    obtain ⟨_, rfl⟩ := of_guard taken
    refine ⟨⟨sound.pending, sound.taken, sound.commands, sound.committed⟩,
      iff_of_true (covered.mark (fun _ => rfl) fun record unfinished => ?_) rfl⟩
    simp only [Tracked.finished, refuse, Bool.or_eq_false_iff] at unfinished ⊢
    simp_all
  | commit succeeds =>
    simp only [Subscription.step] at taken
    split at taken
    · cases taken
    · rename_i command rest queued
      cases taken
      have commands := sound.commands
      rw [queued] at commands
      have later := fun other member => commands other (mem_cons_of_mem _ member)
      cases succeeds with
      | false => exact ⟨⟨sound.pending, sound.taken, later, sound.committed⟩, iff_of_true covered rfl⟩
      | true =>
        refine ⟨⟨sound.pending, sound.taken, later, commands command mem_cons_self⟩, ?_⟩
        rw [timely, queued, head?_cons, Option.all_some, all_eq_true]
        constructor
        · intro after record member
          cases finished : record.finished with
          | true => rfl
          | false => exact decide_eq_true (after record member finished)
        · intro done record member unfinished
          grind

/-! ## Whole runs -/

/-- In a run of a subscription no unfinished record lies before the committed offset, in any state, if
and only if every commit that is executed finds the records up to its offset finished. -/
theorem commits_cover_iff {start : Nat} {final : Subscription Payload}
    {events : List (SubscriptionAction Payload × Unit)}
    (run : (machine config).Run (new start) events final) :
    (machine config).Throughout Covered (new start) events ↔
      (machine config).Along (fun subscription action _ _ => subscription.timely action = true)
        (new start) events := by
  refine Machine.Run.throughout_iff_along_of_allowed (fun _ => True)
    (fun state => state.Sound ∧ state.Covered) ?_ ?_ run (fun _ _ => trivial) ⟨Sound.new start, nofun⟩ nofun
  · intro state action output after lawful _ taken
    exact (lawful.2.step_iff lawful.1 (Machine.of_map_unit taken)).2
  · intro state action output after lawful _ taken covered
    exact ⟨(lawful.2.step_iff lawful.1 (Machine.of_map_unit taken)).1, covered⟩

end Subscription

namespace Sample

def wire : WireRecord Unit := ⟨"orders", none, [], ()⟩

/-- Two records are received and taken. -/
def taken : List (SubscriptionAction Unit) := [.receive 0 wire, .receive 1 wire, .take, .take]

/-- The committed offset and the offsets of unfinished records. -/
def offsets (subscription : Subscription Unit) : Nat × List Nat :=
  (subscription.committed,
    (subscription.received.filter (fun record => !record.finished)).map Tracked.offset)

end Sample

/-- The second record is acknowledged while the first one is handled, or after its copy could not be
published. The first one then lies before the committed offset. -/
theorem commit_skips_record :
    ((Subscription.machine (Sample.config 1)).exec (.new 0)
        (Sample.taken ++ [.ack 1, .commit true])).map (fun run => Sample.offsets run.1) =
          some (2, [0]) ∧
      ((Subscription.machine (Sample.config 1)).exec (.new 0)
        (Sample.taken ++ [.nack 0 false, .ack 1, .commit true])).map (fun run => Sample.offsets run.1) =
          some (2, [0]) := by
  decide +kernel

theorem commits_cover_iff_ordered :
    ∃ final events, (Subscription.machine (Sample.config 1)).exec (.new 0)
        (Sample.taken ++ [.ack 1, .nack 0 true, .commit true]) = some (final, events) ∧
      final.committed = 2 ∧
      (Subscription.machine (Sample.config 1)).Throughout Subscription.Covered (.new 0) events := by
  have last : ((Subscription.machine (Sample.config 1)).exec (.new 0)
      (Sample.taken ++ [.ack 1, .nack 0 true, .commit true])).map (fun run => run.1.committed) =
        some 2 := by
    decide +kernel
  obtain ⟨⟨final, events⟩, executed, committed⟩ := Option.map_eq_some_iff.mp last
  exact ⟨final, events, executed, committed,
    (Subscription.commits_cover_iff (Machine.exec_run executed)).mpr
      (Machine.along_of_checks executed (by decide +kernel))⟩

end Roze.Kafka
