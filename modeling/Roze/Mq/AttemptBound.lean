import Mathlib
import Roze.Mq.DeliveryCourse

/-!
# Attempts of a published message

Every publish call gets a number, which the broker carries along with the content of the
message. In every run the deliveries with the number of a call that is not delayed form a
course of its message, and so the call is within its bounds exactly when the copies on the
dead-letter topic are nacked no more often than the limit says. No delivery is settled
twice.
-/

namespace Roze.Mq

open Roze.Library List

variable {Content : Type}

/-! ## Numbered publish calls -/

/-- The publish calls of an action, with their times. -/
def BrokerAction.published : BrokerAction Content → List (UInt64 × Message Content)
  | .publish now message => [(now, message)]
  | _ => []

open BrokerAction

/-- A broker whose contents carry the number of the publish call, with the calls so far. -/
structure NumberedBroker (Content : Type) where
  broker : InMemoryBroker (Content × Nat)
  published : List (UInt64 × Message Content)

namespace NumberedBroker

def new : NumberedBroker Content := ⟨.new, []⟩

/-- The broker without the numbers. -/
def forget (numbered : NumberedBroker Content) : InMemoryBroker Content :=
  numbered.broker.map Prod.fst

end NumberedBroker

/-- The broker with numbered publish calls. -/
def numberedBroker (Content : Type) (limits : BrokerLimits) :
    Machine (NumberedBroker Content) (BrokerAction Content) BrokerOutcome where
  step numbered action :=
    ((inMemoryBroker (Content × Nat) limits).step numbered.broker
      (action.map (·, numbered.published.length))).map
      fun taken => (⟨taken.1, numbered.published ++ action.published⟩, taken.2)

theorem numberedBroker_forget (limits : BrokerLimits) (numbered : NumberedBroker Content)
    (action : BrokerAction Content) :
    (inMemoryBroker Content limits).step numbered.forget action =
      ((numberedBroker Content limits).step numbered action).map
        fun taken => (taken.1.forget, taken.2) := by
  have plain : (action.map (·, numbered.published.length)).map Prod.fst = action := by
    cases action <;> rfl
  have renamed := inMemoryBroker_map Prod.fst limits numbered.broker
    (action.map (·, numbered.published.length))
  rw [plain] at renamed
  rw [NumberedBroker.forget, renamed, numberedBroker, Option.map_map]
  rfl

/-! ## The course of a publish call -/

namespace InMemoryBroker

/-- The deliveries of a publish call. -/
def course (broker : InMemoryBroker (Content × Nat)) (publication : Nat) :
    List (Delivery (Content × Nat)) :=
  broker.deliveries.filter (fun delivery => delivery.message.content.2 = publication)

/-- The dead letters of a publish call. -/
def records (broker : InMemoryBroker (Content × Nat)) (publication : Nat) :
    List (DeadLetterRecord (Content × Nat)) :=
  broker.deadLetters.filter (fun record => record.message.content.2 = publication)

/-! ## What the broker sends -/

section Sends

variable (limits : BrokerLimits) (now : UInt64) (broker : InMemoryBroker Content)
  (message : Message Content)

theorem deliver_deliveries (deadLetterTopic : Option String) (reason : String) :
    (broker.deliver limits now message deadLetterTopic reason).deliveries =
      broker.deliveries ++ (forwarded limits message deadLetterTopic).toList.map sent := by
  simp only [deliver, forwarded, exhausted, decide_eq_true_eq]
  split
  · cases deadLetterTopic with
    | none => simp [pushDeadLetter]
    | some => rfl
  · rfl

theorem deliver_delayed (deadLetterTopic : Option String) (reason : String) :
    (broker.deliver limits now message deadLetterTopic reason).delayed = broker.delayed := by
  simp only [deliver]
  split
  · cases deadLetterTopic <;> rfl
  · rfl

theorem deliver_deadLetters (deadLetterTopic : Option String) (reason : String) :
    ∃ record : DeadLetterRecord Content, record.message = message ∧
      (broker.deliver limits now message deadLetterTopic reason).deadLetters =
        broker.deadLetters ++ if exhausted limits message then [record] else [] := by
  refine ⟨⟨broker.nextDeadLetterId, message.topic, reason, now, 0, message⟩, rfl, ?_⟩
  simp only [deliver, exhausted, decide_eq_true_eq]
  split
  · cases deadLetterTopic <;> rfl
  · simp [countDelivered, send]

/-- The metadata of a message are no part of its place. -/
theorem prepareDeliveryMetadata_keeps :
    let prepared := broker.prepareDeliveryMetadata now message
    (prepared.1.topic = message.topic ∧ prepared.1.attempt = message.attempt ∧
      prepared.1.deadLetterTopic = message.deadLetterTopic ∧ prepared.1.content = message.content) ∧
    prepared.2.deliveries = broker.deliveries ∧ prepared.2.deadLetters = broker.deadLetters ∧
      prepared.2.delayed = broker.delayed := by
  simp only [prepareDeliveryMetadata]
  grind

theorem noteIdempotencyKey_keeps :
    (broker.noteIdempotencyKey message).deliveries = broker.deliveries ∧
      (broker.noteIdempotencyKey message).deadLetters = broker.deadLetters ∧
      (broker.noteIdempotencyKey message).delayed = broker.delayed := by
  rw [noteIdempotencyKey]
  grind

theorem routeDeliveryNow_delayed : (broker.routeDeliveryNow limits now message).delayed = broker.delayed :=
  (deliver_delayed limits now _ _ _ _).trans (prepareDeliveryMetadata_keeps now broker message).2.2.2

theorem routeDeliveryNow_deliveries :
    ∃ messages : List (Message Content), (broker.routeDeliveryNow limits now message).deliveries =
      broker.deliveries ++ messages.map sent := by
  rw [← (prepareDeliveryMetadata_keeps now broker message).2.1]
  exact ⟨_, deliver_deliveries limits now _ _ _ _⟩

theorem publish_deliveries :
    ∃ messages : List (Message Content), (broker.publish limits now message).deliveries =
      broker.deliveries ++ messages.map sent := by
  obtain ⟨same, -, -⟩ := noteIdempotencyKey_keeps
    { broker with stats := { broker.stats with published := broker.stats.published + 1 } } message
  rw [publish, routeDelivery]
  split
  · simp_all
  · split
    · exact ⟨[], by rw [same, map_nil, append_nil]⟩
    · obtain ⟨messages, grown⟩ := routeDeliveryNow_deliveries limits now _ message
      exact ⟨messages, by rw [grown, same]⟩

theorem requeueOrDeadLetter_deliveries :
    (broker.requeueOrDeadLetter limits now message).deliveries =
      broker.deliveries ++ (forwarded limits message.nextAttempt
        (limits.deadLetterTopicOf message.nextAttempt)).toList.map sent :=
  deliver_deliveries limits now _ _ _ _

/-- What is sent for a message has its content. -/
theorem forwarded_content {limits : BrokerLimits} {message next : Message Content}
    {deadLetterTopic : Option String}
    (goes : next ∈ (forwarded limits message deadLetterTopic).toList) :
    next.content = message.content := by
  rw [Option.mem_toList, forwarded] at goes
  split at goes
  · obtain ⟨_, -, rfl⟩ := Option.map_eq_some_iff.mp goes
    rfl
  · cases goes
    rfl

end Sends

/-! ### What the broker adds to the courses -/

variable {limits : BrokerLimits} {now : UInt64} {broker : InMemoryBroker (Content × Nat)}

/-- What a step adds to the course and the records of one publish call. -/
structure Adds (broker next : InMemoryBroker (Content × Nat)) (publication : Nat)
    (more : List (Delivery (Content × Nat))) (records : Nat) : Prop where
  course : ∀ other, next.course other = broker.course other ++ if publication = other then more else []
  records : ∀ other, (next.records other).length =
    (broker.records other).length + if publication = other then records else 0

/-- What is added to the same courses and records. -/
theorem Adds.of_same {next last : InMemoryBroker (Content × Nat)} {publication records : Nat}
    {more : List (Delivery (Content × Nat))} (adds : next.Adds last publication more records)
    (deliveries : next.deliveries = broker.deliveries)
    (deadLetters : next.deadLetters = broker.deadLetters) :
    broker.Adds last publication more records where
  course other := by rw [adds.course, InMemoryBroker.course, deliveries, InMemoryBroker.course]
  records other := by rw [adds.records, InMemoryBroker.records, deadLetters, InMemoryBroker.records]

theorem deliver_adds (limits : BrokerLimits) (now : UInt64) (broker : InMemoryBroker (Content × Nat))
    (message : Message (Content × Nat)) (deadLetterTopic : Option String) (reason : String) :
    broker.Adds (broker.deliver limits now message deadLetterTopic reason) message.content.2
      ((forwarded limits message deadLetterTopic).toList.map sent)
      (exhausted limits message).toNat where
  course other := by
    rw [course, deliver_deliveries, filter_append]
    refine congrArg (broker.course other ++ ·) ?_
    split
    · rename_i own
      rw [filter_eq_self]
      intro delivery member
      obtain ⟨next, goes, rfl⟩ := mem_map.mp member
      simpa [sent, forwarded_content goes] using own
    · rename_i different
      rw [filter_eq_nil_iff]
      intro delivery member
      obtain ⟨_, goes, rfl⟩ := mem_map.mp member
      simpa [sent, forwarded_content goes] using different
  records other := by
    obtain ⟨record, same, added⟩ := deliver_deadLetters limits now broker message deadLetterTopic reason
    rw [records, added, filter_append, length_append, records, ← same]
    grind

/-- A message that was never sent begins its course. -/
theorem routeDeliveryNow_adds (limits : BrokerLimits) (now : UInt64)
    (broker : InMemoryBroker (Content × Nat)) (message : Message (Content × Nat)) :
    ∃ more records,
      broker.Adds (broker.routeDeliveryNow limits now message) message.content.2 more records ∧
        (message.attempt = 0 → Course limits message more records) := by
  obtain ⟨⟨topic, attempt, carried, content⟩, deliveries, deadLetters, -⟩ :=
    prepareDeliveryMetadata_keeps now broker message
  have adds := (deliver_adds limits now (broker.prepareDeliveryMetadata now message).2
    (broker.prepareDeliveryMetadata now message).1.nextAttempt
    (broker.prepareDeliveryMetadata now message).1.nextAttempt.deadLetterTopic
    "max_attempts_exceeded").of_same deliveries deadLetters
  refine ⟨_, _, content ▸ adds, ?_⟩
  intro unsent
  have first : (broker.prepareDeliveryMetadata now message).1.nextAttempt.attempt = 1 := by
    rw [Message.nextAttempt, attempt, unsent]
    rfl
  have room : exhausted limits (broker.prepareDeliveryMetadata now message).1.nextAttempt = false := by
    rw [exhausted, first, decide_eq_false_iff_not, UInt32.not_lt]
    exact limits.positive
  rw [forwarded, room]
  exact Course.first topic (by rw [first]; rfl) carried

theorem requeueOrDeadLetter_adds (limits : BrokerLimits) (now : UInt64)
    (broker : InMemoryBroker (Content × Nat)) (message : Message (Content × Nat)) :
    broker.Adds (broker.requeueOrDeadLetter limits now message) message.content.2
      ((forwarded limits message.nextAttempt
        (limits.deadLetterTopicOf message.nextAttempt)).toList.map sent)
      (exhausted limits message.nextAttempt).toNat :=
  (deliver_adds limits now
    { broker with stats := { broker.stats with nacked := broker.stats.nacked + 1 } } message.nextAttempt
    (limits.deadLetterTopicOf message.nextAttempt) "nack_max_attempts_exceeded").of_same rfl rfl

/-- Settling a delivery replaces it in its course. -/
theorem course_setDelivery {id : Nat} {delivery : Delivery (Content × Nat)}
    (settled : Delivery (Content × Nat)) (found : broker.deliveries[id]? = some delivery)
    (same : settled.message.content = delivery.message.content) :
    (∃ front back, broker.course delivery.message.content.2 = front ++ delivery :: back ∧
      (broker.setDelivery id settled).course delivery.message.content.2 = front ++ settled :: back) ∧
    ∀ other, other ≠ delivery.message.content.2 →
      (broker.setDelivery id settled).course other = broker.course other := by
  obtain ⟨inside, here⟩ := List.getElem?_eq_some_iff.mp found
  obtain ⟨front, back, split, -, replaced⟩ : ∃ front back, broker.deliveries = front ++ _ :: back ∧
      front.length = id ∧ broker.deliveries.set id settled = front ++ settled :: back :=
    exists_of_set inside
  rw [here] at split
  simp only [course, setDelivery, replaced]
  grind

/-- A publish call begins a course, or leaves a waiting task, or does nothing. -/
theorem publish_adds (limits : BrokerLimits) (now : UInt64) (broker : InMemoryBroker (Content × Nat))
    (message : Message (Content × Nat)) :
    (∃ more records,
      broker.Adds (broker.publish limits now message) message.content.2 more records ∧
        (message.attempt = 0 → isDelayed now message = false → Course limits message more records)) ∧
    ∀ task, some task ∈ (broker.publish limits now message).delayed →
      some task ∈ broker.delayed ∨ task.content = message.content ∧ isDelayed now message = true := by
  obtain ⟨deliveries, deadLetters, delayed⟩ := noteIdempotencyKey_keeps
    { broker with stats := { broker.stats with published := broker.stats.published + 1 } } message
  rw [publish, routeDelivery]
  split
  · refine ⟨⟨[], 0, ⟨?_, ?_⟩, fun _ _ => .unsent⟩, ?_⟩
    · simp [course, deliveries]
    · simp [records, deadLetters]
    · simp_all
  · split
    · rename_i waits
      refine ⟨⟨[], 0, ⟨?_, ?_⟩, fun _ _ => .unsent⟩, ?_⟩
      · simp [course, deliveries]
      · simp [records, deadLetters]
      · grind
    · obtain ⟨more, records, adds, begins⟩ := routeDeliveryNow_adds limits now _ message
      refine ⟨⟨more, records, adds.of_same deliveries deadLetters, fun unsent _ => begins unsent⟩, ?_⟩
      intro task member
      rw [routeDeliveryNow_delayed] at member
      exact .inl (delayed ▸ member)

end InMemoryBroker

open InMemoryBroker

/-! ## Courses along a run -/

namespace NumberedBroker

variable {limits : BrokerLimits} {broker next : InMemoryBroker (Content × Nat)}
  {published : List (UInt64 × Message Content)}

/-- Every publish call that is not delayed has its course; the numbers of later calls are
unused, and what waits is delayed. -/
structure Coursed (limits : BrokerLimits) (numbered : NumberedBroker Content) : Prop where
  unused : ∀ publication, numbered.published.length ≤ publication →
    numbered.broker.course publication = [] ∧ (numbered.broker.records publication).length = 0
  waiting : ∀ task, some task ∈ numbered.broker.delayed → ∃ now message,
    numbered.published[task.content.2]? = some (now, message) ∧
      InMemoryBroker.isDelayed now message = true
  courses : ∀ publication now message, numbered.published[publication]? = some (now, message) →
    message.attempt = 0 → InMemoryBroker.isDelayed now message = false →
      Course limits message (numbered.broker.course publication)
        (numbered.broker.records publication).length

theorem new_coursed : (new : NumberedBroker Content).Coursed limits where
  unused _ _ := ⟨rfl, rfl⟩
  waiting := by simp [new, InMemoryBroker.new]
  courses := by simp [new]

section

variable (held : Coursed limits ⟨broker, published⟩)
include held

theorem Coursed.publish (now : UInt64) (message : Message Content) :
    Coursed limits ⟨broker.publish limits now (message.map (·, published.length)),
      published ++ [(now, message)]⟩ := by
  obtain ⟨⟨_, _, adds, begins⟩, delayed⟩ :=
    publish_adds limits now broker (message.map (·, published.length))
  have number : (message.map (·, published.length)).content.2 = published.length := rfl
  rw [number] at adds
  refine ⟨?_, ?_, ?_⟩
  · intro publication later
    rw [length_append, length_singleton] at later
    have other : published.length ≠ publication := by omega
    obtain ⟨noCourse, noRecords⟩ := held.unused publication (Nat.le_of_succ_le later)
    rw [adds.course, adds.records, if_neg other, if_neg other, append_nil]
    exact ⟨noCourse, noRecords⟩
  · intro task member
    rcases delayed task member with before | ⟨content, waits⟩
    · obtain ⟨time, original, found, waits⟩ := held.waiting task before
      refine ⟨time, original, ?_, waits⟩
      exact List.getElem?_append_left (List.getElem?_eq_some_iff.mp found).1 ▸ found
    · refine ⟨now, message, ?_, waits⟩
      simp_all
  · intro publication time original found unsent present
    rw [adds.course, adds.records]
    by_cases number : published.length = publication
    · subst number
      obtain ⟨noCourse, noRecords⟩ := held.unused published.length le_rfl
      simp only [getElem?_concat_length, Option.some.injEq, Prod.mk.injEq] at found
      obtain ⟨rfl, rfl⟩ := found
      rw [if_pos rfl, if_pos rfl, noCourse, noRecords, nil_append, Nat.zero_add]
      -- a course reads the topics of its message only
      cases begins unsent present with
      | unsent => exact .unsent
      | underway done unfinished placed room => exact .underway done unfinished placed room
      | ended done placed noTopic ends full => exact .ended done placed noTopic ends full
    · have inside := (List.getElem?_eq_some_iff.mp found).1
      rw [length_append, length_singleton] at inside
      rw [List.getElem?_append_left (by omega)] at found
      rw [if_neg number, if_neg number, append_nil]
      exact held.courses publication time original found unsent present

/-- What is sent for a waiting task is not in the course of a message without delay. -/
theorem Coursed.wake (now : UInt64) {task : Nat} {message : Message (Content × Nat)}
    (found : broker.delayed[task]? = some (some message)) :
    Coursed limits ⟨{ broker with delayed := broker.delayed.set task none }.routeDeliveryNow limits now
      message, published⟩ := by
  obtain ⟨_, _, adds, -⟩ := routeDeliveryNow_adds limits now
    { broker with delayed := broker.delayed.set task none } message
  obtain ⟨_, _, call, waits⟩ := held.waiting message (mem_of_getElem? found)
  have inside := (List.getElem?_eq_some_iff.mp call).1
  refine ⟨?_, ?_, ?_⟩
  · intro publication later
    have other : message.content.2 ≠ publication := (lt_of_lt_of_le inside later).ne
    rw [adds.course, adds.records, if_neg other, if_neg other, append_nil]
    exact held.unused publication later
  · intro other member
    rw [routeDeliveryNow_delayed] at member
    rcases mem_or_eq_of_mem_set member with before | ended
    · exact held.waiting other before
    · cases ended
  · intro publication now undelayed found unsent present
    have other : message.content.2 ≠ publication := by grind
    rw [adds.course, adds.records, if_neg other, if_neg other, append_nil]
    exact held.courses publication now undelayed found unsent present

variable {id : Nat} {delivery : Delivery (Content × Nat)}

/-- A delivery belongs to a publish call. -/
theorem Coursed.numbered (found : broker.deliveries[id]? = some delivery) :
    delivery.message.content.2 < published.length := by
  by_contra later
  have none := (held.unused delivery.message.content.2 (not_lt.mp later)).1
  have member : delivery ∈ broker.course delivery.message.content.2 :=
    mem_filter.mpr ⟨mem_of_getElem? found, by simp⟩
  simp_all

/-- Settling a delivery. -/
theorem Coursed.settle (found : broker.deliveries[id]? = some delivery)
    (unfinished : delivery.finished = false) {state : Settlement} (still : state ≠ .nacked false) :
    Coursed limits ⟨broker.setDelivery id { delivery with state }, published⟩ := by
  obtain ⟨⟨_, _, split, replaced⟩, same⟩ :=
    course_setDelivery { delivery with state } found rfl
  have inside := held.numbered found
  refine ⟨?_, held.waiting, ?_⟩
  · intro publication later
    rw [same publication (lt_of_lt_of_le inside later).ne']
    exact held.unused publication later
  · intro publication now message call unsent present
    have course := held.courses publication now message call unsent present
    by_cases own : publication = delivery.message.content.2
    · subst own
      rw [replaced]
      exact course.settled split unfinished rfl (by simpa [Delivery.finished] using still)
    · rw [same publication own]
      exact course

/-- The end of a call that nacked a delivery. -/
theorem Coursed.requeue (now : UInt64) (found : broker.deliveries[id]? = some delivery)
    (unfinished : delivery.finished = false) :
    Coursed limits ⟨(broker.setDelivery id { delivery with state := .nacked false }).requeueOrDeadLetter
      limits now delivery.message, published⟩ := by
  obtain ⟨⟨_, _, split, replaced⟩, same⟩ :=
    course_setDelivery { delivery with state := .nacked false } found rfl
  have adds := requeueOrDeadLetter_adds limits now
    (broker.setDelivery id { delivery with state := .nacked false }) delivery.message
  have inside := held.numbered found
  refine ⟨?_, ?_, ?_⟩
  · intro publication later
    have other := (lt_of_lt_of_le inside later).ne
    rw [adds.course, adds.records, if_neg other, if_neg other, append_nil, same publication other.symm]
    exact held.unused publication later
  · intro task member
    rw [requeueOrDeadLetter, deliver_delayed] at member
    exact held.waiting task member
  · intro publication time message call unsent present
    have course := held.courses publication time message call unsent present
    rw [adds.course, adds.records]
    by_cases own : delivery.message.content.2 = publication
    · subst own
      rw [replaced, if_pos rfl, if_pos rfl]
      exact course.requeued split unfinished rfl rfl
    · rw [if_neg own, if_neg own, append_nil, same publication (Ne.symm own)]
      exact course

end

theorem Coursed.step {numbered next : NumberedBroker Content} {action : BrokerAction Content}
    {output : BrokerOutcome}
    (held : numbered.Coursed limits)
    (taken : (numberedBroker Content limits).step numbered action = some (next, output)) :
    next.Coursed limits := by
  obtain ⟨broker, published⟩ := numbered
  obtain ⟨⟨_, _⟩, stepped, same⟩ := Option.map_eq_some_iff.mp taken
  obtain ⟨rfl, rfl⟩ := Prod.mk.inj same
  cases action with
  | publish now message =>
    cases stepped
    exact held.publish now message
  | wake now =>
    cases stepped_of_step stepped with
    | wake found => simpa [BrokerAction.published] using held.wake now found
  | ack id =>
    cases stepped_of_step stepped with
    | @ack _ delivery found pending =>
      have settled : Coursed limits ⟨broker.setDelivery id { delivery with state := .acked }, published⟩ :=
        held.settle found (by simp [Delivery.finished, pending]) (by simp)
      simpa [BrokerAction.published] using ⟨settled.unused, settled.waiting, settled.courses⟩
    | ackAgain => simpa [BrokerAction.published] using held
  | nack =>
    cases stepped_of_step stepped with
    | nack found pending =>
      simpa [BrokerAction.published] using
        held.settle found (by simp [Delivery.finished, pending]) (by simp)
    | nackAgain => simpa [BrokerAction.published] using held
  | runNack now =>
    cases stepped_of_step stepped with
    | runNack found running =>
      simpa [BrokerAction.published] using
        held.requeue now found (by simp [Delivery.finished, running])

end NumberedBroker

/-! ## Settlements -/

/-- The action settles the delivery, unless it is ignored. -/
def BrokerAction.settles (id : Nat) : BrokerAction Content → Bool
  | .ack other => other = id
  | .nack other => other = id
  | _ => false

/-- How often a delivery is settled. -/
def settlements (id : Nat) (events : List (BrokerAction Content × BrokerOutcome)) : Nat :=
  events.countP fun event => event.1.settles id && event.2 = .settled

/-- The delivery, if it was sent already, is not settled. -/
def InMemoryBroker.unsettled (broker : InMemoryBroker Content) (id : Nat) : Bool :=
  broker.deliveries[id]?.all fun delivery => delivery.state = .pending

section Settlements

variable {limits : BrokerLimits} {broker next : InMemoryBroker Content}

theorem unsettled_append {messages : List (Message Content)}
    (grown : next.deliveries = broker.deliveries ++ messages.map sent) (id : Nat) :
    next.unsettled id = broker.unsettled id := by
  rw [unsettled, unsettled, grown, getElem?_append]
  split
  · rfl
  · rename_i outside
    rw [getElem?_eq_none (not_lt.mp outside)]
    cases found : (messages.map sent)[id - broker.deliveries.length]? with
    | none => rfl
    | some =>
      obtain ⟨_, -, rfl⟩ := mem_map.mp (mem_of_getElem? found)
      rfl

theorem unsettled_setDelivery {id : Nat} {delivery settled : Delivery Content}
    (found : broker.deliveries[id]? = some delivery) (other : Nat) :
    (broker.setDelivery id settled).unsettled other =
      if id = other then decide (settled.state = .pending) else broker.unsettled other := by
  rw [unsettled, unsettled, setDelivery, getElem?_set]
  grind

theorem unsettled_countAcked (id : Nat) : broker.countAcked.unsettled id = broker.unsettled id := rfl

theorem unsettled_settle {target : Nat} {delivery : Delivery Content}
    (found : broker.deliveries[target]? = some delivery) (pending : delivery.state = .pending)
    (state : Settlement) (id : Nat) (settled : state ≠ .pending) :
    (decide (target = id)).toNat + ((broker.setDelivery target { delivery with state }).unsettled id).toNat ≤
      (broker.unsettled id).toNat := by
  rw [unsettled_setDelivery found]
  by_cases own : target = id
  · subst own
    simp [unsettled, found, pending, settled]
  · simp [own]

/-- What settles a delivery leaves it settled; nothing makes it unsettled again. -/
theorem step_settles {action : BrokerAction Content} {output : BrokerOutcome}
    (taken : (inMemoryBroker Content limits).step broker action = some (next, output)) (id : Nat) :
    (action.settles id && output = .settled).toNat + (next.unsettled id).toNat ≤
      (broker.unsettled id).toNat := by
  cases stepped_of_step taken with
  | @publish now message =>
    obtain ⟨messages, grown⟩ := publish_deliveries limits now broker message
    rw [unsettled_append grown]
    simp [settles]
  | @wake now task message found =>
    obtain ⟨_, grown⟩ := routeDeliveryNow_deliveries limits now
      { broker with delayed := broker.delayed.set task none } message
    have same := unsettled_append grown id
    rw [same]
    simp [settles, unsettled]
  | ack found pending =>
    rw [unsettled_countAcked]
    simpa [settles] using unsettled_settle found pending .acked id (by simp)
  | nack found pending =>
    simpa [settles] using unsettled_settle found pending (.nacked true) id (by simp)
  | ackAgain | nackAgain => simp
  | @runNack now target delivery found running =>
    rw [unsettled_append (requeueOrDeadLetter_deliveries limits now _ _),
      unsettled_setDelivery found]
    grind

/-- A delivery is settled at most once. -/
theorem run_settlements {events : List (BrokerAction Content × BrokerOutcome)}
    (run : (inMemoryBroker Content limits).Run broker events next) (id : Nat) :
    settlements id events + (next.unsettled id).toNat ≤ (broker.unsettled id).toNat := by
  induction run with
  | done => simp [settlements]
  | @step state middle final action output events taken rest ih =>
    have first := step_settles taken id
    have count : settlements id ((action, output) :: events) =
        settlements id events + (action.settles id && output = .settled).toNat := by
      rw [settlements, countP_cons, ← settlements]
      grind
    omega

end Settlements

/-- In every run a delivery is settled at most once, and a publish call that is not delayed
is within its bounds exactly when the copies of its message are nacked no more often than the
limit says. -/
theorem attempts_bounded_iff {limits : BrokerLimits}
    {events : List (BrokerAction Content × BrokerOutcome)} {final : InMemoryBroker Content}
    (run : (inMemoryBroker Content limits).Run .new events final) :
    (∀ id, settlements id events ≤ 1) ∧
    ∃ numbered : NumberedBroker Content,
      (numberedBroker Content limits).Run .new events numbered ∧ numbered.forget = final ∧
      ∀ publication now message, numbered.published[publication]? = some (now, message) →
        message.attempt = 0 → InMemoryBroker.isDelayed now message = false →
          (WithinBounds limits message (numbered.broker.course publication)
              (numbered.broker.records publication).length ↔
            Sparing limits message (numbered.broker.course publication)) := by
  constructor
  · intro id
    have once := run_settlements run id
    have bound := Bool.toNat_le ((InMemoryBroker.new : InMemoryBroker Content).unsettled id)
    omega
  · have start : (inMemoryBroker Content limits).Run NumberedBroker.new.forget events final := run
    obtain ⟨numbered, numberedRun, forgotten⟩ :=
      (Machine.run_forget_iff (numberedBroker_forget limits)).mp start
    refine ⟨numbered, numberedRun, forgotten, ?_⟩
    intro publication now message call unsent present
    have coursed : numbered.Coursed limits :=
      numberedRun.invariant NumberedBroker.new_coursed fun _ _ _ _ held taken => held.step taken
    exact (coursed.courses publication now message call unsent present).withinBounds_iff

/-! ### Copies that are nacked -/

namespace NackedCopies

def limits : BrokerLimits := .withDeadLetter "dead" 1

def order : Message Unit where
  topic := "orders"
  timestampMillis := 1
  partition := none
  offset := none
  attempt := 0
  deadLetterTopic := none
  idempotencyKey := none
  availableAtMillis := none
  content := ()

/-- The message is published, and the given deliveries are nacked one after another. -/
def actions (nacked : List Nat) : List (BrokerAction Unit) :=
  .publish 1 order :: nacked.flatMap fun id => [.nack id, .runNack 1 id]

end NackedCopies

open NackedCopies

/-- A message whose copies are nacked twice is given up twice: the second record says that it
was first published to the dead-letter topic. -/
theorem nacked_copies_given_up_again :
    ∃ events numbered,
      (numberedBroker Unit NackedCopies.limits).Run .new events numbered ∧
      events.map Prod.fst = NackedCopies.actions [0, 1, 2] ∧
      numbered.published[0]? = some (1, NackedCopies.order) ∧
      (numbered.broker.records 0).map DeadLetterRecord.originalTopic = ["orders", "dead"] ∧
      ¬ WithinBounds NackedCopies.limits NackedCopies.order (numbered.broker.course 0)
        (numbered.broker.records 0).length := by
  have evaluated : ((numberedBroker Unit limits).exec .new
      (actions [0, 1, 2])).map (fun result =>
        (result.1.published, (result.1.broker.records 0).map DeadLetterRecord.originalTopic,
          (onTopic order (result.1.broker.course 0)).map Delivery.finished)) =
      some ([(1, order)], ["orders", "dead"], [true]) := by
    decide +kernel
  obtain ⟨events, numbered, run, actions, same⟩ := Machine.exec_observed evaluated
  simp only [Prod.mk.injEq] at same
  obtain ⟨published, records, finished⟩ := same
  refine ⟨events, numbered, run, actions, ?_, records, ?_⟩
  · rw [published]
    rfl
  · intro within
    have limit : limits.maxAttempts.toNat = 1 := by decide +kernel
    have length : (onTopic order (numbered.broker.course 0)).length = 1 := by
      simpa using congrArg List.length finished
    have one := within.givenUp (length.trans limit.symm) ?_
    · have two := congrArg List.length records
      rw [length_map, one] at two
      cases two
    · intro delivery member
      have state := mem_map_of_mem (f := Delivery.finished) member
      rw [finished] at state
      exact mem_singleton.mp state

/-- Where its copy is nacked once, the message is given up once. -/
theorem attempts_bounded_iff_nacked_once :
    ∃ events final numbered,
      (inMemoryBroker Unit NackedCopies.limits).Run .new events final ∧
      events.map Prod.fst = NackedCopies.actions [0, 1] ∧
      (numberedBroker Unit NackedCopies.limits).Run .new events numbered ∧
      numbered.forget = final ∧ (∀ id, settlements id events ≤ 1) ∧
      WithinBounds NackedCopies.limits NackedCopies.order (numbered.broker.course 0)
        (numbered.broker.records 0).length := by
  have evaluated : ((numberedBroker Unit limits).exec .new
      (actions [0, 1])).map (fun result =>
        (result.1.published, nacks (copies order (result.1.broker.course 0)))) =
      some ([(1, order)], 1) := by
    decide +kernel
  obtain ⟨events, numbered, numberedRun, actions, same⟩ := Machine.exec_observed evaluated
  obtain ⟨published, once⟩ := Prod.mk.inj same
  have run : (inMemoryBroker Unit limits).Run .new events numbered.forget :=
    (Machine.run_forget_iff (numberedBroker_forget _)).mpr ⟨numbered, numberedRun, rfl⟩
  obtain ⟨settled, _, otherRun, _, bounded⟩ := attempts_bounded_iff run
  obtain rfl := numberedRun.unique otherRun
  have within := bounded 0 1 order (by rw [published]; rfl) rfl rfl
  refine ⟨events, numbered.forget, numbered, run, actions, numberedRun, rfl, settled, within.mpr ?_⟩
  have away : ¬ Returning limits order := by decide +kernel
  rw [Sparing, if_neg away, once]
  decide +kernel

end Roze.Mq
