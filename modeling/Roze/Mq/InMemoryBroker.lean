import Mathlib
import Roze.Library.Execution
import Roze.Library.MachineInteger

/-!
# The in-memory broker

A published message is sent as a delivery on its topic. A delivery is settled once, over
all its clones: acknowledged, or not, and then its message is sent again with the next
attempt number, or goes to the dead letters when the attempts are used up, with a copy to
the dead-letter topic.

A delivery is identified by its place in the list of everything sent so far; whether and
when subscribers receive and settle it is up to the run. A call that settles a delivery
negatively has two steps, the settlement and what follows from it, and other calls may come
between them. What the broker carries along unread of a message is its content.
-/

namespace Roze.Mq

open Roze.Library

/-- A message. Its content is whatever the broker does not read. -/
structure Message (Content : Type) where
  topic : String
  timestampMillis : UInt64
  partition : Option Int
  offset : Option Int
  attempt : UInt32
  deadLetterTopic : Option String
  idempotencyKey : Option String
  availableAtMillis : Option UInt64
  content : Content
deriving DecidableEq, Repr

/-- The message of the next attempt. -/
def Message.nextAttempt {Content : Type} (message : Message Content) : Message Content :=
  { message with attempt := saturatingAddU32 message.attempt 1 }

/-- The call that nacked a delivery is running until it has sent the message again or given
it up. -/
inductive Settlement where
  | pending
  | acked
  | nacked (running : Bool)
deriving DecidableEq, Repr

/-- A delivery, with all its clones. -/
structure Delivery (Content : Type) where
  message : Message Content
  state : Settlement
deriving DecidableEq, Repr

/-- A message that was given up, with the reason. -/
structure DeadLetterRecord (Content : Type) where
  id : UInt64
  originalTopic : String
  reason : String
  failedAtMillis : UInt64
  replayCount : UInt32
  message : Message Content
deriving DecidableEq, Repr

/-- The counters of a broker. -/
structure MqStats where
  published : UInt64
  delivered : UInt64
  acked : UInt64
  nacked : UInt64
  duplicated : UInt64
  deadLettered : UInt64
deriving DecidableEq, Repr

/-- What a broker is made with. -/
structure BrokerLimits where
  deadLetterTopic : Option String
  maxAttempts : UInt32
  positive : 1 ≤ maxAttempts

namespace BrokerLimits

/-- The limits of `InMemoryBroker::new`. -/
def new : BrokerLimits := ⟨none, 3, by decide⟩

/-- A dead-letter topic, and at least one attempt. -/
def withDeadLetter (deadLetterTopic : String) (maxAttempts : UInt32) : BrokerLimits where
  deadLetterTopic := some deadLetterTopic
  maxAttempts := max maxAttempts 1
  positive := by
    change 1 ≤ if maxAttempts ≤ 1 then 1 else maxAttempts
    grind

variable {Content : Type}

/-- The dead-letter topic of a message, or else of the broker. -/
def deadLetterTopicOf (limits : BrokerLimits) (message : Message Content) : Option String :=
  message.deadLetterTopic.or limits.deadLetterTopic

end BrokerLimits

/-- The state of a broker. -/
structure InMemoryBroker (Content : Type) where
  deliveries : List (Delivery Content)
  /-- The tasks that wait for messages to become available; `none` has ended. -/
  delayed : List (Option (Message Content))
  topicOffsets : String → Int
  deadLetters : List (DeadLetterRecord Content)
  seenIdempotencyKeys : List String
  nextDeadLetterId : UInt64
  stats : MqStats

open InMemoryBroker

namespace InMemoryBroker

variable {Content : Type}

/-- A broker to which nothing was published. -/
def new : InMemoryBroker Content where
  deliveries := []
  delayed := []
  topicOffsets _ := 0
  deadLetters := []
  seenIdempotencyKeys := []
  nextDeadLetterId := 1
  stats := ⟨0, 0, 0, 0, 0, 0⟩

variable (limits : BrokerLimits) (now : UInt64) (broker : InMemoryBroker Content)

/-- Send a message on its topic. -/
def send (message : Message Content) : InMemoryBroker Content :=
  { broker with deliveries := broker.deliveries ++ [⟨message, .pending⟩] }

/-- One more message is delivered. -/
def countDelivered : InMemoryBroker Content :=
  { broker with stats := { broker.stats with delivered := broker.stats.delivered + 1 } }

/-- One more delivery is acknowledged. -/
def countAcked : InMemoryBroker Content :=
  { broker with stats := { broker.stats with acked := broker.stats.acked + 1 } }

/-- Give a message up, under the next number. -/
def pushDeadLetter (message : Message Content) (reason : String) : InMemoryBroker Content :=
  { broker with
    deadLetters := broker.deadLetters ++
      [⟨broker.nextDeadLetterId, message.topic, reason, now, 0, message⟩]
    nextDeadLetterId := broker.nextDeadLetterId + 1
    stats := { broker.stats with deadLettered := broker.stats.deadLettered + 1 } }

/-- The timestamp, partition and offset of a message that has none. -/
def prepareDeliveryMetadata (message : Message Content) :
    Message Content × InMemoryBroker Content :=
  let message := if message.timestampMillis = 0 then { message with timestampMillis := now } else message
  let message := if message.partition.isNone then { message with partition := some 0 } else message
  if message.offset.isNone then
    let offset := broker.topicOffsets message.topic
    ({ message with offset := some offset },
      { broker with
        topicOffsets := Function.update broker.topicOffsets message.topic
          (min (offset + 1) (2 ^ 63 - 1)) })
  else (message, broker)

/-- The copy of a given-up message for a dead-letter topic. -/
def deadLetterCopy (message : Message Content) (topic : String) : Message Content :=
  { message with topic, attempt := 0 }

/-- The end of both ways to a delivery: send a message, or give it up when its attempts are
used up, with a copy to a dead-letter topic. -/
def deliver (message : Message Content) (deadLetterTopic : Option String) (reason : String) :
    InMemoryBroker Content :=
  if limits.maxAttempts < message.attempt then
    let broker := broker.pushDeadLetter now message reason
    match deadLetterTopic with
    | none => broker
    | some topic => broker.send (deadLetterCopy message topic)
  else (broker.send message).countDelivered

/-- The next attempt of a message that is available. -/
def routeDeliveryNow (message : Message Content) : InMemoryBroker Content :=
  let (message, broker) := broker.prepareDeliveryMetadata now message
  let message := message.nextAttempt
  broker.deliver limits now message message.deadLetterTopic "max_attempts_exceeded"

/-- Whether the idempotency key of a message was seen before. -/
def isDuplicate (message : Message Content) : Bool :=
  match message.idempotencyKey with
  | none => false
  | some key => broker.seenIdempotencyKeys.contains key

/-- What the check for duplicates leaves behind. -/
def noteIdempotencyKey (message : Message Content) : InMemoryBroker Content :=
  match message.idempotencyKey with
  | none => broker
  | some key =>
    if broker.seenIdempotencyKeys.contains key then
      { broker with stats := { broker.stats with duplicated := broker.stats.duplicated + 1 } }
    else { broker with seenIdempotencyKeys := key :: broker.seenIdempotencyKeys }

/-- The message is not available yet. -/
def isDelayed (message : Message Content) : Bool :=
  match message.availableAtMillis with
  | none => false
  | some availableAt => now < availableAt

/-- Drop a duplicate, let a delayed message wait, deliver any other. -/
def routeDelivery (message : Message Content) : InMemoryBroker Content :=
  let duplicate := broker.isDuplicate message
  let broker := broker.noteIdempotencyKey message
  if duplicate then broker
  else if isDelayed now message then
    { broker with delayed := broker.delayed ++ [some { message with availableAtMillis := none }] }
  else broker.routeDeliveryNow limits now message

/-- Count a message and route it. -/
def publish (message : Message Content) : InMemoryBroker Content :=
  { broker with stats := { broker.stats with published := broker.stats.published + 1 } }.routeDelivery
    limits now message

/-- The next attempt of a message that was not acknowledged. -/
def requeueOrDeadLetter (message : Message Content) : InMemoryBroker Content :=
  let broker := { broker with stats := { broker.stats with nacked := broker.stats.nacked + 1 } }
  let next := message.nextAttempt
  broker.deliver limits now next (limits.deadLetterTopicOf next) "nack_max_attempts_exceeded"

/-- Settle a delivery. -/
def setDelivery (id : Nat) (delivery : Delivery Content) : InMemoryBroker Content :=
  { broker with deliveries := broker.deliveries.set id delivery }

end InMemoryBroker

/-- The calls to a broker, and the steps of the tasks and calls that are under way. -/
inductive BrokerAction (Content : Type) where
  | publish (now : UInt64) (message : Message Content)
  | wake (now : UInt64) (task : Nat)
  | ack (id : Nat)
  | nack (id : Nat)
  | runNack (now : UInt64) (id : Nat)

/-- What a step does: it routes, it settles, or a delivery was settled before. -/
inductive BrokerOutcome where
  | routed
  | settled
  | ignored
deriving DecidableEq, Repr

/-- The broker under any order of calls. -/
def inMemoryBroker (Content : Type) (limits : BrokerLimits) :
    Machine (InMemoryBroker Content) (BrokerAction Content) BrokerOutcome where
  step broker
    | .publish now message => some (broker.publish limits now message, .routed)
    | .wake now task =>
      match broker.delayed[task]? with
      | some (some message) =>
        some ({ broker with delayed := broker.delayed.set task none }.routeDeliveryNow limits now
          message, .routed)
      | _ => none
    | .ack id =>
      match broker.deliveries[id]? with
      | none => none
      | some delivery =>
        if delivery.state = .pending then
          some ((broker.setDelivery id { delivery with state := .acked }).countAcked, .settled)
        else some (broker, .ignored)
    | .nack id =>
      match broker.deliveries[id]? with
      | none => none
      | some delivery =>
        if delivery.state = .pending then
          some (broker.setDelivery id { delivery with state := .nacked true }, .settled)
        else some (broker, .ignored)
    | .runNack now id =>
      match broker.deliveries[id]? with
      | none => none
      | some delivery =>
        if delivery.state = .nacked true then
          some ((broker.setDelivery id { delivery with state := .nacked false }).requeueOrDeadLetter
            limits now delivery.message, .routed)
        else none

/-- What a step of the broker can be. A delivery that is settled again is left as it is. -/
inductive Stepped {Content : Type} (limits : BrokerLimits) (broker : InMemoryBroker Content) :
    BrokerAction Content → InMemoryBroker Content → BrokerOutcome → Prop
  | publish {now : UInt64} {message : Message Content} :
      Stepped limits broker (.publish now message) (broker.publish limits now message) .routed
  | wake {now : UInt64} {task : Nat} {message : Message Content}
      (found : broker.delayed[task]? = some (some message)) :
      Stepped limits broker (.wake now task)
        ({ broker with delayed := broker.delayed.set task none }.routeDeliveryNow limits now message)
        .routed
  | ack {id : Nat} {delivery : Delivery Content} (found : broker.deliveries[id]? = some delivery)
      (pending : delivery.state = .pending) :
      Stepped limits broker (.ack id)
        (broker.setDelivery id { delivery with state := .acked }).countAcked .settled
  | ackAgain {id : Nat} : Stepped limits broker (.ack id) broker .ignored
  | nack {id : Nat} {delivery : Delivery Content} (found : broker.deliveries[id]? = some delivery)
      (pending : delivery.state = .pending) :
      Stepped limits broker (.nack id)
        (broker.setDelivery id { delivery with state := .nacked true }) .settled
  | nackAgain {id : Nat} : Stepped limits broker (.nack id) broker .ignored
  | runNack {now : UInt64} {id : Nat} {delivery : Delivery Content}
      (found : broker.deliveries[id]? = some delivery) (running : delivery.state = .nacked true) :
      Stepped limits broker (.runNack now id)
        ((broker.setDelivery id { delivery with state := .nacked false }).requeueOrDeadLetter limits now
          delivery.message) .routed

/-- Every step is one of these. -/
theorem stepped_of_step {Content : Type} {limits : BrokerLimits} {broker next : InMemoryBroker Content}
    {action : BrokerAction Content} {output : BrokerOutcome}
    (taken : (inMemoryBroker Content limits).step broker action = some (next, output)) :
    Stepped limits broker action next output := by
  cases action with
  | publish =>
    cases taken
    exact .publish
  | wake =>
    simp only [inMemoryBroker] at taken
    split at taken
    · rename_i found
      cases taken
      exact .wake found
    · cases taken
  | ack =>
    simp only [inMemoryBroker] at taken
    split at taken
    · cases taken
    · rename_i found
      split at taken
      · rename_i pending
        cases taken
        exact .ack found pending
      · cases taken
        exact .ackAgain
  | nack =>
    simp only [inMemoryBroker] at taken
    split at taken
    · cases taken
    · rename_i found
      split at taken
      · rename_i pending
        cases taken
        exact .nack found pending
      · cases taken
        exact .nackAgain
  | runNack =>
    simp only [inMemoryBroker] at taken
    split at taken
    · cases taken
    · rename_i found
      obtain ⟨running, built⟩ := of_guard taken
      cases built
      exact .runNack found running

/-! ## Contents are carried along

The broker treats all contents alike: renaming them before a step is the same as renaming
them after it. -/

section Renaming

variable {Content Renamed : Type} (rename : Content → Renamed)

/-- The message with its content renamed. -/
def Message.map (message : Message Content) : Message Renamed :=
  { message with content := rename message.content }

/-- The delivery with its content renamed. -/
def Delivery.map (delivery : Delivery Content) : Delivery Renamed :=
  { delivery with message := delivery.message.map rename }

/-- The record with its content renamed. -/
def DeadLetterRecord.map (record : DeadLetterRecord Content) : DeadLetterRecord Renamed :=
  { record with message := record.message.map rename }

/-- The broker with all contents renamed. -/
def InMemoryBroker.map (broker : InMemoryBroker Content) : InMemoryBroker Renamed :=
  { broker with
    deliveries := broker.deliveries.map (Delivery.map rename)
    delayed := broker.delayed.map (Option.map (Message.map rename))
    deadLetters := broker.deadLetters.map (DeadLetterRecord.map rename) }

/-- The call with its content renamed. -/
def BrokerAction.map : BrokerAction Content → BrokerAction Renamed
  | .publish now message => .publish now (message.map rename)
  | .wake now task => .wake now task
  | .ack id => .ack id
  | .nack id => .nack id
  | .runNack now id => .runNack now id

namespace InMemoryBroker

variable (limits : BrokerLimits) (now : UInt64) (broker : InMemoryBroker Content)
  (message : Message Content)

/-- Sending a renamed message. -/
theorem map_send : (broker.send message).map rename = (broker.map rename).send (message.map rename) := by
  simp [send, map, Delivery.map]

/-- Giving a renamed message up. -/
theorem map_pushDeadLetter (reason : String) :
    (broker.pushDeadLetter now message reason).map rename =
      (broker.map rename).pushDeadLetter now (message.map rename) reason := by
  simp [pushDeadLetter, map, DeadLetterRecord.map, Message.map]

/-- No part of the delivery metadata depends on the content. -/
theorem map_prepareDeliveryMetadata :
    ((broker.map rename).prepareDeliveryMetadata now (message.map rename)) =
      (((broker.prepareDeliveryMetadata now message).1.map rename),
        ((broker.prepareDeliveryMetadata now message).2.map rename)) := by
  obtain ⟨_, timestamp, part, offset, _, _, _, _, _⟩ := message
  by_cases unset : timestamp = 0 <;> cases part <;> cases offset <;>
    simp [prepareDeliveryMetadata, map, Message.map, unset]

/-- Nor does what becomes of a message. -/
theorem map_deliver (deadLetterTopic : Option String) (reason : String) :
    (broker.deliver limits now message deadLetterTopic reason).map rename =
      (broker.map rename).deliver limits now (message.map rename) deadLetterTopic reason := by
  have attempt : (message.map rename).attempt = message.attempt := rfl
  rw [deliver, deliver, attempt]
  split
  · cases deadLetterTopic with
    | none => exact map_pushDeadLetter rename now broker message reason
    | some =>
      rw [map_send, map_pushDeadLetter]
      rfl
  · exact congrArg countDelivered (map_send rename broker message)

/-- Routing a renamed message. -/
theorem map_routeDeliveryNow :
    (broker.routeDeliveryNow limits now message).map rename =
      (broker.map rename).routeDeliveryNow limits now (message.map rename) := by
  simp only [routeDeliveryNow, map_prepareDeliveryMetadata]
  exact map_deliver rename limits now _ _ _ _

/-- Settling a renamed message negatively. -/
theorem map_requeueOrDeadLetter :
    (broker.requeueOrDeadLetter limits now message).map rename =
      (broker.map rename).requeueOrDeadLetter limits now (message.map rename) :=
  map_deliver rename limits now _ _ _ _

/-- The keys are not contents. -/
theorem map_noteIdempotencyKey :
    (broker.noteIdempotencyKey message).map rename =
      (broker.map rename).noteIdempotencyKey (message.map rename) := by
  simp only [noteIdempotencyKey, Message.map]
  cases message.idempotencyKey with
  | none => rfl
  | some =>
    have seen : (broker.map rename).seenIdempotencyKeys = broker.seenIdempotencyKeys := rfl
    simp only [seen]
    split <;> rfl

/-- Routing with the checks for duplicates and delays. -/
theorem map_routeDelivery :
    (broker.routeDelivery limits now message).map rename =
      (broker.map rename).routeDelivery limits now (message.map rename) := by
  have duplicate : (broker.map rename).isDuplicate (message.map rename) = broker.isDuplicate message :=
    rfl
  have delayed : isDelayed now (message.map rename) = isDelayed now message := rfl
  simp only [routeDelivery, duplicate, delayed, ← map_noteIdempotencyKey]
  split
  · rfl
  · split
    · simp [map, Message.map]
    · exact map_routeDeliveryNow rename limits now _ _

/-- Publishing a renamed message. -/
theorem map_publish :
    (broker.publish limits now message).map rename =
      (broker.map rename).publish limits now (message.map rename) :=
  map_routeDelivery rename limits now _ _

/-- Settling a renamed delivery. -/
theorem map_setDelivery (id : Nat) (delivery : Delivery Content) :
    (broker.setDelivery id delivery).map rename =
      (broker.map rename).setDelivery id (delivery.map rename) := by
  simp [setDelivery, map]

end InMemoryBroker

open InMemoryBroker

/-- A step with renamed contents is the renamed step. -/
theorem inMemoryBroker_map (limits : BrokerLimits) (broker : InMemoryBroker Content)
    (action : BrokerAction Content) :
    (inMemoryBroker Renamed limits).step (broker.map rename) (action.map rename) =
      ((inMemoryBroker Content limits).step broker action).map
        (fun taken => (taken.1.map rename, taken.2)) := by
  have deliveries (id : Nat) :
      (broker.map rename).deliveries[id]? = broker.deliveries[id]?.map (Delivery.map rename) := by
    simp [map]
  cases action with
  | publish =>
    simp only [BrokerAction.map, inMemoryBroker, Option.map_some, map_publish]
  | wake now task =>
    have delayed : (broker.map rename).delayed[task]? =
        broker.delayed[task]?.map (Option.map (Message.map rename)) := by
      simp [map]
    simp only [BrokerAction.map, inMemoryBroker, delayed]
    rcases broker.delayed[task]? with _ | _ | _
    · rfl
    · rfl
    · simp only [Option.map_some, map_routeDeliveryNow]
      simp [map]
  | ack id =>
    simp only [BrokerAction.map, inMemoryBroker, deliveries]
    cases broker.deliveries[id]? with
    | none => rfl
    | some delivery =>
      simp only [Option.map_some, Delivery.map]
      split
      · simp only [Option.map_some, Option.some.injEq, Prod.mk.injEq, and_true]
        exact congrArg countAcked
          (map_setDelivery rename broker id { delivery with state := .acked }).symm
      · rfl
  | nack id =>
    simp only [BrokerAction.map, inMemoryBroker, deliveries]
    cases broker.deliveries[id]? with
    | none => rfl
    | some =>
      simp only [Option.map_some, Delivery.map]
      split
      · simp only [Option.map_some, map_setDelivery]
        rfl
      · rfl
  | runNack now id =>
    simp only [BrokerAction.map, inMemoryBroker, deliveries]
    cases broker.deliveries[id]? with
    | none => rfl
    | some =>
      simp only [Option.map_some, Delivery.map]
      split
      · simp only [Option.map_some, map_requeueOrDeadLetter,
          map_setDelivery]
        rfl
      · rfl

end Renaming

end Roze.Mq
