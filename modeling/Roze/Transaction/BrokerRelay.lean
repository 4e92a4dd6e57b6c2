import Mathlib
import Roze.Context.Propagation
import Roze.Mq.AttemptBound
import Roze.Transaction.OutboxRelay

/-!
# The outbox relay over the in-memory broker

The relay turns a claimed message into an event message and publishes it. The attempts that
the store counted while relaying go along with it, and the broker goes on counting from there:
with the attempts used up, the publish call still returns without an error and the message is
marked as published, but it ends among the dead letters and is never sent on its topic.

Here workers, producers and the broker act in any order. The publish call of a worker may also
fail before it reaches the broker, as it does behind another publisher. Once the broker has
accepted a message it keeps it, so that what the relay marks as published is on its topic as long
as every message it offers has attempts left and a key that the broker has not seen, or has
been accepted before; a message offered otherwise is marked as published and not delivered.
-/

namespace Roze.Transaction

open Roze.Library Roze.Mq List

variable {Payload : Type}

/-! ## Event messages -/

/-- What an event message carries besides what the broker reads. -/
structure EventContent (Payload : Type) where
  eventId : String
  eventType : String
  version : UInt32
  schemaRevision : String
  key : Option String
  headers : Headers
  traceContext : Headers
  tenantId : Option String
  producer : String
  occurredAt : Int
  group : Option String
  payload : Payload

/-- What is generated for a message when it is made and when it is published. -/
structure Stamps where
  eventId : String
  occurredAt : Int
  traceId : String
  publishTraceId : String

def ensureTraceId (headers : Headers) (generated : String) : Headers :=
  if headers.values.any (fun header =>
      eqIgnoreAsciiCase header.1 Context.traceIdHeader && trim header.2 != "") then headers
  else headers.insert (Context.traceIdHeader, generated)

/-- Only the header with the trace id is written. -/
theorem get?_ensureTraceId {name : String} (other : Context.traceIdHeader ≠ name) (headers : Headers)
    (generated : String) :
    StringMap.get? (ensureTraceId headers generated) name = StringMap.get? headers name := by
  rw [ensureTraceId]
  split
  · rfl
  · rw [StringMap.get?_insert, if_neg other]

def OutboxMessage.toMqMessage (message : OutboxMessage Payload) (stamps : Stamps) :
    Message (EventContent Payload) where
  topic := message.topic
  timestampMillis := 0
  partition := none
  offset := none
  attempt := message.attempts
  deadLetterTopic := none
  idempotencyKey := some message.idempotencyKey
  availableAtMillis := message.nextAttemptMillis
  content :=
    { eventId := stamps.eventId
      eventType := message.topic
      version := 1
      schemaRevision := "1"
      key := message.key
      headers := ensureTraceId message.headers stamps.traceId
      traceContext := message.headers
      tenantId := none
      producer := "outbox"
      occurredAt := stamps.occurredAt
      group := none
      payload := message.payload }

/-- The message as the publish call routes it. -/
def OutboxMessage.published (message : OutboxMessage Payload) (stamps : Stamps) :
    Message (EventContent Payload) :=
  let made := message.toMqMessage stamps
  { made with content :=
      { made.content with headers := ensureTraceId made.content.headers stamps.publishTraceId } }

/-! ## The system -/

/-- The relay with its broker, and the messages that the relay marked as published. -/
structure BrokerRelay (Payload : Type) where
  relay : RelaySystem Payload
  broker : InMemoryBroker (EventContent Payload)
  marked : List (OutboxMessage Payload)

inductive BrokerRelayAction (Payload : Type) where
  /-- A step of the relay that does not reach the broker. -/
  | relay (action : RelayAction Payload)
  /-- A worker publishes its message through the broker. -/
  | offer (worker : Nat) (now : UInt64) (stamps : Stamps)
  /-- A step of the broker, or the call of another producer. -/
  | broker (action : BrokerAction (EventContent Payload))

/-- The message of the current round, with the answer once it is given. -/
def RelayWorker.current (worker : RelayWorker Payload) :
    Option (OutboxMessage Payload × Option (Except String Unit)) :=
  worker.remaining.head?.map (·, worker.answer)

def RelaySystem.current (system : RelaySystem Payload) (worker : Nat) :
    Option (OutboxMessage Payload × Option (Except String Unit)) :=
  (system.workers worker).bind RelayWorker.current

open RelaySystem

/-- The message that a step marks as published. -/
def RelaySystem.marks (system : RelaySystem Payload) :
    RelayAction Payload → List (OutboxMessage Payload)
  | .settle worker =>
      match system.current worker with
      | some (message, some (.ok ())) => [message]
      | _ => []
  | _ => []

namespace BrokerRelay

def step (limits : BrokerLimits) (system : BrokerRelay Payload) :
    BrokerRelayAction Payload → Option (BrokerRelay Payload)
  | .relay (.publish _ (.ok ())) => none
  | .relay action =>
      (system.relay.step action).map fun taken =>
        { system with relay := taken.1, marked := system.relay.marks action ++ system.marked }
  | .offer worker now stamps =>
      match system.relay.current worker with
      | some (message, none) =>
          (system.relay.step (.publish worker (.ok ()))).map fun taken =>
            { system with
              relay := taken.1
              broker := system.broker.publish limits now (message.published stamps) }
      | _ => none
  | .broker action =>
      ((inMemoryBroker _ limits).step system.broker action).map fun taken =>
        { system with broker := taken.1 }

/-- No worker is running. -/
def idle (outbox : InMemoryOutbox Payload) (broker : InMemoryBroker (EventContent Payload)) :
    BrokerRelay Payload :=
  ⟨.idle outbox, broker, []⟩

end BrokerRelay

/-- Workers, producers and the broker in any order. -/
def brokerRelay (Payload : Type) (limits : BrokerLimits) :
    Machine (BrokerRelay Payload) (BrokerRelayAction Payload) Unit where
  step system action := (system.step limits action).map (·, ())

/-! ## What the broker has accepted -/

/-- The broker sends a message with this number of attempts before. -/
def Remaining (limits : BrokerLimits) (attempts : UInt32) : Prop :=
  attempts < limits.maxAttempts ∨ limits.endless

instance (limits : BrokerLimits) (attempts : UInt32) : Decidable (Remaining limits attempts) :=
  inferInstanceAs (Decidable (_ ∨ _))

/-- What was sent is the message, on its own topic. -/
structure Carries (message : OutboxMessage Payload) (sent : Message (EventContent Payload)) :
    Prop where
  topic : sent.topic = message.topic
  idempotencyKey : sent.idempotencyKey = some message.idempotencyKey
  key : sent.content.key = message.key
  traceContext : sent.content.traceContext = message.headers
  payload : sent.content.payload = message.payload

/-- The message was sent to the subscribers of its topic, or waits to be sent there. -/
def Accepted (limits : BrokerLimits) (broker : InMemoryBroker (EventContent Payload))
    (message : OutboxMessage Payload) : Prop :=
  (∃ delivery ∈ broker.deliveries, Carries message delivery.message) ∨
    ∃ waiting, some waiting ∈ broker.delayed ∧ Carries message waiting ∧
      Remaining limits waiting.attempt

/-- The message has attempts left and a key that the broker has not seen, or the broker has
accepted it before. -/
def Deliverable (limits : BrokerLimits) (broker : InMemoryBroker (EventContent Payload))
    (message : OutboxMessage Payload) : Prop :=
  Accepted limits broker message ∨
    Remaining limits message.attempts ∧ message.idempotencyKey ∉ broker.seenIdempotencyKeys

section Broker

variable {limits : BrokerLimits} {broker next : InMemoryBroker (EventContent Payload)}
  {message : OutboxMessage Payload} {sent : Message (EventContent Payload)} {now : UInt64}

theorem exhausted_nextAttempt_iff :
    exhausted limits sent.nextAttempt = false ↔ Remaining limits sent.attempt := by
  have attempt : sent.attempt.toNat < 2 ^ 32 := sent.attempt.toNat_lt
  have counted : sent.nextAttempt.attempt.toNat = min (sent.attempt.toNat + 1) (2 ^ 32 - 1) :=
    saturatingAddU32_toNat sent.attempt 1
  rw [exhausted, decide_eq_false_iff_not, UInt32.lt_iff_toNat_lt, counted, Remaining,
    UInt32.lt_iff_toNat_lt, BrokerLimits.endless]
  omega

theorem Carries.nextAttempt (carries : Carries message sent) : Carries message sent.nextAttempt :=
  ⟨carries.topic, carries.idempotencyKey, carries.key, carries.traceContext, carries.payload⟩

theorem Carries.prepared (carries : Carries message sent) :
    Carries message (broker.prepareDeliveryMetadata now sent).1 := by
  simp only [InMemoryBroker.prepareDeliveryMetadata]
  split_ifs <;>
    exact ⟨carries.topic, carries.idempotencyKey, carries.key, carries.traceContext, carries.payload⟩

/-- Routing a message sends it when it has attempts left; otherwise, without a dead-letter topic
of its own, it sends nothing. -/
theorem routeDeliveryNow_sends (limits : BrokerLimits) (now : UInt64)
    (broker : InMemoryBroker (EventContent Payload)) (sent : Message (EventContent Payload)) :
    ∃ routed : Message (EventContent Payload),
      (∀ message : OutboxMessage Payload, Carries message sent → Carries message routed) ∧
      (Remaining limits sent.attempt →
        (broker.routeDeliveryNow limits now sent).deliveries = broker.deliveries ++ [Mq.sent routed]) ∧
      (¬ Remaining limits sent.attempt → sent.deadLetterTopic = none →
        (broker.routeDeliveryNow limits now sent).deliveries = broker.deliveries) := by
  obtain ⟨⟨-, attempt, carried, -⟩, deliveries, -, -⟩ :=
    InMemoryBroker.prepareDeliveryMetadata_keeps now broker sent
  refine ⟨(broker.prepareDeliveryMetadata now sent).1.nextAttempt,
    fun message carries => carries.prepared.nextAttempt, ?_, ?_⟩
  · intro remaining
    rw [InMemoryBroker.routeDeliveryNow, InMemoryBroker.deliver_deliveries, deliveries, forwarded,
      exhausted_nextAttempt_iff.mpr (attempt ▸ remaining)]
    rfl
  · intro used without
    have given : exhausted limits (broker.prepareDeliveryMetadata now sent).1.nextAttempt = true := by
      rw [← Bool.not_eq_false, exhausted_nextAttempt_iff, attempt]
      exact used
    have topic : (broker.prepareDeliveryMetadata now sent).1.nextAttempt.deadLetterTopic = none :=
      carried.trans without
    rw [InMemoryBroker.routeDeliveryNow, InMemoryBroker.deliver_deliveries, deliveries, forwarded,
      given, topic]
    exact append_nil _

/-- A broker that kept what it had sent, and kept or sent what was waiting, still has accepted
the message. -/
theorem Accepted.of_kept (accepted : Accepted limits broker message)
    (deliveries : ∀ delivery ∈ broker.deliveries, ∃ later ∈ next.deliveries,
      later.message = delivery.message)
    (delayed : ∀ waiting, some waiting ∈ broker.delayed → Carries message waiting →
      Remaining limits waiting.attempt → some waiting ∈ next.delayed ∨
        ∃ delivery ∈ next.deliveries, Carries message delivery.message) :
    Accepted limits next message := by
  rcases accepted with ⟨delivery, member, carries⟩ | ⟨waiting, member, carries, remaining⟩
  · obtain ⟨later, kept, same⟩ := deliveries delivery member
    exact .inl ⟨later, kept, same ▸ carries⟩
  · rcases delayed waiting member carries remaining with kept | gone
    · exact .inr ⟨waiting, kept, carries, remaining⟩
    · exact .inl gone

theorem exists_mem_append_sent {deliveries : List (Delivery (EventContent Payload))}
    {messages : List (Message (EventContent Payload))}
    (grown : next.deliveries = deliveries ++ messages.map Mq.sent) :
    ∀ delivery ∈ deliveries, ∃ later ∈ next.deliveries, later.message = delivery.message :=
  fun delivery member => ⟨delivery, grown ▸ mem_append_left _ member, rfl⟩

theorem exists_mem_setDelivery {id : Nat} {delivery : Delivery (EventContent Payload)}
    (settled : Delivery (EventContent Payload)) (found : broker.deliveries[id]? = some delivery)
    (same : settled.message = delivery.message) :
    ∀ old ∈ broker.deliveries, ∃ later ∈ (broker.setDelivery id settled).deliveries,
      later.message = old.message := by
  intro old member
  obtain ⟨index, inside, rfl⟩ := getElem_of_mem member
  have stays : index < (broker.deliveries.set id settled).length := by simpa using inside
  refine ⟨_, getElem_mem stays, ?_⟩
  grind

theorem publish_delayed (sent : Message (EventContent Payload)) {waiting : Message (EventContent Payload)}
    (member : some waiting ∈ broker.delayed) :
    some waiting ∈ (broker.publish limits now sent).delayed := by
  obtain ⟨-, -, delayed⟩ := InMemoryBroker.noteIdempotencyKey_keeps
    { broker with stats := { broker.stats with published := broker.stats.published + 1 } } sent
  rw [InMemoryBroker.publish, InMemoryBroker.routeDelivery]
  split
  · rwa [delayed]
  · split
    · simp_all
    · rwa [InMemoryBroker.routeDeliveryNow_delayed, delayed]

/-- A publish call keeps what was accepted. -/
theorem Accepted.publish (accepted : Accepted limits broker message)
    (sent : Message (EventContent Payload)) :
    Accepted limits (broker.publish limits now sent) message := by
  obtain ⟨_, grown⟩ := InMemoryBroker.publish_deliveries limits now broker sent
  exact accepted.of_kept (exists_mem_append_sent grown)
    fun waiting member _ _ => .inl (publish_delayed sent member)

/-- A broker never gives up a message that it has accepted.

A waiting message leaves the waiting ones only when its task sends it, and it has attempts left
for that. -/
theorem Accepted.step (accepted : Accepted limits broker message)
    {action : BrokerAction (EventContent Payload)} {outcome : BrokerOutcome}
    (taken : (inMemoryBroker _ limits).step broker action = some (next, outcome)) :
    Accepted limits next message := by
  cases stepped_of_step taken with
  | @publish now sent => exact accepted.publish sent
  | @wake now task woken found =>
    let rest := { broker with delayed := broker.delayed.set task none }
    obtain ⟨_, grown⟩ := InMemoryBroker.routeDeliveryNow_deliveries limits now rest woken
    obtain ⟨routed, carried, sends, -⟩ := routeDeliveryNow_sends limits now rest woken
    refine accepted.of_kept (exists_mem_append_sent grown) fun waiting member carries remaining => ?_
    obtain ⟨index, inside, here⟩ := getElem_of_mem member
    by_cases same : index = task
    · -- its own task is the one that wakes
      subst same
      have own : some (some woken) = some (some waiting) := by simp_all
      cases own
      refine .inr ⟨Mq.sent routed, ?_, carried message carries⟩
      grind
    · refine .inl ?_
      rw [InMemoryBroker.routeDeliveryNow_delayed]
      refine mem_iff_getElem?.mpr ⟨index, ?_⟩
      grind
  | ack found | nack found =>
    exact accepted.of_kept (exists_mem_setDelivery _ found rfl) fun _ member _ _ => .inl member
  | ackAgain | nackAgain => exact accepted
  | @runNack now id delivery found running =>
    have settled := accepted.of_kept
      (exists_mem_setDelivery { delivery with state := .nacked false } found rfl)
      fun _ member _ _ => .inl member
    refine settled.of_kept (exists_mem_append_sent
      (InMemoryBroker.requeueOrDeadLetter_deliveries limits now _ _)) fun waiting member _ _ => ?_
    exact .inl (by rwa [InMemoryBroker.requeueOrDeadLetter, InMemoryBroker.deliver_delayed])

/-- A publish call accepts a message exactly when it is deliverable. -/
theorem accepted_publish_iff (limits : BrokerLimits) (now : UInt64)
    (broker : InMemoryBroker (EventContent Payload)) (message : OutboxMessage Payload)
    (stamps : Stamps) :
    Accepted limits (broker.publish limits now (message.published stamps)) message ↔
      Deliverable limits broker message := by
  let counted :=
    { broker with stats := { broker.stats with published := broker.stats.published + 1 } }
  obtain ⟨deliveries, -, delayed⟩ :=
    InMemoryBroker.noteIdempotencyKey_keeps counted (message.published stamps)
  have duplicate : counted.isDuplicate (message.published stamps) = true ↔
      message.idempotencyKey ∈ broker.seenIdempotencyKeys := contains_iff_mem
  constructor
  · intro accepted
    by_cases before : Accepted limits broker message
    · exact .inl before
    rw [InMemoryBroker.publish, InMemoryBroker.routeDelivery] at accepted
    split at accepted
    · rw [Accepted, deliveries, delayed] at accepted
      exact absurd accepted before
    rename_i fresh
    refine .inr ⟨?_, fun seen => fresh (duplicate.mpr seen)⟩
    by_contra used
    refine before ?_
    split at accepted
    · rcases accepted with ⟨delivery, member, carries⟩ | ⟨waiting, member, carries, remaining⟩
      · exact .inl ⟨delivery, deliveries ▸ member, carries⟩
      · rcases mem_append.mp member with old | new
        · exact .inr ⟨waiting, delayed ▸ old, carries, remaining⟩
        · cases mem_singleton.mp new
          exact absurd remaining used
    · obtain ⟨-, -, -, silent⟩ := routeDeliveryNow_sends limits now
        (counted.noteIdempotencyKey (message.published stamps)) (message.published stamps)
      rw [Accepted, InMemoryBroker.routeDeliveryNow_delayed, silent used rfl, deliveries, delayed]
        at accepted
      exact accepted
  · rintro (accepted | ⟨remaining, fresh⟩)
    · exact accepted.publish _
    rw [InMemoryBroker.publish, InMemoryBroker.routeDelivery, if_neg (mt duplicate.mp fresh)]
    split
    · refine .inr ⟨_, mem_append_right _ (mem_singleton_self _), ?_, remaining⟩
      exact ⟨rfl, rfl, rfl, rfl, rfl⟩
    · obtain ⟨routed, carried, sends, -⟩ := routeDeliveryNow_sends limits now
        (counted.noteIdempotencyKey (message.published stamps)) (message.published stamps)
      refine .inl ⟨Mq.sent routed, ?_, carried message ⟨rfl, rfl, rfl, rfl, rfl⟩⟩
      rw [sends remaining]
      simp

end Broker

/-! ## Runs -/

/-- Every message that the relay marked as published was accepted by the broker. -/
def Delivered (limits : BrokerLimits) (system : BrokerRelay Payload) : Prop :=
  ∀ message ∈ system.marked, Accepted limits system.broker message

/-- The message that a worker offers is deliverable. -/
def OffersDeliverable (limits : BrokerLimits) (system : BrokerRelay Payload) :
    BrokerRelayAction Payload → Prop
  | .offer worker _ _ => ∀ message, system.relay.current worker = some (message, none) →
      Deliverable limits system.broker message
  | _ => True

/-- Marked messages are accepted, and so are those whose publish call returned without an
error. -/
structure Confirmed (limits : BrokerLimits) (system : BrokerRelay Payload) : Prop where
  marked : Delivered limits system
  answered : ∀ worker message, system.relay.current worker = some (message, some (.ok ())) →
    Accepted limits system.broker message

section Steps

variable {limits : BrokerLimits} {system next : BrokerRelay Payload}
  {relay after : RelaySystem Payload}

theorem RelaySystem.current_setWorker (relay : RelaySystem Payload) (changed worker : Nat)
    (state : Option (RelayWorker Payload)) :
    (relay.setWorker changed state).current worker =
      if worker = changed then state.bind RelayWorker.current else relay.current worker := by
  by_cases same : worker = changed
  · rw [if_pos same, RelaySystem.current, same, setWorker_self]
  · rw [if_neg same, RelaySystem.current, setWorker]
    dsimp only
    rw [Function.update_of_ne same]
    rfl

variable {action : RelayAction Payload}

/-- A worker has an answer without an error only from its own publish call. -/
theorem current_of_step {output : RelayOutput Payload}
    (taken : relay.step action = some (after, output)) {worker : Nat}
    {message : OutboxMessage Payload}
    (answered : after.current worker = some (message, some (.ok ()))) :
    relay.current worker = some (message, some (.ok ())) ∨
      action = .publish worker (.ok ()) ∧ relay.current worker = some (message, none) := by
  cases step_transition taken with
  | enqueued => exact .inl answered
  | started =>
    rw [current_setWorker] at answered
    split at answered
    · obtain ⟨_, -, unanswered⟩ := Option.map_eq_some_iff.mp answered
      cases unanswered
    · exact .inl answered
  | offered changed nowMillis config report current rest answer running =>
    rw [current_setWorker] at answered
    split at answered
    · rename_i same
      subst same
      cases answered
      exact .inr ⟨rfl, by rw [RelaySystem.current, running]; rfl⟩
    · exact .inl answered
  | settled changed nowMillis config report current rest =>
    rw [current_setWorker] at answered
    split at answered
    · cases rest <;> cases answered
    · exact .inl answered
  | finished | stopped =>
    rw [current_setWorker] at answered
    simp_all

theorem mem_marks {message : OutboxMessage Payload} (member : message ∈ relay.marks action) :
    ∃ worker, relay.current worker = some (message, some (.ok ())) := by
  cases action with
  | settle worker =>
    simp only [RelaySystem.marks] at member
    grind
  | _ => cases member

/-- A step that offers nothing but deliverable messages keeps marked messages accepted. -/
theorem Confirmed.step (confirmed : Confirmed limits system) {action : BrokerRelayAction Payload}
    (taken : system.step limits action = some next) (offers : OffersDeliverable limits system action) :
    Confirmed limits next := by
  cases action with
  | relay action =>
    have apart : ∀ worker, action ≠ .publish worker (.ok ()) := by
      rintro worker rfl
      cases taken
    rw [BrokerRelay.step] at taken
    · obtain ⟨⟨after, output⟩, stepped, rfl⟩ := Option.map_eq_some_iff.mp taken
      refine ⟨fun message member => ?_, fun worker message answered => ?_⟩
      · rcases mem_append.mp member with new | old
        · obtain ⟨worker, answered⟩ := mem_marks new
          exact confirmed.answered worker message answered
        · exact confirmed.marked message old
      · rcases current_of_step stepped answered with before | ⟨own, -⟩
        · exact confirmed.answered worker message before
        · exact absurd own (apart worker)
    · exact apart
  | offer worker now stamps =>
    rw [BrokerRelay.step] at taken
    split at taken
    · rename_i waits
      obtain ⟨⟨after, _⟩, stepped, rfl⟩ := Option.map_eq_some_iff.mp taken
      refine ⟨fun marked member => (confirmed.marked marked member).publish _, ?_⟩
      intro other answeredMessage answered
      rcases current_of_step stepped answered with before | ⟨own, current⟩
      · exact (confirmed.answered other answeredMessage before).publish _
      · cases own
        cases waits.symm.trans current
        exact (accepted_publish_iff limits now _ _ stamps).mpr (offers _ waits)
    · cases taken
  | broker =>
    obtain ⟨⟨_, _⟩, stepped, rfl⟩ := Option.map_eq_some_iff.mp taken
    exact ⟨fun message member => (confirmed.marked message member).step stepped,
      fun worker message answered => (confirmed.answered worker message answered).step stepped⟩

end Steps

/-- What the relay marks as published stays accepted in every run that offers nothing but
deliverable messages; and the message that a worker offers and marks as published is accepted
exactly when it was deliverable. -/
theorem relay_delivers_iff (limits : BrokerLimits) :
    (∀ (outbox : InMemoryOutbox Payload) (broker : InMemoryBroker (EventContent Payload))
      (events : List (BrokerRelayAction Payload × Unit)) (final : BrokerRelay Payload),
      (brokerRelay Payload limits).Run (.idle outbox broker) events final →
      (brokerRelay Payload limits).Along
        (fun system action _ _ => OffersDeliverable limits system action) (.idle outbox broker) events →
      (brokerRelay Payload limits).Throughout (Delivered limits) (.idle outbox broker) events) ∧
    ∀ (system : BrokerRelay Payload) (worker : Nat) (message : OutboxMessage Payload),
      system.relay.current worker = some (message, none) → ∀ (now : UInt64) (stamps : Stamps),
        ∃ final, (brokerRelay Payload limits).Run system
            [(.offer worker now stamps, ()), (.relay (.settle worker), ())] final ∧
          message ∈ final.marked ∧
          final.relay.outbox = system.relay.outbox.markPublished message.id ∧
          (Accepted limits final.broker message ↔ Deliverable limits system.broker message) := by
  constructor
  · intro outbox broker events final run offers before after state split reached
    rw [split] at offers
    have initial : Confirmed limits (.idle outbox broker) :=
      ⟨fun _ member => absurd member not_mem_nil, fun _ _ current => by cases current⟩
    have confirmed : Confirmed limits state := by
      refine reached.invariant_along offers.first initial ?_
      intro system action output next confirmed taken deliverable
      exact confirmed.step (Machine.of_map_unit taken) deliverable
    exact confirmed.marked
  · intro system worker message current now stamps
    obtain ⟨⟨nowMillis, config, report, remaining, _⟩, running, head⟩ :=
      Option.bind_eq_some_iff.mp current
    obtain ⟨first, found, same⟩ := Option.map_eq_some_iff.mp head
    cases same
    cases remaining with
    | nil => cases found
    | cons first rest =>
      cases found
      let offered : BrokerRelay Payload :=
        { system with
          relay := { system.relay with accepted := message.id :: system.relay.accepted }.setWorker
            worker (some ⟨nowMillis, config, report, message :: rest, some (.ok ())⟩)
          broker := system.broker.publish limits now (message.published stamps) }
      have answered : offered.relay.workers worker =
          some ⟨nowMillis, config, report, message :: rest, some (.ok ())⟩ := setWorker_self _ worker _
      have offer : (brokerRelay Payload limits).step system (.offer worker now stamps) =
          some (offered, ()) := by
        have stepped : system.relay.step (.publish worker (.ok ())) = some (_, _) :=
          step_publish running
        simp only [brokerRelay, BrokerRelay.step, current, stepped]
        rfl
      let settled : BrokerRelay Payload :=
        { offered with
          relay := { offered.relay with
            outbox := system.relay.outbox.markPublished message.id }.setWorker worker
              (some ⟨nowMillis, config, report.count (.ok ()), rest, none⟩)
          marked := message :: system.marked }
      have settle : (brokerRelay Payload limits).step offered (.relay (.settle worker)) =
          some (settled, ()) := by
        have stepped : offered.relay.step (.settle worker) = some (_, _) := step_settle answered
        have marks : offered.relay.marks (.settle worker) = [message] := by
          simp only [RelaySystem.marks, RelaySystem.current, answered]
          rfl
        simp only [brokerRelay, BrokerRelay.step, stepped, marks]
        rfl
      exact ⟨settled, .step offer (.single settle), mem_cons_self, rfl,
        accepted_publish_iff limits now _ _ stamps⟩

/-- A message fails to relay three times and is published then: the store has it as published,
but its attempts are used up and the broker gave it up. -/
theorem relayed_message_given_up :
    ∃ (events : List (BrokerRelayAction Unit × Unit)) (final : BrokerRelay Unit),
      (brokerRelay Unit .new).Run (.idle (KeyedMap.empty _) .new) events final ∧
      (final.relay.outbox.find? "msg-1").map OutboxMessage.status = some .published ∧
      final.marked.map OutboxMessage.id = ["msg-1"] ∧
      final.broker.deliveries = [] ∧ final.broker.delayed = [] ∧
      final.broker.deadLetters.map (fun record => (record.originalTopic, record.reason)) =
        [("orders", "max_attempts_exceeded")] ∧
      ¬ Delivered .new final := by
  let refused (now : UInt64) : List (BrokerRelayAction Unit) :=
    [.relay (.start 0 now .default), .relay (.publish 0 (.error "broker unavailable")),
      .relay (.settle 0), .relay (.finish 0)]
  let actions : List (BrokerRelayAction Unit) :=
    .relay (.enqueue (.new "msg-1" "orders" "order-1" ())) ::
      (refused 0 ++ refused 10000 ++ refused 20000 ++
        [.relay (.start 0 30000 .default), .offer 0 30000 ⟨"event-1", 30000, "trace-1", "trace-2"⟩,
          .relay (.settle 0), .relay (.finish 0)])
  have observed : ((brokerRelay Unit .new).exec (.idle (KeyedMap.empty _) .new) actions).map
      (fun result =>
        ((result.1.relay.outbox.find? "msg-1").map OutboxMessage.status,
          result.1.marked.map OutboxMessage.id,
          result.1.broker.deliveries.isEmpty && result.1.broker.delayed.isEmpty,
          result.1.broker.deadLetters.map (fun record => (record.originalTopic, record.reason)))) =
      some (some .published, ["msg-1"], true, [("orders", "max_attempts_exceeded")]) := by
    decide +kernel
  obtain ⟨events, final, run, _, seen⟩ := Machine.exec_observed observed
  simp only [Prod.mk.injEq, Bool.and_eq_true, List.isEmpty_iff] at seen
  obtain ⟨status, marked, ⟨deliveries, delayed⟩, deadLetters⟩ := seen
  refine ⟨events, final, run, status, marked, deliveries, delayed, deadLetters, ?_⟩
  intro delivered
  obtain ⟨message, member, -⟩ : ∃ message ∈ final.marked, message.id = "msg-1" := by
    rw [← mem_map, marked]
    exact mem_singleton_self _
  rcases delivered message member with ⟨_, sent, -⟩ | ⟨_, waits, -⟩
  · exact List.ne_nil_of_mem sent deliveries
  · exact List.ne_nil_of_mem waits delayed

/-- The offer of a message with attempts left and a new key passes the check of its step. -/
def offersFresh (limits : BrokerLimits) (system : BrokerRelay Payload) :
    BrokerRelayAction Payload → Bool
  | .offer worker _ _ => (system.relay.current worker).all fun (message, _) =>
      decide (Remaining limits message.attempts) &&
        !system.broker.seenIdempotencyKeys.contains message.idempotencyKey
  | _ => true

/-- A message that was refused once is still deliverable: it is published and marked, and a
subscriber that nacks it does not change that it was accepted. -/
theorem relay_delivers_iff_refused_once :
    (∃ (events : List (BrokerRelayAction Unit × Unit)) (final : BrokerRelay Unit),
      (brokerRelay Unit .new).Run (.idle (KeyedMap.empty _) .new) events final ∧
      final.marked.map OutboxMessage.id = ["msg-1"] ∧
      (brokerRelay Unit .new).Throughout (Delivered .new) (.idle (KeyedMap.empty _) .new) events) ∧
    let message : OutboxMessage Unit := .new "msg-2" "orders" "order-2" ()
    let holding : BrokerRelay Unit :=
      ⟨⟨KeyedMap.empty _, fun _ => some ⟨0, .default, ⟨0, 0⟩, [message], none⟩, []⟩, .new, []⟩
    ∃ events final, (brokerRelay Unit .new).Run holding events final ∧
      Accepted .new final.broker message := by
  let actions : List (BrokerRelayAction Unit) :=
    [.relay (.enqueue (.new "msg-1" "orders" "order-1" ())), .relay (.start 0 0 .default),
      .relay (.publish 0 (.error "broker unavailable")), .relay (.settle 0), .relay (.finish 0),
      .relay (.start 0 10000 .default), .offer 0 10000 ⟨"event-1", 10000, "trace-1", "trace-2"⟩,
      .relay (.settle 0), .relay (.finish 0), .broker (.nack 0), .broker (.runNack 11000 0)]
  have observed : ((brokerRelay Unit .new).exec (.idle (KeyedMap.empty _) .new) actions).map
      (fun result => result.1.marked.map OutboxMessage.id) = some ["msg-1"] := by decide +kernel
  obtain ⟨⟨final, events⟩, executed, marked⟩ := Option.map_eq_some_iff.mp observed
  have checked : (brokerRelay Unit .new).Along
      (fun system action _ _ => offersFresh .new system action = true) (.idle (KeyedMap.empty _) .new)
      events := Machine.along_of_checks executed (by decide +kernel)
  have run := Machine.exec_run executed
  refine ⟨⟨events, final, run, marked, (relay_delivers_iff .new).1 _ _ events final run ?_⟩, ?_⟩
  · intro before action output after state next split reached taken
    have fresh := checked before action output after state next split reached taken
    cases action with
    | offer =>
      intro message current
      simp only [offersFresh, current, Option.all_some, Bool.and_eq_true, decide_eq_true_eq,
        Bool.not_eq_true', contains_eq_mem, decide_eq_false_iff_not] at fresh
      exact .inr fresh
    | _ => trivial
  · intro message holding
    obtain ⟨last, offered, -, -, accepted⟩ := (relay_delivers_iff .new).2 holding 0 message rfl 0
      ⟨"event-1", 0, "trace-1", "trace-2"⟩
    exact ⟨_, last, offered, accepted.mpr (.inr (by decide))⟩

end Roze.Transaction
