import Roze.Eventbus.Envelope
import Roze.Transaction.BrokerRelay

/-!
# Messages on NATS

A message of the queue is sent as the event that it carries, with the fields of the event among the
headers. The receiver makes an event of the headers again, and a message of that event.
-/

namespace Roze.Nats

open Roze.Library Roze.Eventbus Roze.Mq Roze.Transaction

variable {Payload : Type}

/-! ## Messages of the queue and events -/

def intoEventEnvelope (message : Message (EventContent Payload)) : EventEnvelope Payload where
  eventId := message.content.eventId
  eventType := message.content.eventType
  version := message.content.version
  schemaRevision := message.content.schemaRevision
  topic := message.topic
  key := message.content.key
  headers := message.content.headers
  traceContext := message.content.traceContext
  tenantId := message.content.tenantId
  idempotencyKey := message.idempotencyKey
  producer := message.content.producer
  attempt := message.attempt
  occurredAt := message.content.occurredAt
  payload := message.content.payload

def fromEventEnvelope (nowMillis : UInt64) (event : EventEnvelope Payload) :
    Message (EventContent Payload) where
  topic := event.topic
  timestampMillis := nowMillis
  partition := none
  offset := none
  attempt := event.attempt
  deadLetterTopic := none
  idempotencyKey := event.idempotencyKey
  availableAtMillis := none
  content :=
    { eventId := event.eventId
      eventType := event.eventType
      version := event.version
      schemaRevision := event.schemaRevision
      key := event.key
      headers := event.transportHeaders
      traceContext := event.traceContext
      tenantId := event.tenantId
      producer := event.producer
      occurredAt := event.occurredAt
      group := none
      payload := event.payload }

/-- An event that becomes a message and an event again has its transport headers. -/
theorem intoEventEnvelope_fromEventEnvelope (nowMillis : UInt64) (event : EventEnvelope Payload) :
    intoEventEnvelope (fromEventEnvelope nowMillis event) =
      { event with headers := event.transportHeaders } := rfl

/-! ## Messages of NATS -/

structure NatsMessage (Payload : Type) where
  subject : String
  replyTo : Option String
  headers : StringMap
  payload : Payload

namespace NatsMessage

def fromEvent (event : EventEnvelope Payload) : NatsMessage Payload where
  subject := event.topic
  replyTo := none
  headers := event.transportHeaders
  payload := event.payload

def ensureTraceId (message : NatsMessage Payload) (generated : String) : NatsMessage Payload :=
  { message with headers := Transaction.ensureTraceId message.headers generated }

end NatsMessage

/-- What is generated when a message is received: an id and the time of an event, and the time of the
message. -/
structure Receipt where
  stamps : Eventbus.Stamps
  nowMillis : UInt64

/-- The message of the queue; the headers are given in the order in which they are read. -/
def toMqMessage (receipt : Receipt) (message : NatsMessage Payload) (entries : List (String × String))
    (attempt : UInt32) : Message (EventContent Payload) :=
  fromEventEnvelope receipt.nowMillis
    (.fromTransport receipt.stamps message.subject message.payload none entries attempt)

def fromMqMessage (message : Message (EventContent Payload)) : NatsMessage Payload :=
  .fromEvent (intoEventEnvelope message)

/-- An event is sent over NATS and received. -/
def Forwards (event next : EventEnvelope Payload) : Prop :=
  ∃ receipt entries attempt, entries.Perm (NatsMessage.fromEvent event).headers.values ∧
    next = intoEventEnvelope (toMqMessage receipt (.fromEvent event) entries attempt)

/-- What is received keeps the identity, and is unambiguous again. -/
theorem Forwards.kept {event next : EventEnvelope Payload} (forwards : Forwards event next)
    (nonBlank : event.identity.NonBlank) (clear : event.Unambiguous) :
    next.identity = event.identity ∧ next.Unambiguous := by
  obtain ⟨receipt, entries, attempt, order, rfl⟩ := forwards
  rw [toMqMessage, intoEventEnvelope_fromEventEnvelope]
  -- the event as it is made from the headers; the message then gets its transport headers
  generalize received : EventEnvelope.fromTransport receipt.stamps (NatsMessage.fromEvent event).subject
    (NatsMessage.fromEvent event).payload none entries attempt = made
  have same : made.identity = event.identity := by
    rw [← received]
    exact (EventEnvelope.transported_iff nonBlank).mpr clear entries order _ _ _ _ _
  have trace : made.traceContext = event.traceContext := congrArg Identity.traceContext same
  have carried {header : String × String} (inside : header ∈ made.headers.values) :
      header ∈ event.transportHeaders.values := by
    rw [← received] at inside
    have all := @EventEnvelope.mem_collect_filter_iff header _ _ order (fun _ => true)
    rw [List.filter_true] at all
    exact (all.mp inside).1
  have traceOnly : ∀ header ∈ made.traceContext.values, isTraceContextHeader header.1 = true := by
    rw [trace]
    exact clear.trace
  refine ⟨same, traceOnly, fun header sent fits => ?_, fun field listed header sent fits kept => ?_⟩
  · -- a header of the trace context is there from the first sender on
    have origin {event : EventEnvelope Payload} (sent : header ∈ event.transportHeaders.values) :
        event.traceContext.contains header.1 = true ∨ header ∈ event.headers.values := by
      rcases EventEnvelope.mem_transportHeaders_iff.mp sent with inside | ⟨written | ⟨inside, -⟩, -⟩
      · exact .inl (StringMap.contains_iff.mpr ⟨header, inside, rfl⟩)
      · obtain ⟨field, listed, name, -⟩ := EventEnvelope.mem_written_iff.mp written
        rw [← name, not_trace_of_field listed] at fits
        cases fits
      · exact .inr inside
    rcases origin sent with there | inside
    · exact there
    · rw [trace]
      rcases origin (carried inside) with there | before
      · exact there
      · exact clear.traced header before fits
  · have unwritten (own : header.1 = field.name ∧ field.written = some header.2) : False :=
      kept (by rw [own.2]; rfl) own.1
    have listed' : field ∈ made.identity.fields := listed
    rcases EventEnvelope.sent_named listed' traceOnly sent fits with own | ⟨inside, -⟩
    · exact (unwritten own).elim
    · rw [same] at listed'
      rcases EventEnvelope.sent_named listed' clear.trace (carried inside) fits with own | ⟨before, -⟩
      · exact (unwritten own).elim
      · exact clear.fields field listed' header before fits kept

/-- The identity of an event comes back from its transport headers in every order, and is the same
after any number of passes over NATS, if and only if the headers that the event carries are
unambiguous. -/
theorem identity_survives_iff {event : EventEnvelope Payload} (nonBlank : event.identity.NonBlank) :
    ((∀ entries : List (String × String), entries.Perm event.transportHeaders.values →
          ∀ stamps topic (payload : Payload) key attempt,
            (EventEnvelope.fromTransport stamps topic payload key entries attempt).identity = event.identity) ∧
        ∀ last, Relation.ReflTransGen Forwards event last → last.identity = event.identity) ↔
      event.Unambiguous := by
  rw [EventEnvelope.transported_iff nonBlank, and_iff_left_iff_imp]
  intro clear last passes
  have kept : last.identity = event.identity ∧ last.Unambiguous := by
    induction passes with
    | refl => exact ⟨rfl, clear⟩
    | tail _ forwards ih =>
      obtain ⟨same, unambiguous⟩ := ih
      obtain ⟨next, clearNext⟩ := forwards.kept (same ▸ nonBlank) unambiguous
      exact ⟨next.trans same, clearNext⟩
  exact kept.1

namespace Sample

/-- An event with one header and one entry of its trace context. -/
def event (header trace : String × String) : EventEnvelope Unit where
  eventId := "evt-1"
  eventType := "orders.created"
  version := 2
  schemaRevision := "7"
  topic := "orders"
  key := none
  headers := .collect _ [header]
  traceContext := .collect _ [trace]
  tenantId := some "t1"
  idempotencyKey := none
  producer := "orders-api"
  attempt := 0
  occurredAt := 0
  payload := ()

/-- The event as it is received when its headers are read in ascending order. -/
def received (event : EventEnvelope Unit) : EventEnvelope Unit :=
  .fromTransport ⟨"evt-2", 0⟩ "orders" () none event.transportHeaders.values 0

end Sample

/-- A header with the name of a field in other letters replaces the field; a header with the name of
an entry of the trace context joins it, and an entry with another name is lost. -/
theorem identity_replaced :
    (Sample.received (Sample.event ("X-Roze-Event-Id", "evt-9") ("traceparent", "00-1"))).eventId =
        "evt-9" ∧
      (Sample.received (Sample.event ("x-trace-id", "a1") ("traceparent", "00-1"))).traceContext.values =
        [("traceparent", "00-1"), ("x-trace-id", "a1")] ∧
      (Sample.received (Sample.event ("note", "1") ("x-correlation-id", "c1"))).traceContext.values =
        [] := by
  decide +kernel

theorem identity_survives_iff_plain :
    (Sample.received (Sample.event ("note", "1") ("traceparent", "00-1"))).identity =
      (Sample.event ("note", "1") ("traceparent", "00-1")).identity := by
  have apart : ∀ name ∈ Identity.fieldNames, named name ("note", "1") = false := by
    decide +kernel
  have clear : (Sample.event ("note", "1") ("traceparent", "00-1")).Unambiguous := by
    refine ⟨?_, fun header member => ?_, fun field listed header member fits => ?_⟩
    · decide +kernel
    · obtain rfl := List.mem_singleton.mp member
      decide +kernel
    · obtain rfl := List.mem_singleton.mp member
      have listedName : field.name ∈ Identity.fieldNames := by
        exact List.mem_map_of_mem listed
      rw [apart field.name listedName] at fits
      cases fits
  have nonBlank : (Sample.event ("note", "1") ("traceparent", "00-1")).identity.NonBlank := by
    refine ⟨by decide +kernel, by decide +kernel, by decide +kernel, by decide +kernel,
      fun tenantId same => ?_, nofun⟩
    cases same
    decide +kernel
  exact ((identity_survives_iff nonBlank).mpr clear).1 _ (List.Perm.refl _) _ _ _ _ _

end Roze.Nats
