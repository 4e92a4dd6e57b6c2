import Roze.Context.Propagation

/-!
# Event envelopes and their transport headers

An envelope crosses a transport as headers: one for each field that identifies the event, those that
it carries, and its trace context. The receiver looks for the fields without regard to case, among
headers in no particular order, and takes the headers with certain names for the trace context.
-/

namespace Roze.Eventbus

open Roze.Library List

structure EventEnvelope (Payload : Type) where
  eventId : String
  eventType : String
  version : UInt32
  schemaRevision : String
  topic : String
  key : Option String
  headers : StringMap
  traceContext : StringMap
  tenantId : Option String
  idempotencyKey : Option String
  producer : String
  attempt : UInt32
  occurredAt : Int
  payload : Payload

/-- What is generated for an envelope: an id, and the time. -/
structure Stamps where
  eventId : String
  occurredAt : Int

def eventIdHeader : String := "x-roze-event-id"
def eventTypeHeader : String := "x-roze-event-type"
def eventVersionHeader : String := "x-roze-event-version"
def schemaRevisionHeader : String := "x-roze-schema-revision"
def tenantIdHeader : String := "x-roze-tenant-id"
def idempotencyKeyHeader : String := "x-roze-idempotency-key"
def producerHeader : String := "x-roze-producer"

/-- A header has the name and is not blank. -/
def named (name : String) (header : String × String) : Bool :=
  eqIgnoreAsciiCase header.1 name && trim header.2 != ""

/-- The first header in the order in which the map happens to be read. -/
def requiredHeader (entries : List (String × String)) (name : String) : Option String :=
  (entries.find? (named name)).map Prod.snd

def isTraceContextHeader (name : String) : Bool :=
  ["traceparent", "tracestate", "baggage", "x-trace-id"].any (fun expected =>
    eqIgnoreAsciiCase name expected)

namespace EventEnvelope

variable {Payload : Type}

/-- The envelope that a receiver makes; the headers are given in the order in which they are read. -/
def fromTransport (stamps : Stamps) (topic : String) (payload : Payload) (key : Option String)
    (entries : List (String × String)) (attempt : UInt32) : EventEnvelope Payload where
  eventId := (requiredHeader entries eventIdHeader).getD stamps.eventId
  eventType := (requiredHeader entries eventTypeHeader).getD topic
  version := ((requiredHeader entries eventVersionHeader).bind (parseUnsigned (2 ^ 32))).elim 1
    UInt32.ofNat
  schemaRevision := (requiredHeader entries schemaRevisionHeader).getD "1"
  topic := topic
  key := key
  headers := .collect _ entries
  traceContext := .collect _ (entries.filter (fun header => isTraceContextHeader header.1))
  tenantId := requiredHeader entries tenantIdHeader
  idempotencyKey := requiredHeader entries idempotencyKeyHeader
  producer := (requiredHeader entries producerHeader).getD "unknown"
  attempt := attempt
  occurredAt := stamps.occurredAt
  payload := payload

/-- A header for a field that may be missing. -/
def insertIfSome (headers : StringMap) (name : String) : Option String → StringMap
  | some value => headers.insert (name, value)
  | none => headers

def transportHeaders (event : EventEnvelope Payload) : StringMap :=
  let headers := event.headers.insert (eventIdHeader, event.eventId)
  let headers := headers.insert (eventTypeHeader, event.eventType)
  let headers := headers.insert (eventVersionHeader, toString event.version.toNat)
  let headers := headers.insert (schemaRevisionHeader, event.schemaRevision)
  let headers := headers.insert (producerHeader, event.producer)
  let headers := insertIfSome headers tenantIdHeader event.tenantId
  let headers := insertIfSome headers idempotencyKeyHeader event.idempotencyKey
  event.traceContext.values.foldl KeyedMap.insert headers

end EventEnvelope

/-! ## The identity of an event -/

structure Identity where
  eventId : String
  eventType : String
  version : UInt32
  schemaRevision : String
  tenantId : Option String
  idempotencyKey : Option String
  producer : String
  traceContext : StringMap

def EventEnvelope.identity {Payload : Type} (event : EventEnvelope Payload) : Identity where
  eventId := event.eventId
  eventType := event.eventType
  version := event.version
  schemaRevision := event.schemaRevision
  tenantId := event.tenantId
  idempotencyKey := event.idempotencyKey
  producer := event.producer
  traceContext := event.traceContext

/-- A field of the identity: the name of its header, the text that the sender writes under it, and
whether the receiver gets the field back from what it finds. -/
structure Field where
  name : String
  written : Option String
  reads : Option String → Prop

namespace Identity

/-- The fields. An id and a type that are not found are made up by the receiver; for the others
there are defaults. -/
def fields (identity : Identity) : List Field :=
  [⟨eventIdHeader, some identity.eventId,
      fun found => ∀ generated, found.getD generated = identity.eventId⟩,
    ⟨eventTypeHeader, some identity.eventType, fun found => ∀ topic, found.getD topic = identity.eventType⟩,
    ⟨eventVersionHeader, some (toString identity.version.toNat), fun found =>
      (found.bind (parseUnsigned (2 ^ 32))).elim 1 UInt32.ofNat = identity.version⟩,
    ⟨schemaRevisionHeader, some identity.schemaRevision,
      fun found => found.getD "1" = identity.schemaRevision⟩,
    ⟨producerHeader, some identity.producer, fun found => found.getD "unknown" = identity.producer⟩,
    ⟨tenantIdHeader, identity.tenantId, fun found => found = identity.tenantId⟩,
    ⟨idempotencyKeyHeader, identity.idempotencyKey, fun found => found = identity.idempotencyKey⟩]

/-- The names of the fields. -/
def fieldNames : List String :=
  [eventIdHeader, eventTypeHeader, eventVersionHeader, schemaRevisionHeader, producerHeader,
    tenantIdHeader, idempotencyKeyHeader]

theorem map_name_fields (identity : Identity) : identity.fields.map Field.name = fieldNames := rfl

/-- What the sender writes for the fields. -/
def written (identity : Identity) : List (String × String) :=
  identity.fields.filterMap (fun field => field.written.map (field.name, ·))

/-- None of the fields that are there is blank. -/
structure NonBlank (identity : Identity) : Prop where
  eventId : trim identity.eventId ≠ ""
  eventType : trim identity.eventType ≠ ""
  schemaRevision : trim identity.schemaRevision ≠ ""
  producer : trim identity.producer ≠ ""
  tenantId : ∀ tenantId, identity.tenantId = some tenantId → trim tenantId ≠ ""
  idempotencyKey : ∀ key, identity.idempotencyKey = some key → trim key ≠ ""

end Identity

open Identity

/-- No header that the event carries is taken for another field than it is. The trace context is
what the receiver takes for it; and a header that has the name of a field in some case, and that the
sender does not overwrite, reads as the field. -/
structure EventEnvelope.Unambiguous {Payload : Type} (event : EventEnvelope Payload) : Prop where
  trace : ∀ header ∈ event.traceContext.values, isTraceContextHeader header.1 = true
  traced : ∀ header ∈ event.headers.values, isTraceContextHeader header.1 = true →
    event.traceContext.contains header.1 = true
  fields : ∀ field ∈ event.identity.fields, ∀ header ∈ event.headers.values,
    named field.name header = true → (field.written.isSome → header.1 ≠ field.name) →
    field.reads (some header.2)

/-! ## Headers in any order -/

/-- What holds of the header that is found in every order of the headers: it holds of each one that
could be found first, and of none when there is none. -/
theorem requiredHeader_forall_iff (headers : StringMap) (name : String) (property : Option String → Prop) :
    (∀ entries : List (String × String), entries.Perm headers.values →
        property (requiredHeader entries name)) ↔
      (∀ header ∈ headers.values, named name header = true → property (some header.2)) ∧
        ((∀ header ∈ headers.values, named name header = false) → property none) := by
  constructor
  · intro all
    constructor
    · intro header member fits
      have order : (header :: headers.values.erase header).Perm headers.values :=
        (perm_cons_erase member).symm
      have found := all _ order
      rwa [requiredHeader, find?_cons_of_pos fits, Option.map_some] at found
    · intro absent
      have found := all _ (List.Perm.refl headers.values)
      have nothing : headers.values.find? (named name) = none :=
        find?_eq_none.mpr (fun header member => by simp [absent header member])
      rwa [requiredHeader, nothing, Option.map_none] at found
  · rintro ⟨each, otherwise⟩ entries order
    cases found : entries.find? (named name) with
    | none =>
      rw [requiredHeader, found, Option.map_none]
      refine otherwise (fun header member => ?_)
      exact Bool.not_eq_true _ ▸ find?_eq_none.mp found header (order.mem_iff.mpr member)
    | some header =>
      rw [requiredHeader, found, Option.map_some]
      exact each header (order.mem_iff.mp (mem_of_find?_eq_some found)) (find?_some found)

/-- No field has the name of a header of the trace context. -/
theorem not_trace_of_field {identity : Identity} {field : Field} (member : field ∈ identity.fields) :
    isTraceContextHeader field.name = false := by
  have each : ∀ name ∈ fieldNames, isTraceContextHeader name = false := by
    decide +kernel
  apply each
  exact mem_map_of_mem member

theorem not_trace_of_named {identity : Identity} {field : Field} (member : field ∈ identity.fields)
    {header : String × String} (fits : named field.name header = true) :
    isTraceContextHeader header.1 = false := by
  have same : toAsciiLowercase header.1 = toAsciiLowercase field.name :=
    beq_iff_eq.mp (Bool.and_eq_true_iff.mp fits).1
  have apart := not_trace_of_field member
  simpa only [isTraceContextHeader, eqIgnoreAsciiCase, same] using apart

/-- A header has the name of at most one field. -/
theorem field_unique {identity : Identity} {first second : Field} (left : first ∈ identity.fields)
    (right : second ∈ identity.fields)
    (same : toAsciiLowercase first.name = toAsciiLowercase second.name) : first = second := by
  have names : (identity.fields.map (fun field => toAsciiLowercase field.name)).Nodup := by
    have listed : identity.fields.map (fun field => toAsciiLowercase field.name) =
        fieldNames.map toAsciiLowercase := rfl
    rw [listed]
    decide +kernel
  exact inj_on_of_nodup_map names left right same

theorem trim_toString_ne (number : Nat) : trim (toString number) ≠ "" := by
  have digits : (toString number).toList = Nat.toDigits 10 number := by simp
  have solid : ∀ code < 128, (Char.ofNat code).isDigit = true →
      isWhitespace (Char.ofNat code) = false ∧ Char.ofNat code ≠ ',' := by
    decide +kernel
  have entry : isEntry (toString number) = true := by
    rw [isEntry, Bool.and_eq_true, all_eq_true]
    constructor
    · simp
    · intro ch member
      have digit := Nat.isDigit_of_mem_toDigits (by decide) (by decide) (digits ▸ member)
      have small : ch.toNat < 128 := toNat_lt_of_isAlphanum (by simp [Char.isAlphanum, digit])
      obtain ⟨visible, noComma⟩ := forall_ascii
        (fun ch => ch.isDigit = true → isWhitespace ch = false ∧ ch ≠ ',') solid small digit
      simp [visible, noComma]
  rw [trim_entry entry]
  simp

/-- A field that is written is found under its name and read back, and one that is not written is
missing. -/
theorem Identity.NonBlank.field {identity : Identity} (nonBlank : identity.NonBlank) {field : Field}
    (member : field ∈ identity.fields) :
    (∀ value, field.written = some value →
        named field.name (field.name, value) = true ∧ field.reads (some value)) ∧
      (field.written = none → field.reads none) := by
  have fits {name value : String} (solid : trim value ≠ "") : named name (name, value) = true := by
    simp [named, eqIgnoreAsciiCase, solid]
  -- a field that is always written
  have present {text : String} {fact : Prop} (missing : some text = none) : fact := by cases missing
  simp only [fields, mem_cons, not_mem_nil, or_false] at member
  rcases member with rfl | rfl | rfl | rfl | rfl | rfl | rfl
  · refine ⟨fun value same => ?_, present⟩
    cases same
    exact ⟨fits nonBlank.eventId, fun _ => rfl⟩
  · refine ⟨fun value same => ?_, present⟩
    cases same
    exact ⟨fits nonBlank.eventType, fun _ => rfl⟩
  · refine ⟨fun value same => ?_, present⟩
    cases same
    refine ⟨fits (trim_toString_ne _), ?_⟩
    dsimp only [Option.bind_some]
    rw [parseUnsigned_toString identity.version.toNat_lt, Option.elim_some, UInt32.ofNat_toNat]
  · refine ⟨fun value same => ?_, present⟩
    cases same
    exact ⟨fits nonBlank.schemaRevision, rfl⟩
  · refine ⟨fun value same => ?_, present⟩
    cases same
    exact ⟨fits nonBlank.producer, rfl⟩
  · exact ⟨fun value same => ⟨fits (nonBlank.tenantId value same), same.symm⟩, Eq.symm⟩
  · exact ⟨fun value same => ⟨fits (nonBlank.idempotencyKey value same), same.symm⟩, Eq.symm⟩

/-! ## What is sent -/

namespace EventEnvelope

variable {Payload : Type} {event : EventEnvelope Payload}

theorem transportHeaders_eq (event : EventEnvelope Payload) :
    event.transportHeaders = event.traceContext.values.foldl KeyedMap.insert
      (event.identity.written.foldl KeyedMap.insert event.headers) := by
  cases tenant : event.tenantId <;> cases idempotency : event.idempotencyKey <;>
    simp [transportHeaders, written, fields, identity, insertIfSome, tenant, idempotency]

variable {header : String × String}

theorem mem_written_iff {identity : Identity} :
    header ∈ identity.written ↔
      ∃ field ∈ identity.fields, field.name = header.1 ∧ field.written = some header.2 := by
  rw [written, mem_filterMap]
  refine exists_congr (fun field => and_congr_right fun _ => ?_)
  rw [Option.map_eq_some_iff]
  grind

theorem written_unique (identity : Identity) : (identity.written.map Prod.fst).Nodup := by
  have sub : (identity.written.map Prod.fst).Sublist fieldNames := by
    rw [← identity.map_name_fields, written]
    generalize identity.fields = fields
    induction fields with
    | nil => exact List.Sublist.slnil
    | cons field rest ih =>
      cases written : field.written with
      | none | some => simp_all
  have names : fieldNames.Nodup := by decide +kernel
  exact names.sublist sub

/-- What is sent: the trace context, the fields, and the headers that neither replaces. -/
theorem mem_transportHeaders_iff :
    header ∈ event.transportHeaders.values ↔
      header ∈ event.traceContext.values ∨
        ((header ∈ event.identity.written ∨
            (header ∈ event.headers.values ∧ ∀ own ∈ event.identity.written, own.1 ≠ header.1)) ∧
          ∀ own ∈ event.traceContext.values, own.1 ≠ header.1) := by
  rw [transportHeaders_eq, KeyedMap.mem_foldl_insert_iff (event.traceContext.ascending.imp ne_of_lt),
    KeyedMap.mem_foldl_insert_iff (written_unique _)]

/-- What the receiver gets back is the identity, whatever else it is given, when it reads each field
back and takes the right headers for the trace context. -/
theorem identity_fromTransport_iff (event : EventEnvelope Payload) (entries : List (String × String)) :
    (∀ stamps topic (payload : Payload) key attempt,
        (fromTransport stamps topic payload key entries attempt).identity = event.identity) ↔
      (∀ field ∈ event.identity.fields, field.reads (requiredHeader entries field.name)) ∧
        KeyedMap.collect _ (entries.filter (fun header => isTraceContextHeader header.1)) =
          event.traceContext := by
  simp only [fields, forall_mem_cons, not_mem_nil, false_implies, implies_true, and_true]
  constructor
  · intro same
    have made (generated topic : String) :
        (fromTransport ⟨generated, 0⟩ topic event.payload none entries 0).identity = event.identity :=
      same ⟨generated, 0⟩ topic event.payload none 0
    have fixed := made "" ""
    exact ⟨⟨fun generated => congrArg Identity.eventId (made generated ""),
        fun topic => congrArg Identity.eventType (made "" topic), congrArg Identity.version fixed,
        congrArg Identity.schemaRevision fixed, congrArg Identity.producer fixed,
        congrArg Identity.tenantId fixed, congrArg Identity.idempotencyKey fixed⟩,
      congrArg Identity.traceContext fixed⟩
  · rintro ⟨⟨eventId, eventType, version, schemaRevision, producer, tenantId, idempotencyKey⟩, trace⟩
      stamps topic payload key attempt
    simp only [identity, fromTransport, Identity.mk.injEq]
    exact ⟨eventId _, eventType _, version, schemaRevision, tenantId, idempotencyKey, producer, trace⟩

/-- A map that is made of some of the headers of another one, in any order, has those headers. -/
theorem mem_collect_filter_iff {headers : StringMap} {entries : List (String × String)}
    (order : entries.Perm headers.values) (chosen : String × String → Bool) :
    header ∈ (KeyedMap.collect (Prod.fst : String × String → String) (entries.filter chosen)).values ↔
      header ∈ headers.values ∧ chosen header = true := by
  have unique : ((entries.filter chosen).map Prod.fst).Nodup := by
    have all : (entries.map Prod.fst).Nodup :=
      (order.map Prod.fst).nodup_iff.mpr (headers.ascending.imp ne_of_lt)
    exact all.sublist (filter_sublist.map _)
  rw [KeyedMap.collect, KeyedMap.mem_foldl_insert_iff unique, mem_filter, order.mem_iff]
  simp [KeyedMap.empty]

/-- The trace context comes back when it has only headers with its names, and all of them. -/
theorem trace_eq_iff {entries : List (String × String)}
    (order : entries.Perm event.transportHeaders.values) :
    KeyedMap.collect _ (entries.filter (fun header => isTraceContextHeader header.1)) =
        event.traceContext ↔
      (∀ header ∈ event.traceContext.values, isTraceContextHeader header.1 = true) ∧
        ∀ header ∈ event.headers.values, isTraceContextHeader header.1 = true →
          event.traceContext.contains header.1 = true := by
  have unwritten {own : String × String} (member : own ∈ event.identity.written) :
      isTraceContextHeader own.1 = false := by
    obtain ⟨_, listed, name, -⟩ := mem_written_iff.mp member
    exact name ▸ not_trace_of_field listed
  constructor
  · intro same
    have member (header : String × String) : header ∈ event.traceContext.values ↔
        header ∈ event.transportHeaders.values ∧ isTraceContextHeader header.1 = true := by
      rw [← same]
      exact mem_collect_filter_iff order _
    refine ⟨fun header inside => ((member header).mp inside).2, fun header inside fits => ?_⟩
    by_contra missing
    have free : ∀ own ∈ event.traceContext.values, own.1 ≠ header.1 := by
      intro own listed name
      exact missing (StringMap.contains_iff.mpr ⟨own, listed, name⟩)
    have sent : header ∈ event.transportHeaders.values := by
      refine mem_transportHeaders_iff.mpr (.inr ⟨.inr ⟨inside, fun own written name => ?_⟩, free⟩)
      grind
    grind
  · rintro ⟨only, all⟩
    apply StringMap.ext_get?
    intro name
    apply Option.ext
    intro value
    rw [StringMap.get?_eq_some_iff, StringMap.get?_eq_some_iff, mem_collect_filter_iff order,
      mem_transportHeaders_iff]
    constructor
    · rintro ⟨inside | ⟨written | ⟨carried, -⟩, free⟩, fits⟩
      · exact inside
      · rw [unwritten written] at fits
        cases fits
      · obtain ⟨own, listed, same⟩ := StringMap.contains_iff.mp (all _ carried fits)
        exact absurd same (free own listed)
    · grind

/-- A header that is sent and has the name of a field is what the sender wrote for the field, or a
header that it carries and does not overwrite. -/
theorem sent_named {field : Field} (listed : field ∈ event.identity.fields)
    (trace : ∀ header ∈ event.traceContext.values, isTraceContextHeader header.1 = true)
    (sent : header ∈ event.transportHeaders.values) (fits : named field.name header = true) :
    (header.1 = field.name ∧ field.written = some header.2) ∨
      (header ∈ event.headers.values ∧ (field.written.isSome → header.1 ≠ field.name)) := by
  rcases mem_transportHeaders_iff.mp sent with inside | ⟨written | ⟨carried, others⟩, -⟩
  · have apart := not_trace_of_named listed fits
    rw [trace header inside] at apart
    cases apart
  · obtain ⟨other, listed', name, text⟩ := mem_written_iff.mp written
    have close : toAsciiLowercase header.1 = toAsciiLowercase field.name :=
      beq_iff_eq.mp (Bool.and_eq_true_iff.mp fits).1
    obtain rfl : other = field := field_unique listed' listed (name ▸ close)
    simp_all
  · refine .inr ⟨carried, fun some name => ?_⟩
    obtain ⟨value, text⟩ := Option.isSome_iff_exists.mp some
    exact others (field.name, value) (mem_written_iff.mpr ⟨field, listed, rfl, text⟩) name.symm

/-- A header that the event carries under the name of a field, and that is not overwritten, is
sent. -/
theorem sent_of_carried {field : Field} (listed : field ∈ event.identity.fields)
    (trace : ∀ header ∈ event.traceContext.values, isTraceContextHeader header.1 = true)
    (carried : header ∈ event.headers.values) (fits : named field.name header = true)
    (kept : field.written.isSome → header.1 ≠ field.name) :
    header ∈ event.transportHeaders.values := by
  refine mem_transportHeaders_iff.mpr (.inr ⟨.inr ⟨carried, fun own written name => ?_⟩,
    fun own inside name => ?_⟩)
  · obtain ⟨other, listed', same, text⟩ := mem_written_iff.mp written
    have close : toAsciiLowercase header.1 = toAsciiLowercase field.name :=
      beq_iff_eq.mp (Bool.and_eq_true_iff.mp fits).1
    obtain rfl : other = field := field_unique listed' listed (same.trans name ▸ close)
    simp_all
  · have apart := not_trace_of_named listed fits
    rw [← name, trace own inside] at apart
    cases apart

/-- What is written for a field is sent. -/
theorem sent_of_written {field : Field} {value : String} (listed : field ∈ event.identity.fields)
    (trace : ∀ header ∈ event.traceContext.values, isTraceContextHeader header.1 = true)
    (written : field.written = some value) : (field.name, value) ∈ event.transportHeaders.values := by
  refine mem_transportHeaders_iff.mpr (.inr ⟨.inl (mem_written_iff.mpr ⟨field, listed, rfl, written⟩),
    fun own inside name => ?_⟩)
  have same : own.1 = field.name := name
  have apart := not_trace_of_field listed
  grind

/-- A field is read back in every order when the headers that could be taken for it read as it. -/
theorem reads_forall_iff {field : Field} (nonBlank : event.identity.NonBlank)
    (listed : field ∈ event.identity.fields)
    (trace : ∀ header ∈ event.traceContext.values, isTraceContextHeader header.1 = true) :
    (∀ entries : List (String × String), entries.Perm event.transportHeaders.values →
        field.reads (requiredHeader entries field.name)) ↔
      ∀ header ∈ event.headers.values, named field.name header = true →
        (field.written.isSome → header.1 ≠ field.name) → field.reads (some header.2) := by
  rw [requiredHeader_forall_iff]
  constructor
  · rintro ⟨each, -⟩ header carried fits kept
    exact each header (sent_of_carried listed trace carried fits kept) fits
  · intro reads
    refine ⟨fun header sent fits => ?_, fun absent => ?_⟩
    · rcases sent_named listed trace sent fits with ⟨-, text⟩ | ⟨carried, kept⟩
      · exact ((nonBlank.field listed).1 header.2 text).2
      · exact reads header carried fits kept
    · cases written : field.written with
      | none => exact (nonBlank.field listed).2 written
      | some value =>
        have present := absent _ (sent_of_written listed trace written)
        rw [((nonBlank.field listed).1 value written).1] at present
        cases present

/-- An event comes back with its identity from every order of its headers, if and only if its headers
are unambiguous. -/
theorem transported_iff (nonBlank : event.identity.NonBlank) :
    (∀ entries : List (String × String), entries.Perm event.transportHeaders.values →
        ∀ stamps topic (payload : Payload) key attempt,
          (fromTransport stamps topic payload key entries attempt).identity = event.identity) ↔
      event.Unambiguous := by
  simp only [identity_fromTransport_iff]
  constructor
  · intro back
    obtain ⟨trace, traced⟩ := (trace_eq_iff (List.Perm.refl _)).mp (back _ (List.Perm.refl _)).2
    refine ⟨trace, traced, fun field listed => ?_⟩
    exact (reads_forall_iff nonBlank listed trace).mp
      (fun entries order => (back entries order).1 field listed)
  · intro clear entries order
    refine ⟨fun field listed => ?_, (trace_eq_iff order).mpr ⟨clear.trace, clear.traced⟩⟩
    exact (reads_forall_iff nonBlank listed clear.trace).mpr (clear.fields field listed) entries order

end EventEnvelope

end Roze.Eventbus
