import Roze.Transaction.BrokerRelay

/-!
# Recovery of Kafka records

A record that a consumer refuses is published again, to the retry topic with the next attempt or to
the dead letter topic. The attempt travels in a header that the producer appends to the headers of
the record. A consumer takes the attempt from the first header of that name, and copies all headers
into a map, where the last one stays. The record that is published again has the copied header
before the appended one, so a consumer reads the attempt before the last.
-/

namespace Roze.Kafka

open Roze.Library List

/-! ## Records and their recovery -/

structure KafkaConfig where
  topicPrefix : String
  retryBackoffMs : UInt64
  maxRetries : UInt32
  retryTopic : Option String
  deadLetterTopic : Option String

namespace KafkaConfig

variable (config : KafkaConfig)

def topicName (topic : String) : String :=
  if config.topicPrefix.isEmpty then topic else config.topicPrefix ++ "." ++ topic

def shouldRetry (messageAttempt : UInt32) : Bool :=
  config.maxRetries != 0 && decide (messageAttempt < config.maxRetries)

theorem topicName_inj {first second : String} :
    config.topicName first = config.topicName second ↔ first = second := by
  rw [topicName, topicName]
  split
  · exact Iff.rfl
  · simp

end KafkaConfig

inductive RecoverAction where
  | retry (topic : String) (attempt : UInt32) (backoffMs : UInt64)
  | deadLetter (topic : String)
  | drop (reason : String)

structure KafkaRecord (Payload : Type) where
  topic : String
  key : Option String
  headers : StringMap
  payload : Payload
  attempt : UInt32

section Recovery

variable {Payload : Type} (config : KafkaConfig)

def recoverAction (message : KafkaRecord Payload) : RecoverAction :=
  if config.maxRetries = 0 then
    (config.deadLetterTopic.map RecoverAction.deadLetter).getD (.drop "recover_dropped")
  else if config.shouldRetry message.attempt then
    (config.retryTopic.map (fun topic => RecoverAction.retry topic
      (saturatingAddU32 message.attempt 1) config.retryBackoffMs)).getD (.drop "retry_topic_missing")
  else
    (config.deadLetterTopic.map RecoverAction.deadLetter).getD (.drop "dead_letter_missing")

/-- The record that is published in place of a refused one, if any. -/
def publishRecover (message : KafkaRecord Payload) : Option (KafkaRecord Payload) :=
  match recoverAction config message with
  | .retry topic attempt _ => some { message with topic, attempt }
  | .deadLetter topic => some { message with topic, attempt := 0 }
  | .drop _ => none

/-- A record that may be tried again goes to the retry topic with the next attempt, any other one to
the dead letter topic. -/
theorem publishRecover_eq (message : KafkaRecord Payload) {retry deadLetter : String}
    (retryTopic : config.retryTopic = some retry)
    (deadLetterTopic : config.deadLetterTopic = some deadLetter) :
    publishRecover config message =
      if message.attempt < config.maxRetries then
        some { message with topic := retry, attempt := saturatingAddU32 message.attempt 1 }
      else some { message with topic := deadLetter, attempt := 0 } := by
  rw [publishRecover, recoverAction, retryTopic, deadLetterTopic]
  by_cases none : config.maxRetries = 0
  · simp_all
  · rw [if_neg none]
    by_cases more : message.attempt < config.maxRetries
    · have should : config.shouldRetry message.attempt = true := by
        rw [KafkaConfig.shouldRetry, decide_eq_true more, Bool.and_true]
        exact bne_iff_ne.mpr none
      simp_all
    · have should : ¬ config.shouldRetry message.attempt = true := by
        rw [KafkaConfig.shouldRetry, decide_eq_false more, Bool.and_false]
        exact Bool.false_ne_true
      simp_all

end Recovery

/-! ## Records in a topic -/

def attemptHeader : String := "roze-attempt"

/-- A record as a topic holds it: its headers are a list, and a name may stand there twice. -/
structure WireRecord (Payload : Type) where
  topic : String
  key : Option String
  headers : List (String × String)
  payload : Payload

/-- What one publication makes up: a trace id, and the order in which the headers are read. -/
structure Sending where
  traceId : String
  entries : List (String × String)

/-- The headers are read in some order, with the trace id among them. -/
def Sending.Reads (sending : Sending) (headers : StringMap) : Prop :=
  sending.entries.Perm (Transaction.ensureTraceId headers sending.traceId).values

instance (sending : Sending) (headers : StringMap) : Decidable (sending.Reads headers) :=
  inferInstanceAs (Decidable (List.Perm _ _))

/-- The number in a header with the attempt. -/
def attemptOf (header : String × String) : Option UInt32 :=
  if header.1 = attemptHeader then (parseUnsigned (2 ^ 32) header.2).map UInt32.ofNat else none

def parseAttempt (headers : List (String × String)) : UInt32 :=
  (headers.findSome? attemptOf).getD 0

def collectHeaders (headers : List (String × String)) : StringMap := .collect _ headers

section Transport

variable {Payload : Type}

def publishWithResult (config : KafkaConfig) (message : KafkaRecord Payload) (sending : Sending) :
    WireRecord Payload where
  topic := config.topicName message.topic
  key := message.key
  headers := sending.entries ++ [(attemptHeader, toString message.attempt.toNat)]
  payload := message.payload

/-- The record that a subscription delivers. -/
def WireRecord.received (wire : WireRecord Payload) : KafkaRecord Payload where
  topic := wire.topic
  key := wire.key
  headers := collectHeaders wire.headers
  payload := wire.payload
  attempt := parseAttempt wire.headers

/-- The attempt that a map of headers holds, if any. -/
def headerAttempt (headers : StringMap) : Option UInt32 :=
  (headers.get? attemptHeader).bind (fun text => attemptOf (attemptHeader, text))

theorem attemptOf_toString (attempt : UInt32) :
    attemptOf (attemptHeader, toString attempt.toNat) = some attempt := by
  rw [attemptOf, if_pos rfl, parseUnsigned_toString attempt.toNat_lt, Option.map_some,
    UInt32.ofNat_toNat]

/-- The trace id does not touch the attempt. -/
theorem headerAttempt_ensureTraceId (headers : StringMap) (traceId : String) :
    headerAttempt (Transaction.ensureTraceId headers traceId) = headerAttempt headers := by
  have other : Context.traceIdHeader ≠ attemptHeader := by decide
  rw [headerAttempt, Transaction.get?_ensureTraceId other, headerAttempt]

/-- In whatever order the headers of a map are read, the attempt is the one that the map holds. -/
theorem findSome?_attemptOf {entries : List (String × String)} {headers : StringMap}
    (order : entries.Perm headers.values) : entries.findSome? attemptOf = headerAttempt headers := by
  have found {header : String × String} {attempt : UInt32} (member : header ∈ entries)
      (reads : attemptOf header = some attempt) : headerAttempt headers = some attempt := by
    obtain ⟨name, text⟩ := header
    have own : name = attemptHeader := by
      by_contra other
      rw [attemptOf, if_neg other] at reads
      cases reads
    subst own
    rw [headerAttempt, StringMap.get?_eq_some_iff.mpr (order.mem_iff.mp member), Option.bind_some, reads]
  cases first : entries.findSome? attemptOf with
  | some =>
    obtain ⟨_, member, reads⟩ := exists_of_findSome?_eq_some first
    exact (found member reads).symm
  | none =>
    rw [findSome?_eq_none_iff] at first
    symm
    rw [headerAttempt, Option.bind_eq_none_iff]
    intro text holds
    exact first _ (order.mem_iff.mpr (StringMap.get?_eq_some_iff.mp holds))

/-- A consumer reads the attempt that was among the headers, and the appended one only where there
was none. -/
theorem attempt_received {config : KafkaConfig} {message : KafkaRecord Payload} {sending : Sending}
    (reads : sending.Reads message.headers) :
    (publishWithResult config message sending).received.attempt =
      (headerAttempt message.headers).getD message.attempt := by
  have appended : List.findSome? attemptOf [(attemptHeader, toString message.attempt.toNat)] =
      some message.attempt := by
    rw [findSome?_cons, attemptOf_toString]
  rw [WireRecord.received, parseAttempt, publishWithResult, findSome?_append, findSome?_attemptOf reads,
    headerAttempt_ensureTraceId, appended]
  simp

/-- The map that a consumer makes of the headers holds the attempt that was appended. -/
theorem header_received (config : KafkaConfig) (message : KafkaRecord Payload) (sending : Sending) :
    headerAttempt (publishWithResult config message sending).received.headers =
      some message.attempt := by
  have last : (collectHeaders (publishWithResult config message sending).headers).get? attemptHeader =
      some (toString message.attempt.toNat) := by
    rw [collectHeaders, StringMap.get?_collect, publishWithResult, filter_append,
      filter_cons_of_pos (by simp), filter_nil, getLast?_concat, Option.map_some]
  rw [WireRecord.received, headerAttempt, last, Option.bind_some, attemptOf_toString]

end Transport

/-! ## A record that is always refused -/

/-- What became of one record: its copies in the topics, those that were delivered and not yet
refused, all deliveries, and all publications. -/
structure Cycle (Payload : Type) where
  stored : List (WireRecord Payload)
  held : List (KafkaRecord Payload)
  delivered : List (KafkaRecord Payload)
  published : List (WireRecord Payload)

inductive CycleAction where
  /-- A subscription receives a copy from its topic. -/
  | receive (index : Nat)
  /-- A delivery is refused, and published again. -/
  | nack (index : Nat) (sending : Sending)

section Cycles

variable {Payload : Type} (config : KafkaConfig) (topic : String)

/-- There are subscriptions to the topic of the record and to the retry topic. -/
def consumed (wire : WireRecord Payload) : Bool :=
  decide (wire.topic = config.topicName topic) ||
    config.retryTopic.any (fun retry => wire.topic = config.topicName retry)

def Cycle.receive (cycle : Cycle Payload) (index : Nat) : Option (Cycle Payload) :=
  (cycle.stored[index]?).bind (fun wire =>
    if consumed config topic wire then
      some { cycle with
        stored := cycle.stored.eraseIdx index
        held := cycle.held ++ [wire.received]
        delivered := cycle.delivered ++ [wire.received] }
    else none)

/-- The copy that takes the place of a refused delivery. -/
def Cycle.republish (cycle : Cycle Payload) (message : Option (KafkaRecord Payload))
    (sending : Sending) : Cycle Payload :=
  let copies := message.toList.map (fun message => publishWithResult config message sending)
  { cycle with stored := cycle.stored ++ copies, published := cycle.published ++ copies }

def Cycle.nack (cycle : Cycle Payload) (index : Nat) (sending : Sending) : Option (Cycle Payload) :=
  (cycle.held[index]?).bind (fun message =>
    if sending.Reads message.headers then
      some ({ cycle with held := cycle.held.eraseIdx index }.republish config
        (publishRecover config message) sending)
    else none)

/-- Deliveries and refusals in any order. -/
def recovery : Machine (Cycle Payload) CycleAction Unit where
  step cycle
    | .receive index => (cycle.receive config topic index).map (fun next => (next, ()))
    | .nack index sending => (cycle.nack config index sending).map (fun next => (next, ()))

/-- The record is published for the first time. -/
def Cycle.start (message : KafkaRecord Payload) (sending : Sending) : Cycle Payload :=
  (Cycle.mk [] [] [] []).republish config (some message) sending

/-- The number of publications to the dead letter topic. -/
def deadLetters (deadLetter : String) (published : List (WireRecord Payload)) : Nat :=
  published.countP (fun wire => wire.topic = config.topicName deadLetter)

/-- No copy is left that could be delivered or refused. -/
def Cycle.Quiet (cycle : Cycle Payload) : Prop :=
  cycle.held = [] ∧ ∀ wire ∈ cycle.stored, consumed config topic wire = false

/-- What is asked of a record that is always refused: it is delivered for the first attempt and for
each retry at most, the deliveries carry the attempts in order, and it is published to the dead
letter topic once when nothing more can happen to it. -/
structure Cycle.Bounded (cycle : Cycle Payload) (deadLetter : String) : Prop where
  few : cycle.delivered.length ≤ config.maxRetries.toNat + 1
  numbered : ∀ index (message : KafkaRecord Payload), cycle.delivered[index]? = some message →
    message.attempt.toNat = index
  once : deadLetters config deadLetter cycle.published ≤ 1
  settled : cycle.Quiet config topic → deadLetters config deadLetter cycle.published = 1

/-- The copies of a record carry two attempts: the one that is read, and the one that the next copy
will be read with. After some number of deliveries they are half of it, once rounded down and once
rounded up. -/
structure KafkaRecord.After (message : KafkaRecord Payload) (count : Nat) : Prop where
  attempt : message.attempt.toNat = count / 2
  header : ∃ attempt, headerAttempt message.headers = some attempt ∧ attempt.toNat = (count + 1) / 2

/-- Each attempt is delivered twice. -/
def Halved (delivered : List (KafkaRecord Payload)) : Prop :=
  ∀ index (message : KafkaRecord Payload), delivered[index]? = some message →
    message.attempt.toNat = index / 2

variable {message : KafkaRecord Payload}

theorem Halved.snoc {delivered : List (KafkaRecord Payload)} (halved : Halved delivered)
    (last : message.attempt.toNat = delivered.length / 2) : Halved (delivered ++ [message]) := by
  intro index other found
  rcases Nat.lt_trichotomy index delivered.length with before | same | _
  · rw [getElem?_append_left before] at found
    exact halved index other found
  · simp_all
  · simp_all

/-- Where a record is that is always refused. There is one copy of it, in a topic that is consumed,
with a consumer, or in the dead letter topic. -/
inductive Phase (deadLetter : String) : Cycle Payload → Prop
  | waiting {wire : WireRecord Payload} {delivered : List (KafkaRecord Payload)}
      {published : List (WireRecord Payload)} (inside : consumed config topic wire = true)
      (few : delivered.length ≤ 2 * config.maxRetries.toNat)
      (carried : wire.received.After delivered.length) (halved : Halved delivered)
      (none : deadLetters config deadLetter published = 0) :
      Phase deadLetter ⟨[wire], [], delivered, published⟩
  | holding {message : KafkaRecord Payload} {delivered : List (KafkaRecord Payload)}
      {published : List (WireRecord Payload)}
      (few : delivered.length ≤ 2 * config.maxRetries.toNat)
      (carried : message.After delivered.length) (halved : Halved delivered)
      (none : deadLetters config deadLetter published = 0) :
      Phase deadLetter ⟨[], [message], delivered ++ [message], published⟩
  | settled {wire : WireRecord Payload} {delivered : List (KafkaRecord Payload)}
      {published : List (WireRecord Payload)} (outside : consumed config topic wire = false)
      (all : delivered.length = 2 * config.maxRetries.toNat + 1) (halved : Halved delivered)
      (once : deadLetters config deadLetter published = 1) :
      Phase deadLetter ⟨[wire], [], delivered, published⟩

variable {config topic}

variable {index : Nat}

theorem index_singleton {Value : Type} {only value : Value} (found : [only][index]? = some value) :
    index = 0 ∧ value = only := by
  cases index with
  | zero => simp_all
  | succ => cases found

variable {deadLetter : String}

/-- A copy that is received keeps what it carries. -/
theorem Phase.receive {cycle next : Cycle Payload} (phase : Phase config topic deadLetter cycle)
    (taken : cycle.receive config topic index = some next) :
    Phase config topic deadLetter next := by
  obtain ⟨wire, found, delivers⟩ := Option.bind_eq_some_iff.mp taken
  have inside : consumed config topic wire = true := by simp_all
  rw [if_pos inside] at delivers
  cases delivers
  cases phase with
  | waiting _ few carried halved none =>
    obtain ⟨rfl, rfl⟩ := index_singleton found
    exact .holding few carried halved none
  | holding => cases found
  | settled outside => grind

variable {sending : Sending}

/-- A retry carries the header as the attempt and the next attempt as the header. -/
theorem KafkaRecord.After.retry {next : KafkaRecord Payload} {count : Nat}
    (carried : message.After count) (sameHeaders : next.headers = message.headers)
    (nextAttempt : next.attempt = saturatingAddU32 message.attempt 1)
    (more : message.attempt < config.maxRetries) (reads : sending.Reads next.headers) :
    (publishWithResult config next sending).received.After (count + 1) := by
  obtain ⟨_, holds, value⟩ := carried.header
  refine ⟨?_, _, header_received config next sending, ?_⟩
  · rw [attempt_received reads, sameHeaders, holds]
    exact value
  · have half := carried.attempt
    have bound : message.attempt.toNat < config.maxRetries.toNat := UInt32.lt_iff_toNat_lt.mp more
    have limit : config.maxRetries.toNat < 2 ^ 32 := config.maxRetries.toNat_lt
    have sum : (saturatingAddU32 message.attempt 1).toNat = message.attempt.toNat + 1 := by
      rw [saturatingAddU32_toNat]
      grind
    rw [nextAttempt, sum]
    omega

/-- A refused record is in a consumed topic again, or in the dead letter topic when each attempt was
delivered twice. -/
theorem Phase.nack {retry : String} {cycle next : Cycle Payload}
    (retryTopic : config.retryTopic = some retry)
    (deadLetterTopic : config.deadLetterTopic = some deadLetter)
    (apart : deadLetter ≠ topic ∧ deadLetter ≠ retry)
    (phase : Phase config topic deadLetter cycle)
    (taken : cycle.nack config index sending = some next) : Phase config topic deadLetter next := by
  obtain ⟨message, found, refuses⟩ := Option.bind_eq_some_iff.mp taken
  have reads : sending.Reads message.headers := by simp_all
  rw [if_pos reads] at refuses
  cases refuses
  cases phase with
  | waiting | settled => cases found
  | holding few carried halved none =>
    obtain ⟨rfl, rfl⟩ := index_singleton found
    rw [publishRecover_eq config message retryTopic deadLetterTopic]
    have half := carried.attempt
    by_cases more : message.attempt < config.maxRetries
    · rw [if_pos more]
      have bound : message.attempt.toNat < config.maxRetries.toNat := UInt32.lt_iff_toNat_lt.mp more
      refine .waiting ?_ ?_ ?_ (halved.snoc half) ?_
      · simp [consumed, retryTopic, publishWithResult]
      · grind
      · rw [length_append, length_singleton]
        exact carried.retry rfl rfl more reads
      · rw [deadLetters, countP_append, ← deadLetters, none, Nat.zero_add]
        simp [publishWithResult, config.topicName_inj, apart.2.symm]
    · rw [if_neg more]
      have bound : ¬ message.attempt.toNat < config.maxRetries.toNat :=
        fun less => more (UInt32.lt_iff_toNat_lt.mpr less)
      refine .settled ?_ ?_ (halved.snoc half) ?_
      · simp [consumed, retryTopic, publishWithResult, config.topicName_inj, apart]
      · grind
      · rw [deadLetters, countP_append, ← deadLetters, none, Nat.zero_add]
        simp [publishWithResult]

/-- A record that is published for the first time carries no attempt but the appended one. -/
theorem KafkaRecord.After.first (fresh : message.attempt = 0)
    (plain : ∀ attempt, headerAttempt message.headers = some attempt → attempt = 0)
    (reads : sending.Reads message.headers) :
    (publishWithResult config message sending).received.After 0 := by
  refine ⟨?_, _, header_received config _ sending, ?_⟩
  · rw [attempt_received reads, fresh]
    cases holds : headerAttempt message.headers with
    | none => rfl
    | some attempt => simp_all
  · rw [fresh]
    rfl

theorem Phase.start (apart : deadLetter ≠ message.topic) (fresh : message.attempt = 0)
    (plain : ∀ attempt, headerAttempt message.headers = some attempt → attempt = 0)
    (reads : sending.Reads message.headers) :
    Phase config message.topic deadLetter (.start config message sending) := by
  refine .waiting ?_ (Nat.zero_le _) (.first fresh plain reads) nofun ?_
  · simp [consumed, publishWithResult]
  · simp [deadLetters, publishWithResult, config.topicName_inj, apart.symm]

/-- The attempts of a record that is always refused: each one is delivered twice, except for the last
one, and then the record is published to the dead letter topic. -/
theorem attempts_halved {retry : String} (retryTopic : config.retryTopic = some retry)
    (deadLetterTopic : config.deadLetterTopic = some deadLetter)
    (apart : deadLetter ≠ message.topic ∧ deadLetter ≠ retry) (fresh : message.attempt = 0)
    (plain : ∀ attempt, headerAttempt message.headers = some attempt → attempt = 0)
    (reads : sending.Reads message.headers) {final : Cycle Payload}
    {events : List (CycleAction × Unit)}
    (run : (recovery config message.topic).Run (.start config message sending) events final) :
    final.delivered.length ≤ 2 * config.maxRetries.toNat + 1 ∧ Halved final.delivered ∧
      deadLetters config deadLetter final.published ≤ 1 ∧
      (final.Quiet config message.topic →
        final.delivered.length = 2 * config.maxRetries.toNat + 1 ∧
          deadLetters config deadLetter final.published = 1) := by
  have phase : Phase config message.topic deadLetter final := by
    refine run.invariant (Phase.start apart.1 fresh plain reads) ?_
    intro cycle action output next phase stepped
    cases action with
    | receive => exact phase.receive (Machine.of_map_unit stepped)
    | nack =>
      exact phase.nack retryTopic deadLetterTopic apart (Machine.of_map_unit stepped)
  cases phase with
  | waiting inside few carried halved none =>
    refine ⟨Nat.le_succ_of_le few, halved, none ▸ Nat.zero_le _, fun quiet => ?_⟩
    rw [quiet.2 _ (mem_singleton_self _)] at inside
    cases inside
  | holding few carried halved none =>
    refine ⟨?_, halved.snoc carried.attempt, none ▸ Nat.zero_le _, fun quiet => ?_⟩
    · simp_all
    · cases quiet.1
  | settled outside all halved once => simp_all

end Cycles

/-! ## When the attempts are counted -/

section Bound

variable {Payload : Type} {config : KafkaConfig} {message : KafkaRecord Payload}

/-- The headers are read in their order in the map. -/
def Sending.inOrder (headers : StringMap) : Sending :=
  ⟨"", (Transaction.ensureTraceId headers "").values⟩

theorem Sending.inOrder_reads (headers : StringMap) : (Sending.inOrder headers).Reads headers :=
  List.Perm.refl _

/-- The record is delivered. -/
theorem run_delivered (config : KafkaConfig) (message : KafkaRecord Payload) (sending : Sending) :
    (recovery config message.topic).Run (.start config message sending) [(.receive 0, ())]
      { stored := []
        held := [(publishWithResult config message sending).received]
        delivered := [(publishWithResult config message sending).received]
        published := [publishWithResult config message sending] } := by
  have inside : consumed config message.topic (publishWithResult config message sending) = true := by
    simp [consumed, publishWithResult]
  apply Machine.Run.single
  change Option.map _ (if consumed config message.topic (publishWithResult config message sending) then _
    else _) = _
  rw [if_pos inside]
  rfl

/-- The record is delivered, refused, and delivered again where its copy is consumed. -/
theorem run_delivered_twice {sending : Sending} {next : KafkaRecord Payload}
    (recovered : publishRecover config (publishWithResult config message sending).received = some next)
    (headers : next.headers = (publishWithResult config message sending).received.headers)
    (inside : consumed config message.topic
      (publishWithResult config next (.inOrder next.headers)) = true) :
    ∃ events final, (recovery config message.topic).Run (.start config message sending) events final ∧
      final.delivered = [(publishWithResult config message sending).received,
        (publishWithResult config next (.inOrder next.headers)).received] := by
  have start := run_delivered config message sending
  generalize (publishWithResult config message sending).received = received at *
  generalize copy : publishWithResult config next (.inOrder next.headers) = again at *
  have refused : (recovery config message.topic).step
      ⟨[], [received], [received], [publishWithResult config message sending]⟩
      (.nack 0 (.inOrder next.headers)) =
        some (⟨[again], [], [received], [publishWithResult config message sending, again]⟩, ()) := by
    change Option.map _ (if (Sending.inOrder next.headers).Reads received.headers then _ else _) = _
    rw [if_pos (headers ▸ Sending.inOrder_reads _), recovered, ← copy]
    rfl
  have delivered : (recovery config message.topic).step
      ⟨[again], [], [received], [publishWithResult config message sending, again]⟩ (.receive 0) =
        some (⟨[], [again.received], [received, again.received],
          [publishWithResult config message sending, again]⟩, ()) := by
    change Option.map _ (if consumed config message.topic again then _ else _) = _
    rw [if_pos inside]
    rfl
  exact ⟨_, _, Machine.run_append_iff.mpr ⟨_, start, .step refused (.single delivered)⟩, rfl⟩

/-- A record that is always refused is delivered as often as the configuration says, with the
attempts in order, and then published to the dead letter topic once, if and only if it is not retried
at all, has no other attempt among its headers, and its dead letters are not consumed. -/
theorem retries_bounded_iff {retry deadLetter : String} (retryTopic : config.retryTopic = some retry)
    (deadLetterTopic : config.deadLetterTopic = some deadLetter) (fresh : message.attempt = 0) :
    (∀ sending : Sending, sending.Reads message.headers → ∀ events final,
        (recovery config message.topic).Run (.start config message sending) events final →
          final.Bounded config message.topic deadLetter) ↔
      config.maxRetries = 0 ∧
        (∀ attempt, headerAttempt message.headers = some attempt → attempt = 0) ∧
        deadLetter ≠ message.topic ∧ deadLetter ≠ retry := by
  constructor
  · intro bounded
    have reads := Sending.inOrder_reads message.headers
    generalize Sending.inOrder message.headers = sending at reads
    have bound := bounded sending reads
    -- the first delivery shows an attempt among the headers
    have zero : (publishWithResult config message sending).received.attempt = 0 :=
      UInt32.toNat_inj.mp ((bound _ _ (run_delivered config message sending)).numbered 0 _ rfl)
    have plain (attempt : UInt32) (holds : headerAttempt message.headers = some attempt) :
        attempt = 0 := by
      rw [attempt_received reads, holds] at zero
      exact zero
    have recovered := publishRecover_eq config (publishWithResult config message sending).received
      retryTopic deadLetterTopic
    rw [zero] at recovered
    have header := header_received config message sending
    generalize received : (publishWithResult config message sending).received = delivery at *
    by_cases retried : 0 < config.maxRetries
    · -- the second one has the same attempt as the first
      rw [if_pos retried] at recovered
      obtain ⟨next, recovered, headers, retries⟩ : ∃ next, publishRecover config delivery = some next ∧
          next.headers = delivery.headers ∧ next.topic = retry := ⟨_, recovered, rfl, rfl⟩
      subst received
      obtain ⟨events, final, run, delivered⟩ := run_delivered_twice recovered headers
        (by simp [consumed, retryTopic, publishWithResult, retries])
      have numbered := (bound events final run).numbered 1 _ (by rw [delivered]; rfl)
      rw [attempt_received (Sending.inOrder_reads _), headers, header, fresh] at numbered
      cases numbered
    · have never : config.maxRetries = 0 := by
        by_contra some
        exact retried (UInt32.pos_iff_ne_zero.mpr some)
      rw [if_neg retried] at recovered
      obtain ⟨next, recovered, headers, dead⟩ : ∃ next, publishRecover config delivery = some next ∧
          next.headers = delivery.headers ∧ next.topic = deadLetter := ⟨_, recovered, rfl, rfl⟩
      subst received
      -- a dead letter that is consumed is delivered once more
      have consumedTwice (inside : deadLetter = message.topic ∨ deadLetter = retry) : False := by
        obtain ⟨events, final, run, delivered⟩ := run_delivered_twice recovered headers
          (by simpa [consumed, retryTopic, publishWithResult, dead, config.topicName_inj] using inside)
        have few := (bound events final run).few
        rw [delivered, never] at few
        have twice : 2 ≤ 1 := few
        omega
      exact ⟨never, plain, fun same => consumedTwice (.inl same), fun same => consumedTwice (.inr same)⟩
  · rintro ⟨never, plain, apart⟩ _ reads _ final run
    obtain ⟨few, halved, once, settled⟩ :=
      attempts_halved retryTopic deadLetterTopic apart fresh plain reads run
    have single : final.delivered.length ≤ 1 := by
      rw [never] at few
      exact few
    refine ⟨Nat.le_add_left_of_le single, fun index delivered found => ?_, once,
      fun quiet => (settled quiet).2⟩
    have inside : index < final.delivered.length := (List.getElem?_eq_some_iff.mp found).1
    rw [halved index delivered found]
    omega

end Bound

namespace Sample

def config (maxRetries : UInt32) : KafkaConfig := ⟨"app", 1000, maxRetries, some "retry", some "dead"⟩

def order : KafkaRecord Unit := ⟨"orders", some "42", .collect _ [("x-trace-id", "a1")], (), 0⟩

/-- A delivery is refused that has the attempt among its headers. -/
def refuses (attempt : String) : CycleAction :=
  .nack 0 ⟨"", [(attemptHeader, attempt), ("x-trace-id", "a1")]⟩

/-- Each delivery is refused. -/
def refused : List CycleAction :=
  [.receive 0, refuses "0", .receive 0, refuses "1", .receive 0, refuses "1"]

end Sample

/-- With one retry a record is delivered three times, the second time with the attempt of the
first. -/
theorem attempt_delivered_twice :
    ((recovery (Sample.config 1) "orders").exec
        (.start (Sample.config 1) Sample.order (.inOrder Sample.order.headers)) Sample.refused).map
      (fun run => (run.1.delivered.map KafkaRecord.attempt, run.1.published.map WireRecord.topic)) =
        some ([0, 0, 1], ["app.orders", "app.retry", "app.retry", "app.dead"]) := by
  decide +kernel

theorem retries_bounded_iff_once :
    ∃ events final,
      (recovery (Sample.config 0) "orders").Run
        (.start (Sample.config 0) Sample.order (.inOrder Sample.order.headers)) events final ∧
      final.delivered.length = 1 ∧ final.Bounded (Sample.config 0) "orders" "dead" := by
  have run := run_delivered (Sample.config 0) Sample.order (.inOrder Sample.order.headers)
  refine ⟨_, _, run, rfl, ?_⟩
  refine (retries_bounded_iff rfl rfl rfl).mpr ⟨rfl, ?_, by decide, by decide⟩ _
    (Sending.inOrder_reads _) _ _ run
  intro attempt holds
  cases holds

end Roze.Kafka
