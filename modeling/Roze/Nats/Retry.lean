import Roze.Nats.Messages

/-!
# Retries on JetStream

A refused message is answered with Nak, so that the stream delivers it again, and then published
again, to the retry subject with the next attempt or to the dead letter subject. Both happen: the
stored message stays deliverable beside the new one, with its old attempt.
-/

namespace Roze.Nats

open Roze.Library Roze.Eventbus Roze.Mq Roze.Transaction List

structure NatsConfig where
  subjectPrefix : String
  maxRetries : UInt32
  retrySubject : Option String
  deadLetterSubject : Option String

def NatsConfig.subjectName (config : NatsConfig) (subject : String) : String :=
  if config.subjectPrefix.isEmpty then subject else config.subjectPrefix ++ "." ++ subject

def attemptHeader : String := "roze-attempt"

/-! ## The stream -/

/-- What the stream knows of a stored message: it was not delivered yet, it was delivered and not
answered, or it was answered with Nak. -/
inductive CopyState where
  | stored
  | outstanding
  | returned
deriving DecidableEq

/-- A message in the stream, under the subject that it was published to. -/
structure Copy (Payload : Type) where
  subject : String
  body : NatsMessage Payload
  deadLetter : Bool
  state : CopyState

/-- Nak gives a delivered message back to the stream. -/
def Copy.nak {Payload : Type} (copy : Copy Payload) : Copy Payload :=
  if copy.state = .outstanding then { copy with state := .returned } else copy

structure NatsJetStream (Payload : Type) where
  copies : List (Copy Payload)
  /-- Deliveries that were not answered, each with the place of its message in the stream. -/
  held : List (Nat × Message (EventContent Payload))
  /-- Messages that were answered with Nak and are to be recovered. -/
  recovering : List (Message (EventContent Payload))
  deadLetters : List (DeadLetterRecord (EventContent Payload))
  nextDeadLetterId : UInt64
  delivered : Nat
  nacked : Nat

/-- What is made up on a delivery: a trace id, the stamps of the event, and the order of the
headers. -/
structure Reading where
  traceId : String
  receipt : Receipt
  entries : List (String × String)

/-- What is made up on a publication: a trace id, and the time. -/
structure Writing where
  traceId : String
  nowMillis : UInt64

inductive JetStreamAction where
  /-- A consumer receives a message. -/
  | deliver (index : Nat) (reading : Reading)
  /-- A delivery is answered with Nak. -/
  | nak (index : Nat)
  /-- The message of such a delivery is recovered. -/
  | recover (index : Nat) (writing : Writing)

namespace NatsJetStream

variable {Payload : Type} (config : NatsConfig) (topic : String)

def new : NatsJetStream Payload := ⟨[], [], [], [], 1, 0, 0⟩

/-- What is published of a message, marked when it is a dead letter. -/
def publication (message : NatsMessage Payload) (attempt : UInt32) (traceId : String)
    (deadLetter : Bool) : Copy Payload :=
  let message := message.ensureTraceId traceId
  { subject := config.subjectName message.subject
    body := { message with headers := message.headers.insert (attemptHeader, toString attempt.toNat) }
    deadLetter
    state := .stored }

def publishNats (stream : NatsJetStream Payload) (message : NatsMessage Payload) (attempt : UInt32)
    (traceId : String) (deadLetter : Bool) : NatsJetStream Payload :=
  { stream with copies := stream.copies ++ [publication config message attempt traceId deadLetter] }

def pushDeadLetter (stream : NatsJetStream Payload) (message : Message (EventContent Payload))
    (reason : String) (nowMillis : UInt64) : NatsJetStream Payload :=
  { stream with
    nextDeadLetterId := stream.nextDeadLetterId + 1
    deadLetters := stream.deadLetters ++
      [{ id := stream.nextDeadLetterId
         originalTopic := message.topic
         reason
         failedAtMillis := nowMillis
         replayCount := 0
         message }] }

/-- The subject and the attempt of the next try, if there is one. -/
def retryOf (message : Message (EventContent Payload)) : Option (String × UInt32) :=
  let nextAttempt := saturatingAddU32 message.attempt 1
  if nextAttempt ≤ config.maxRetries then config.retrySubject.map (fun subject => (subject, nextAttempt))
  else none

def recoverMessage (stream : NatsJetStream Payload) (message : Message (EventContent Payload))
    (writing : Writing) : NatsJetStream Payload :=
  let stream := { stream with nacked := stream.nacked + 1 }
  match retryOf config message with
  | some (subject, attempt) =>
      stream.publishNats config (fromMqMessage { message with topic := subject, attempt }) attempt
        writing.traceId false
  | none =>
      let stream := stream.pushDeadLetter message "nack_max_attempts_exceeded" writing.nowMillis
      match config.deadLetterSubject with
      | some subject =>
          stream.publishNats config (fromMqMessage { message with topic := subject, attempt := 0 }) 0
            writing.traceId true
      | none => stream

/-- There are consumers on the subject of the message and on the retry subject. -/
def consumed (copy : Copy Payload) : Bool :=
  decide (copy.subject = config.subjectName topic) ||
    config.retrySubject.any (fun retry => copy.subject = config.subjectName retry)

/-- The attempt that a consumer reads. -/
def attemptOf (message : NatsMessage Payload) : UInt32 :=
  ((message.headers.get? attemptHeader).bind (fun text =>
    (parseUnsigned (2 ^ 32) text).map UInt32.ofNat)).getD 0

/-- The message that a consumer makes of what the stream delivers. -/
def forwarded (message : NatsMessage Payload) (reading : Reading) : Message (EventContent Payload) :=
  let message := message.ensureTraceId reading.traceId
  toMqMessage reading.receipt message reading.entries (attemptOf message)

def deliver (stream : NatsJetStream Payload) (index : Nat) (reading : Reading) :
    Option (NatsJetStream Payload) :=
  (stream.copies[index]?).bind (fun copy =>
    if consumed config topic copy ∧ copy.state ≠ .outstanding ∧
        reading.entries.Perm (copy.body.ensureTraceId reading.traceId).headers.values then
      some { stream with
        copies := stream.copies.set index { copy with state := .outstanding }
        held := stream.held ++ [(index, forwarded copy.body reading)]
        delivered := stream.delivered + 1 }
    else none)

def step (stream : NatsJetStream Payload) : JetStreamAction → Option (NatsJetStream Payload)
  | .deliver index reading => stream.deliver config topic index reading
  | .nak index =>
      (stream.held[index]?).map (fun delivery =>
        { stream with
          copies := stream.copies.modify delivery.1 Copy.nak
          held := stream.held.eraseIdx index
          recovering := stream.recovering ++ [delivery.2] })
  | .recover index writing =>
      (stream.recovering[index]?).map (fun message =>
        { stream with recovering := stream.recovering.eraseIdx index }.recoverMessage config message
          writing)

/-- Deliveries and refusals in any order. -/
def machine : Machine (NatsJetStream Payload) JetStreamAction Unit where
  step stream action := (stream.step config topic action).map (fun next => (next, ()))

/-- The message is published once. -/
def start (message : Message (EventContent Payload)) (traceId : String) : NatsJetStream Payload :=
  new.publishNats config (fromMqMessage message) message.attempt traceId false

/-- The number of copies that are deliverable and not dead letters. None is ever acknowledged. -/
def live (stream : NatsJetStream Payload) : Nat := stream.copies.countP (fun copy => !copy.deadLetter)

/-- What is asked of a message that is always refused: there is one copy of it besides dead letters,
it is delivered for the first attempt and for each retry at most, and recorded as a dead letter once
when all of these deliveries were refused. -/
structure Single (stream : NatsJetStream Payload) : Prop where
  live : stream.live ≤ 1
  few : stream.delivered ≤ config.maxRetries.toNat + 1
  once : stream.deadLetters.length ≤ 1
  recorded : config.maxRetries.toNat + 1 ≤ stream.nacked → stream.deadLetters.length = 1

/-- The step does not deliver a message that was answered with Nak, nor a dead letter, and recovers a
message only when there are no retries. -/
def mild (stream : NatsJetStream Payload) : JetStreamAction → Bool
  | .deliver index _ => (stream.copies[index]?).all (fun copy =>
      copy.state ≠ .returned && !copy.deadLetter)
  | .nak _ => true
  | .recover _ _ => config.maxRetries = 0

/-! ## What a recovery does -/

/-- A refused message is published again beside all copies, and otherwise recorded as a dead
letter. -/
theorem recoverMessage_spec (stream : NatsJetStream Payload) (message : Message (EventContent Payload))
    (writing : Writing) :
    ∃ added : List (Copy Payload),
      (stream.recoverMessage config message writing).copies = stream.copies ++ added ∧
      (stream.recoverMessage config message writing).held = stream.held ∧
      (stream.recoverMessage config message writing).recovering = stream.recovering ∧
      (stream.recoverMessage config message writing).delivered = stream.delivered ∧
      (stream.recoverMessage config message writing).nacked = stream.nacked + 1 ∧
      ((retryOf config message).isSome = true →
        added.countP (fun copy => !copy.deadLetter) = 1 ∧
          (stream.recoverMessage config message writing).deadLetters = stream.deadLetters) ∧
      ((retryOf config message).isSome = false →
        (∀ copy ∈ added, copy.deadLetter = true) ∧
          (stream.recoverMessage config message writing).deadLetters.length =
            stream.deadLetters.length + 1) := by
  rw [recoverMessage]
  cases retryOf config message with
  | some =>
    exact ⟨[_], rfl, rfl, rfl, rfl, rfl, fun _ => ⟨rfl, rfl⟩, nofun⟩
  | none =>
    cases config.deadLetterSubject with
    | some =>
      refine ⟨[_], rfl, rfl, rfl, rfl, rfl, nofun, fun _ => ⟨fun copy member => ?_, length_append⟩⟩
      rw [mem_singleton.mp member]
      rfl
    | none =>
      exact ⟨[], (append_nil _).symm, rfl, rfl, rfl, rfl, nofun,
        fun _ => ⟨nofun, length_append⟩⟩

variable {message : Message (EventContent Payload)} {retry : String}

/-- There is a next try for the first attempt exactly when there are retries. -/
theorem retryOf_first (retrySubject : config.retrySubject = some retry)
    (first : message.attempt = 0) :
    (retryOf config message).isSome = true ↔ config.maxRetries ≠ 0 := by
  rw [retryOf, first, retrySubject]
  have next : saturatingAddU32 0 1 ≤ config.maxRetries ↔ config.maxRetries ≠ 0 := by
    rw [UInt32.le_iff_toNat_le, saturatingAddU32_toNat, ne_eq, ← UInt32.toNat_inj]
    grind
  simp_all

theorem retryOf_none (message : Message (EventContent Payload)) (none : config.maxRetries = 0) :
    (retryOf config message).isSome = false := by
  have beyond : ¬ saturatingAddU32 message.attempt 1 ≤ config.maxRetries := by
    rw [none, UInt32.le_iff_toNat_le, saturatingAddU32_toNat]
    simp
  rw [retryOf, if_neg beyond]
  rfl

/-! ## Runs without retries and redeliveries -/

/-- The number of messages that were not delivered yet, besides dead letters. -/
def fresh (stream : NatsJetStream Payload) : Nat :=
  stream.copies.countP (fun copy => !copy.deadLetter && copy.state = .stored)

/-- The one copy is delivered once, and the delivery is in one place. -/
structure Calm (stream : NatsJetStream Payload) : Prop where
  live : stream.live = 1
  fresh : stream.fresh + stream.delivered = 1
  placed : stream.held.length + stream.recovering.length + stream.nacked = stream.delivered
  recorded : stream.deadLetters.length = stream.nacked
  retries : stream.nacked = 0 ∨ config.maxRetries = 0

theorem Calm.start (message : Message (EventContent Payload)) (traceId : String) :
    (NatsJetStream.start config message traceId).Calm config :=
  ⟨rfl, rfl, rfl, rfl, .inl rfl⟩

variable {config topic}

variable {stream : NatsJetStream Payload}

theorem Calm.single (calm : stream.Calm config) : stream.Single config := by
  have placed := calm.placed
  have fresh := calm.fresh
  have recorded := calm.recorded
  exact ⟨calm.live.le, by omega, by omega, fun _ => by omega⟩

theorem countP_modify {Value : Type} {chosen : Value → Bool} {change : Value → Value}
    (same : ∀ value, chosen (change value) = chosen value) (values : List Value) (index : Nat) :
    (values.modify index change).countP chosen = values.countP chosen := by
  induction values generalizing index with
  | nil => rw [modify_nil]
  | cons value rest ih => grind

/-- A delivery that is not a redelivery. -/
theorem Calm.deliver {next : NatsJetStream Payload} {index : Nat} {reading : Reading}
    (calm : stream.Calm config) (taken : stream.deliver config topic index reading = some next)
    (mild : stream.mild config (.deliver index reading) = true) : next.Calm config := by
  obtain ⟨copy, found, delivers⟩ := Option.bind_eq_some_iff.mp taken
  obtain ⟨ready, rfl⟩ := of_guard delivers
  rw [NatsJetStream.mild, found, Option.all_some, Bool.and_eq_true, decide_eq_true_eq] at mild
  obtain ⟨bound, same⟩ := List.getElem?_eq_some_iff.mp found
  have unsent : copy.state = .stored := by
    cases state : copy.state with
    | stored => rfl
    | outstanding => exact absurd state ready.2.1
    | returned => exact absurd state mild.1
  have ordinary : copy.deadLetter = false := by simpa using mild.2
  have counted : 0 < stream.fresh := by
    refine countP_pos_iff.mpr ⟨copy, mem_of_getElem? found, ?_⟩
    rw [ordinary, unsent]
    rfl
  have unsentOnly := calm.fresh
  refine ⟨?_, ?_, ?_, calm.recorded, calm.retries⟩
  · have one := calm.live
    rw [NatsJetStream.live] at one ⊢
    grind
  · rw [NatsJetStream.fresh] at counted unsentOnly ⊢
    grind
  · have placed := calm.placed
    grind

theorem Copy.nak_deadLetter (copy : Copy Payload) : copy.nak.deadLetter = copy.deadLetter := by
  rw [Copy.nak]
  split <;> rfl

theorem Copy.nak_stored (copy : Copy Payload) :
    decide (copy.nak.state = .stored) = decide (copy.state = .stored) := by
  rw [Copy.nak]
  grind

theorem Calm.step {next : NatsJetStream Payload} {action : JetStreamAction}
    (calm : stream.Calm config) (taken : stream.step config topic action = some next)
    (mild : stream.mild config action = true) : next.Calm config := by
  cases action with
  | deliver => exact calm.deliver taken mild
  | nak index =>
    obtain ⟨_, found, rfl⟩ := Option.map_eq_some_iff.mp taken
    have bound : index < stream.held.length := (List.getElem?_eq_some_iff.mp found).1
    refine ⟨?_, ?_, ?_, calm.recorded, calm.retries⟩
    · rw [← calm.live]
      exact countP_modify (fun copy => by rw [Copy.nak_deadLetter]) _ _
    · rw [← calm.fresh]
      congr 1
      exact countP_modify (fun copy => by rw [Copy.nak_deadLetter, Copy.nak_stored]) _ _
    · have placed := calm.placed
      grind
  | recover index writing =>
    have none : config.maxRetries = 0 := of_decide_eq_true mild
    obtain ⟨message, found, rfl⟩ := Option.map_eq_some_iff.mp taken
    have bound : index < stream.recovering.length := (List.getElem?_eq_some_iff.mp found).1
    obtain ⟨added, copies, held, recovering, delivered, nacked, -, dead⟩ := recoverMessage_spec config
      { stream with recovering := stream.recovering.eraseIdx index } message writing
    obtain ⟨allDead, recorded⟩ := dead (retryOf_none config message none)
    refine ⟨?_, ?_, ?_, ?_, .inr none⟩
    · have uncounted : added.countP (fun copy => !copy.deadLetter) = 0 :=
        countP_eq_zero.mpr fun copy member => by simp [allDead copy member]
      rw [NatsJetStream.live, copies, countP_append, uncounted]
      exact calm.live
    · have uncounted : added.countP (fun copy => !copy.deadLetter && copy.state = .stored) = 0 :=
        countP_eq_zero.mpr fun copy member => by simp [allDead copy member]
      rw [NatsJetStream.fresh, copies, countP_append, delivered, uncounted]
      exact calm.fresh
    · have placed := calm.placed
      rw [held, recovering, delivered, nacked, length_eraseIdx_of_lt bound]
      dsimp only
      omega
    · rw [recorded, nacked]
      exact congrArg (· + 1) calm.recorded

/-! ## Redeliveries -/

/-- The message is still in the stream as it was published, and was delivered and refused a number of
times. Each time there is one copy more, or one dead letter more. -/
structure Again (stream : NatsJetStream Payload) (config : NatsConfig) (topic : String) (count : Nat) :
    Prop where
  stored : ∃ copy rest, stream.copies = copy :: rest ∧ copy.subject = config.subjectName topic ∧
    copy.state ≠ .outstanding ∧ ∀ reading, (forwarded copy.body reading).attempt = 0
  held : stream.held = []
  recovering : stream.recovering = []
  delivered : stream.delivered = count
  multiplied : config.maxRetries ≠ 0 → stream.live = count + 1
  recorded : config.maxRetries = 0 → stream.deadLetters.length = count

theorem Again.start (fresh : message.attempt = 0) (traceId : String) :
    (NatsJetStream.start config message traceId).Again config message.topic 0 where
  stored := by
    refine ⟨_, [], rfl, rfl, nofun, fun reading => ?_⟩
    -- the attempt of a publication is the one that a consumer reads
    have other : Context.traceIdHeader ≠ attemptHeader := by decide
    change attemptOf _ = 0
    rw [attemptOf, NatsMessage.ensureTraceId, get?_ensureTraceId other, publication,
      StringMap.get?_insert, if_pos rfl, Option.bind_some,
      parseUnsigned_toString message.attempt.toNat_lt, Option.map_some, Option.getD_some,
      UInt32.ofNat_toNat, fresh]
  held := rfl
  recovering := rfl
  delivered := rfl
  multiplied _ := rfl
  recorded _ := rfl

/-- The message is delivered and refused once more. -/
theorem Again.round {count : Nat} (retrySubject : config.retrySubject = some retry)
    (again : stream.Again config topic count) :
    ∃ events next, (machine config topic).Run stream events next ∧ next.Again config topic (count + 1) := by
  obtain ⟨⟨copy, rest, copies, subject, ready, first⟩, held, recovering, delivered, multiplied, recorded⟩ :=
    again
  obtain ⟨_, _, _, deadLetters, nextDeadLetterId, total, nacked⟩ := stream
  subst copies held recovering delivered
  let reading : Reading := ⟨"", ⟨⟨"", 0⟩, 0⟩, (copy.body.ensureTraceId "").headers.values⟩
  generalize made : forwarded copy.body reading = message
  have attempt : message.attempt = 0 := made ▸ first reading
  have inside : consumed config topic copy = true := by
    rw [consumed, subject, decide_eq_true rfl, Bool.true_or]
  have delivers : (machine config topic).step
      ⟨copy :: rest, [], [], deadLetters, nextDeadLetterId, total, nacked⟩ (.deliver 0 reading) =
        some (⟨{ copy with state := .outstanding } :: rest, [(0, message)], [], deadLetters,
          nextDeadLetterId, total + 1, nacked⟩, ()) := by
    change Option.map _ (if consumed config topic copy ∧ _ ∧ _ then _ else _) = _
    grind
  have returns : (machine config topic).step
      ⟨{ copy with state := .outstanding } :: rest, [(0, message)], [], deadLetters, nextDeadLetterId,
        total + 1, nacked⟩ (.nak 0) =
        some (⟨{ copy with state := .returned } :: rest, [], [message], deadLetters, nextDeadLetterId,
          total + 1, nacked⟩, ()) := rfl
  let refused : NatsJetStream Payload := ⟨{ copy with state := .returned } :: rest, [], [], deadLetters,
    nextDeadLetterId, total + 1, nacked⟩
  have recovers : (machine config topic).step
      ⟨{ copy with state := .returned } :: rest, [], [message], deadLetters, nextDeadLetterId,
        total + 1, nacked⟩ (.recover 0 ⟨"", 0⟩) =
        some (refused.recoverMessage config message ⟨"", 0⟩, ()) := rfl
  refine ⟨_, _, .step delivers (.step returns (.single recovers)), ?_⟩
  obtain ⟨added, copies, held, recovering, delivered, -, retried, dead⟩ :=
    recoverMessage_spec config refused message ⟨"", 0⟩
  have retries := retryOf_first config retrySubject attempt
  refine ⟨⟨{ copy with state := .returned }, rest ++ added, copies, subject, nofun, first⟩, held,
    recovering, delivered, fun some => ?_, fun none => ?_⟩
  · rw [NatsJetStream.live, copies, countP_append, (retried (retries.mpr some)).1]
    exact congrArg (· + 1) (multiplied some)
  · have last : (retryOf config message).isSome = false := retryOf_none config message none
    rw [(dead last).2]
    exact congrArg (· + 1) (recorded none)

/-- A refused message is delivered any number of times. With retries each refusal adds a copy of it,
without them each one adds a dead letter. -/
theorem redelivered_forever (retrySubject : config.retrySubject = some retry)
    (fresh : message.attempt = 0) (traceId : String) (count : Nat) :
    ∃ events final, (machine config message.topic).Run (.start config message traceId) events final ∧
      final.Again config message.topic count := by
  induction count with
  | zero => exact ⟨[], _, .done _, .start fresh traceId⟩
  | succ count ih =>
    obtain ⟨before, state, run, again⟩ := ih
    obtain ⟨after, next, more, round⟩ := again.round retrySubject
    exact ⟨before ++ after, next, Machine.run_append_iff.mpr ⟨state, run, more⟩, round⟩

/-- In a run in which no message is delivered again and nothing is retried there is one copy of the
message in every state, and it is delivered and recorded as asked. But each configuration with a retry
subject has runs in which this fails. -/
theorem retries_keep_one_copy {message : Message (EventContent Payload)} {retry : String}
    (retrySubject : config.retrySubject = some retry) (fresh : message.attempt = 0) (traceId : String) :
    (∀ events : List (JetStreamAction × Unit),
      (machine config message.topic).Along (fun stream action _ _ => stream.mild config action = true)
        (.start config message traceId) events →
      (machine config message.topic).Throughout (Single config) (.start config message traceId) events) ∧
    ∃ events final, (machine config message.topic).Run (.start config message traceId) events final ∧
      ¬ final.Single config := by
  constructor
  · intro events mild before after state split run
    rw [split] at mild
    have calm : state.Calm config := by
      refine run.invariant_along mild.first (Calm.start config message traceId) ?_
      intro stream action output next calm taken gentle
      exact calm.step (Machine.of_map_unit taken) gentle
    exact calm.single
  · obtain ⟨events, final, run, again⟩ :=
      redelivered_forever retrySubject fresh traceId (config.maxRetries.toNat + 2)
    refine ⟨events, final, run, fun single => ?_⟩
    have few := single.few
    rw [again.delivered] at few
    omega

end NatsJetStream

namespace Sample

def config (maxRetries : UInt32) : NatsConfig := ⟨"", maxRetries, some "retry", some "dead"⟩

def order : Message (EventContent Unit) := fromEventEnvelope 0 (event ("note", "1") ("traceparent", "00-1"))

def start (maxRetries : UInt32) : NatsJetStream Unit := .start (config maxRetries) order "t1"

/-- A message is delivered, with its headers in ascending order, and refused. -/
def refused (index : Nat) (stream : NatsJetStream Unit) : List JetStreamAction :=
  [.deliver index ⟨"t2", ⟨⟨"evt-2", 0⟩, 0⟩, ((stream.copies[index]?).map (fun copy =>
    (copy.body.ensureTraceId "t2").headers.values)).getD []⟩, .nak 0, .recover 0 ⟨"t3", 0⟩]

/-- The messages at some places in the stream are delivered and refused one after the other. -/
def refuse (maxRetries : UInt32) : List Nat → NatsJetStream Unit → Option (NatsJetStream Unit)
  | [], stream => some stream
  | index :: rest, stream =>
      ((NatsJetStream.machine (config maxRetries) "orders").exec stream (refused index stream)).bind
        (fun run => refuse maxRetries rest run.1)

end Sample

/-- With one retry, there are two copies after the first refusal, and after four deliveries there are
two dead letters. Without retries the message is delivered and recorded twice. -/
theorem refused_message_multiplied :
    (Sample.refuse 1 [0] (Sample.start 1)).map NatsJetStream.live = some 2 ∧
      (Sample.refuse 1 [0, 0, 1, 2] (Sample.start 1)).map (fun stream =>
        (stream.delivered, stream.deadLetters.length)) = some (4, 2) ∧
      (Sample.refuse 0 [0, 0] (Sample.start 0)).map (fun stream =>
        (stream.delivered, stream.deadLetters.length)) = some (2, 2) := by
  decide +kernel

theorem retries_keep_one_copy_once :
    ∃ final events, (NatsJetStream.machine (Sample.config 0) "orders").exec (Sample.start 0)
        (Sample.refused 0 (Sample.start 0)) = some (final, events) ∧
      final.deadLetters.length = 1 ∧
      (NatsJetStream.machine (Sample.config 0) "orders").Throughout
        (NatsJetStream.Single (Sample.config 0)) (Sample.start 0) events := by
  have last : ((NatsJetStream.machine (Sample.config 0) "orders").exec (Sample.start 0)
      (Sample.refused 0 (Sample.start 0))).map (fun run => run.1.deadLetters.length) = some 1 := by
    decide +kernel
  obtain ⟨⟨final, events⟩, executed, recorded⟩ := Option.map_eq_some_iff.mp last
  have kept := @NatsJetStream.retries_keep_one_copy Unit (Sample.config 0) Sample.order "retry" rfl rfl "t1"
  exact ⟨final, events, executed, recorded,
    kept.1 events (Machine.along_of_checks executed (by decide +kernel))⟩

end Roze.Nats
