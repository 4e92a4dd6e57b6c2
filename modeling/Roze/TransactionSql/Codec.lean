import Roze.Transaction.Outbox

/-!
# Rows of the SQL outbox

A message is stored as eleven column values. Two paths bind them: `encode_message`
for SeaORM and the insert loop for Toasty. Both check the timestamps against the
range of BIGINT; only the second checks the attempts against the range of INTEGER,
the first casts. `decode_message` reads a row back and refuses negative numbers and
unknown status names.

JSON texts come from a library. What is used of it is a printer and a parser for
headers and payloads in which a printed text parses to what was printed.
-/

namespace Roze.TransactionSql

open Roze.Library Roze.Transaction

variable {Payload : Type}

/-- The JSON printers and parsers, which invert what they print. -/
structure JsonCodec (Payload : Type) where
  headersToString : Headers → Except String String
  headersFromStr : String → Except String Headers
  payloadToString : Payload → Except String String
  payloadFromStr : String → Except String Payload
  headersInverse : ∀ headers text,
    headersToString headers = .ok text → headersFromStr text = .ok headers
  payloadInverse : ∀ payload text,
    payloadToString payload = .ok text → payloadFromStr text = .ok payload

/-- A value bound to a placeholder; nothing is NULL. -/
inductive SqlValue where
  | text (value : Option String)
  | int (value : Option Int32)
  | bigInt (value : Option Int64)
deriving DecidableEq

/-- A row of the outbox table, with the columns and the NULLs its schema allows. -/
structure SqlRow where
  id : String
  topic : String
  messageKey : Option String
  headersJson : String
  idempotencyKey : String
  payloadJson : String
  status : String
  attempts : Int32
  nextAttemptMillis : Option Int64
  leaseUntilMillis : Option Int64
  lastError : Option String
deriving DecidableEq

/-- The row that an insert of the eleven column values creates. -/
def SqlRow.ofValues : List SqlValue → Option SqlRow
  | [.text (some id), .text (some topic), .text messageKey, .text (some headersJson),
      .text (some idempotencyKey), .text (some payloadJson), .text (some status),
      .int (some attempts), .bigInt nextAttemptMillis, .bigInt leaseUntilMillis,
      .text lastError] =>
      some { id, topic, messageKey, headersJson, idempotencyKey, payloadJson, status, attempts,
             nextAttemptMillis, leaseUntilMillis, lastError }
  | _ => none

def statusName : OutboxStatus → String
  | .pending => "pending"
  | .publishing => "publishing"
  | .published => "published"
  | .failed => "failed"

def parseStatus (value : String) : Except String OutboxStatus :=
  if value = "pending" then .ok .pending
  else if value = "publishing" then .ok .publishing
  else if value = "published" then .ok .published
  else if value = "failed" then .ok .failed
  else .error "unknown SQL outbox status"

def millisToI64 (value : UInt64) : Except String Int64 :=
  match tryI64FromU64 value with
  | some millis => .ok millis
  | none => .error "outbox timestamp exceeds SQL BIGINT"

def i64ToMillis (value : Int64) : Except String UInt64 :=
  match tryU64FromI64 value with
  | some millis => .ok millis
  | none => .error "outbox timestamp must not be negative"

/-- The checked conversion of the attempts, in the Toasty path only. -/
def attemptsToI32 (value : UInt32) : Except String Int32 :=
  match tryI32FromU32 value with
  | some attempts => .ok attempts
  | none => .error "outbox attempts exceeds SQL INTEGER"

def i32ToAttempts (value : Int32) : Except String UInt32 :=
  match tryU32FromI32 value with
  | some attempts => .ok attempts
  | none => .error "outbox attempts must not be negative"

/-- Convert a value that may be missing. -/
def transpose {Source Target : Type} (convert : Source → Except String Target) :
    Option Source → Except String (Option Target)
  | none => .ok none
  | some value => (convert value).map some

def encodeMessage (codec : JsonCodec Payload) (message : OutboxMessage Payload) :
    Except String (List SqlValue) := do
  let headers ← codec.headersToString message.headers
  let payload ← codec.payloadToString message.payload
  let nextAttempt ← transpose millisToI64 message.nextAttemptMillis
  let leaseUntil ← transpose millisToI64 message.leaseUntilMillis
  return [.text (some message.id), .text (some message.topic), .text message.key,
    .text (some headers), .text (some message.idempotencyKey), .text (some payload),
    .text (some (statusName message.status)), .int (some message.attempts.toInt32),
    .bigInt nextAttempt, .bigInt leaseUntil, .text message.lastError]

/-- The values that `enqueue_with_toasty` binds for one message. -/
def toastyValues (codec : JsonCodec Payload) (message : OutboxMessage Payload) :
    Except String (List SqlValue) := do
  let attempts ← attemptsToI32 message.attempts
  let nextAttempt ← transpose millisToI64 message.nextAttemptMillis
  let leaseUntil ← transpose millisToI64 message.leaseUntilMillis
  let headers ← codec.headersToString message.headers
  let payload ← codec.payloadToString message.payload
  return [.text (some message.id), .text (some message.topic), .text message.key,
    .text (some headers), .text (some message.idempotencyKey), .text (some payload),
    .text (some (statusName message.status)), .int (some attempts),
    .bigInt nextAttempt, .bigInt leaseUntil, .text message.lastError]

def decodeMessage (codec : JsonCodec Payload) (row : SqlRow) :
    Except String (OutboxMessage Payload) := do
  let headers ← codec.headersFromStr row.headersJson
  let payload ← codec.payloadFromStr row.payloadJson
  let status ← parseStatus row.status
  let attempts ← i32ToAttempts row.attempts
  let nextAttemptMillis ← transpose i64ToMillis row.nextAttemptMillis
  let leaseUntilMillis ← transpose i64ToMillis row.leaseUntilMillis
  return { id := row.id, topic := row.topic, key := row.messageKey, headers := headers,
           idempotencyKey := row.idempotencyKey, payload := payload, status := status,
           attempts := attempts, nextAttemptMillis := nextAttemptMillis,
           leaseUntilMillis := leaseUntilMillis, lastError := row.lastError }

/-! ## What each direction accepts -/

theorem parseStatus_statusName (status : OutboxStatus) :
    parseStatus (statusName status) = .ok status := by
  cases status <;> decide

theorem millisToI64_of_lt {value : UInt64} (small : value.toNat < 2 ^ 63) :
    millisToI64 value = .ok value.toInt64 := by
  rw [millisToI64, tryI64FromU64, if_pos small]

theorem millisToI64_of_not_lt {value : UInt64} (large : ¬ value.toNat < 2 ^ 63) :
    millisToI64 value = .error "outbox timestamp exceeds SQL BIGINT" := by
  rw [millisToI64, tryI64FromU64, if_neg large]

/-- The conversion of an optional timestamp succeeds exactly when a present one is in
the range of BIGINT. -/
theorem transpose_millis_ok_iff {value : Option UInt64} :
    (∃ millis, transpose millisToI64 value = .ok millis) ↔
      ∀ time, value = some time → time.toNat < 2 ^ 63 := by
  cases value with
  | none => simp [transpose]
  | some time =>
    constructor
    · rintro ⟨_, converted⟩ _ same
      cases same
      by_contra large
      rw [transpose, millisToI64_of_not_lt large] at converted
      cases converted
    · intro small
      exact ⟨_, by rw [transpose, millisToI64_of_lt (small time rfl), Except.map]⟩

/-- A stored timestamp is read back. -/
theorem transpose_millis_inverse {value : Option UInt64} {millis : Option Int64}
    (stored : transpose millisToI64 value = .ok millis) :
    transpose i64ToMillis millis = .ok value := by
  cases value with
  | none =>
    cases stored
    rfl
  | some time =>
    simp only [transpose, millisToI64] at stored
    cases converted : tryI64FromU64 time with
    | none => simp [converted, Except.map] at stored
    | some =>
      simp only [converted, Except.map, Except.ok.injEq] at stored
      subst stored
      simp [transpose, i64ToMillis, tryU64FromI64_tryI64FromU64 converted, Except.map]

/-- The message can be written: its JSON texts exist and its timestamps are in range. -/
def Representable (codec : JsonCodec Payload) (message : OutboxMessage Payload) : Prop :=
  (∃ text, codec.headersToString message.headers = .ok text) ∧
    (∃ text, codec.payloadToString message.payload = .ok text) ∧
    (∀ time, message.nextAttemptMillis = some time → time.toNat < 2 ^ 63) ∧
    ∀ time, message.leaseUntilMillis = some time → time.toNat < 2 ^ 63

/-- The row a written message has, for an attempts column and its texts and times. -/
def rowOf (message : OutboxMessage Payload) (headers payload : String) (attempts : Int32)
    (nextAttempt leaseUntil : Option Int64) : SqlRow where
  id := message.id
  topic := message.topic
  messageKey := message.key
  headersJson := headers
  idempotencyKey := message.idempotencyKey
  payloadJson := payload
  status := statusName message.status
  attempts := attempts
  nextAttemptMillis := nextAttempt
  leaseUntilMillis := leaseUntil
  lastError := message.lastError

variable {codec : JsonCodec Payload} {message : OutboxMessage Payload}

/-- `encode_message` accepts every representable message, whatever its attempts; the
row holds their bits. -/
theorem encodeMessage_ok {values : List SqlValue}
    (encoded : encodeMessage codec message = .ok values) :
    ∃ headers payload nextAttempt leaseUntil,
      codec.headersToString message.headers = .ok headers ∧
      codec.payloadToString message.payload = .ok payload ∧
      transpose millisToI64 message.nextAttemptMillis = .ok nextAttempt ∧
      transpose millisToI64 message.leaseUntilMillis = .ok leaseUntil ∧
      SqlRow.ofValues values =
        some (rowOf message headers payload message.attempts.toInt32 nextAttempt leaseUntil) := by
  simp only [encodeMessage, bind_eq_ok_iff] at encoded
  obtain ⟨headers, headersText, payload, payloadText, nextAttempt, nextStored, leaseUntil,
    leaseStored, built⟩ := encoded
  cases built
  exact ⟨headers, payload, nextAttempt, leaseUntil, headersText, payloadText, nextStored,
    leaseStored, rfl⟩

theorem encodeMessage_ok_iff :
    (∃ values, encodeMessage codec message = .ok values) ↔ Representable codec message := by
  rw [Representable, ← transpose_millis_ok_iff, ← transpose_millis_ok_iff]
  constructor
  · rintro ⟨_, encoded⟩
    obtain ⟨headers, payload, nextAttempt, leaseUntil, headersText, payloadText, nextStored,
      leaseStored, _⟩ := encodeMessage_ok encoded
    simp_all
  · rintro ⟨⟨headers, headersText⟩, ⟨payload, payloadText⟩, ⟨nextAttempt, nextStored⟩,
      ⟨leaseUntil, leaseStored⟩⟩
    simp only [encodeMessage, bind_eq_ok_iff]
    exact ⟨_, headers, headersText, payload, payloadText, nextAttempt, nextStored, leaseUntil,
      leaseStored, rfl⟩

/-- The Toasty path binds the values of `encode_message`, but refuses attempts beyond
the range of INTEGER. -/
theorem toastyValues_ok_iff {values : List SqlValue} :
    toastyValues codec message = .ok values ↔
      message.attempts.toNat < 2 ^ 31 ∧ encodeMessage codec message = .ok values := by
  simp only [toastyValues, encodeMessage, bind_eq_ok_iff]
  constructor
  · rintro ⟨attempts, checked, nextAttempt, nextStored, leaseUntil, leaseStored, headers,
      headersText, payload, payloadText, built⟩
    rw [attemptsToI32, tryI32FromU32] at checked
    split at checked
    · simp_all
    · cases checked
  · rintro ⟨small, headers, headersText, payload, payloadText, nextAttempt, nextStored,
      leaseUntil, leaseStored, built⟩
    refine ⟨message.attempts.toInt32, ?_, nextAttempt, nextStored, leaseUntil, leaseStored,
      headers, headersText, payload, payloadText, built⟩
    rw [attemptsToI32, tryI32FromU32, if_pos small]

/-- A row with the bits of the message's attempts is read back as the message, unless
these bits are a negative number. -/
theorem decodeMessage_rowOf {headers payload : String} {nextAttempt leaseUntil : Option Int64}
    (headersText : codec.headersToString message.headers = .ok headers)
    (payloadText : codec.payloadToString message.payload = .ok payload)
    (nextStored : transpose millisToI64 message.nextAttemptMillis = .ok nextAttempt)
    (leaseStored : transpose millisToI64 message.leaseUntilMillis = .ok leaseUntil) :
    decodeMessage codec
        (rowOf message headers payload message.attempts.toInt32 nextAttempt leaseUntil) =
      if message.attempts.toNat < 2 ^ 31 then .ok message
      else .error "outbox attempts must not be negative" := by
  have attempts : i32ToAttempts message.attempts.toInt32 =
      if message.attempts.toNat < 2 ^ 31 then .ok message.attempts
      else .error "outbox attempts must not be negative" := by
    rw [i32ToAttempts, tryU32FromI32_cast]
    grind
  simp only [decodeMessage, rowOf, codec.headersInverse _ _ headersText,
    codec.payloadInverse _ _ payloadText, parseStatus_statusName, attempts,
    transpose_millis_inverse nextStored, transpose_millis_inverse leaseStored]
  split <;> rfl

/-- The two directions and the two insert paths agree on a message: what
`encode_message` accepts is read back as it was, and the Toasty path accepts the same
messages and binds the same values. -/
structure CodecAgrees (codec : JsonCodec Payload) (message : OutboxMessage Payload) : Prop where
  decodes : ∀ values, encodeMessage codec message = .ok values →
    ∃ row, SqlRow.ofValues values = some row ∧ decodeMessage codec row = .ok message
  sameAccepted : (∃ values, encodeMessage codec message = .ok values) ↔
    ∃ values, toastyValues codec message = .ok values
  sameValues : ∀ values bound, encodeMessage codec message = .ok values →
    toastyValues codec message = .ok bound → values = bound

/-- The paths agree exactly on the messages whose attempts fit into INTEGER, and on
those that cannot be written at all. -/
theorem codecAgrees_iff (codec : JsonCodec Payload) (message : OutboxMessage Payload) :
    CodecAgrees codec message ↔
      message.attempts.toNat < 2 ^ 31 ∨ ¬ Representable codec message := by
  constructor
  · intro agrees
    by_cases representable : Representable codec message
    · obtain ⟨values, bound⟩ := agrees.sameAccepted.mp (encodeMessage_ok_iff.mpr representable)
      exact .inl (toastyValues_ok_iff.mp bound).1
    · exact .inr representable
  · rintro (small | unrepresentable)
    · refine ⟨?_, by simp only [toastyValues_ok_iff, small, true_and], ?_⟩
      · intro values encoded
        obtain ⟨headers, payload, nextAttempt, leaseUntil, headersText, payloadText, nextStored,
          leaseStored, row⟩ := encodeMessage_ok encoded
        refine ⟨_, row, ?_⟩
        rw [decodeMessage_rowOf headersText payloadText nextStored leaseStored, if_pos small]
      · intro values bound encoded inserted
        exact Except.ok.inj (encoded.symm.trans (toastyValues_ok_iff.mp inserted).2)
    · have refused : ∀ values, encodeMessage codec message ≠ .ok values := fun values encoded =>
        unrepresentable (encodeMessage_ok_iff.mp ⟨values, encoded⟩)
      exact ⟨fun values encoded => absurd encoded (refused values),
        by simp [toastyValues_ok_iff, refused],
        fun values _ encoded => absurd encoded (refused values)⟩

/-- JSON of a payload without content and of headers without entries. -/
def nullCodec : JsonCodec Unit where
  headersToString headers := if headers.values = [] then .ok "\x7b\x7d" else .error "unsupported"
  headersFromStr text := if text = "\x7b\x7d" then .ok (KeyedMap.empty _) else .error "unsupported"
  payloadToString _ := .ok "null"
  payloadFromStr _ := .ok ()
  headersInverse headers text printed := by
    split at printed
    · rename_i none
      cases printed
      rw [if_pos rfl]
      exact congrArg Except.ok (KeyedMap.ext none.symm)
    · cases printed
  payloadInverse _ _ _ := rfl

/-- A message with `2 ^ 31` attempts is stored, cannot be read back, and is refused by
the Toasty path. -/
theorem codec_disagrees_on_large_attempts :
    let message := { OutboxMessage.new "msg-1" "orders" "order-1" () with attempts := 2147483648 }
    (∃ values row, encodeMessage nullCodec message = .ok values ∧
        SqlRow.ofValues values = some row ∧ row.attempts = -2147483648 ∧
        decodeMessage nullCodec row = .error "outbox attempts must not be negative") ∧
      toastyValues nullCodec message = .error "outbox attempts exceeds SQL INTEGER" ∧
      ¬ CodecAgrees nullCodec message := by
  intro message
  have refused : toastyValues nullCodec message = .error "outbox attempts exceeds SQL INTEGER" := rfl
  refine ⟨⟨_, _, rfl, rfl, rfl, rfl⟩, refused, fun agrees => ?_⟩
  obtain ⟨_, bound⟩ := agrees.sameAccepted.mp ⟨_, rfl⟩
  cases bound

end Roze.TransactionSql
