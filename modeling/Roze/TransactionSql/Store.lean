import Roze.TransactionSql.Codec

/-!
# The SQL outbox store

The table is a keyed map of rows. Each SQL statement of the store is one operation
on it: the guard of an UPDATE chooses the rows, its SET clause is the change. A
claim selects, decodes and updates inside one transaction, so an error leaves the
table as it was. `mark_failed` is two statements: it reads the row, computes the
values to bind, and updates the row only while it is still being published.

Rows are compared by id in code point order. The SQL text, the two dialects, the
notifier and the metrics have no part in the stored state and are left out.
-/

namespace Roze.TransactionSql

open Roze.Library Roze.Transaction KeyedMap List

variable {Payload : Type}

/-- The configuration of a store; the constructor refuses zero attempts. -/
structure SqlOutboxConfig where
  maxAttempts : UInt32
  positive : 0 < maxAttempts

namespace SqlOutboxConfig

def default : SqlOutboxConfig where
  maxAttempts := 16
  positive := by decide

def withConfig (maxAttempts : UInt32) : Except String SqlOutboxConfig :=
  if positive : 0 < maxAttempts then .ok ⟨maxAttempts, positive⟩
  else .error "SQL outbox max_attempts must be positive"

end SqlOutboxConfig

/-- The row limit of a query, between one and ten thousand. -/
def clampLimit (limit : Nat) : Nat := min (max limit 1) 10000

namespace SqlRow

/-- The WHERE clause of a claim. -/
def claimable (now : Int64) (row : SqlRow) : Bool :=
  ((row.status = "pending" || row.status = "failed") &&
      (row.nextAttemptMillis.map (fun next => decide (next ≤ now))).getD true) ||
    (row.status = "publishing" &&
      (row.leaseUntilMillis.map (fun lease => decide (lease ≤ now))).getD true)

/-- The WHERE clause of the dead-letter query. -/
def deadLetter (config : SqlOutboxConfig) (row : SqlRow) : Bool :=
  row.status = "failed" && decide ((config.maxAttempts.toNat : Int) ≤ row.attempts.toInt)

/-- The WHERE clause of an update of one row with a given status. -/
def isIn (id status : String) (row : SqlRow) : Bool :=
  row.id = id && row.status = status

def setPublishing (lease : Int64) (row : SqlRow) : SqlRow :=
  { row with status := "publishing", leaseUntilMillis := some lease }

def setPublished (row : SqlRow) : SqlRow :=
  { row with
    status := "published"
    nextAttemptMillis := none
    leaseUntilMillis := none
    lastError := none }

def setFailed (attempts : Int32) (nextAttempt : Option Int64) (error : String) (row : SqlRow) :
    SqlRow :=
  { row with
    status := "failed"
    attempts := attempts
    nextAttemptMillis := nextAttempt
    leaseUntilMillis := none
    lastError := some error }

def setReplayed (row : SqlRow) : SqlRow :=
  { row with
    status := "pending"
    attempts := 0
    nextAttemptMillis := none
    leaseUntilMillis := none
    lastError := none }

theorem deadLetter_iff {config : SqlOutboxConfig} {row : SqlRow} :
    row.deadLetter config = true ↔
      row.status = "failed" ∧ (config.maxAttempts.toNat : Int) ≤ row.attempts.toInt := by
  simp [deadLetter]

theorem setPublishing_id (lease : Int64) (row : SqlRow) : (row.setPublishing lease).id = row.id :=
  rfl

theorem setPublished_id (row : SqlRow) : row.setPublished.id = row.id := rfl

theorem setFailed_id (attempts : Int32) (nextAttempt : Option Int64) (error : String)
    (row : SqlRow) : (row.setFailed attempts nextAttempt error).id = row.id := rfl

theorem setReplayed_id (row : SqlRow) : row.setReplayed.id = row.id := rfl

end SqlRow

open SqlRow

abbrev SqlTable := KeyedMap SqlRow.id

/-- What `mark_failed` has computed when its read is done: the message it read and
the values it will bind. -/
structure FailedUpdate (Payload : Type) where
  id : String
  error : String
  current : Option (OutboxMessage Payload)
  nextAttempt : Option Int64

/-- The attempts that the update binds: one more than was read. -/
def FailedUpdate.attempts (update : FailedUpdate Payload) : UInt32 :=
  (update.current.map (fun message => saturatingAddU32 message.attempts 1)).getD 1

namespace SqlTable

/-- Insert a row unless its id is taken, reporting whether it was inserted. -/
def insertRow (table : SqlTable) (row : SqlRow) : SqlTable × Bool :=
  match table.find? row.id with
  | some _ => (table, false)
  | none => (table.insert row, true)

/-- Execute an insert with bound values; the database refuses values that do not fit
the columns. -/
def insertValues (table : SqlTable) (values : List SqlValue) : Except String (SqlTable × Bool) :=
  match SqlRow.ofValues values with
  | some row => .ok (table.insertRow row)
  | none => .error "values do not match the columns"

def enqueueOn (codec : JsonCodec Payload) (table : SqlTable) (message : OutboxMessage Payload) :
    Except String (SqlTable × Bool) := do
  let values ← encodeMessage codec message
  table.insertValues values

/-- One round of `enqueue_with_toasty`. -/
def enqueueWithToasty (codec : JsonCodec Payload) (table : SqlTable)
    (message : OutboxMessage Payload) : Except String (SqlTable × Bool) := do
  let values ← toastyValues codec message
  table.insertValues values

def get (codec : JsonCodec Payload) (table : SqlTable) (id : String) :
    Except String (Option (OutboxMessage Payload)) :=
  transpose (decodeMessage codec) (table.find? id)

/-- The loop of a claim over the decoded messages: update each row and mark the
message. -/
def claimLoop (leaseUntilMillis : UInt64) :
    SqlTable → List (OutboxMessage Payload) →
      Except String (SqlTable × List (OutboxMessage Payload))
  | table, [] => .ok (table, [])
  | table, message :: rest => do
      let lease ← millisToI64 leaseUntilMillis
      let updated := table.adjust message.id (SqlRow.setPublishing lease)
        (SqlRow.setPublishing_id lease)
      let later ← claimLoop leaseUntilMillis updated rest
      return (later.1, message.markPublishing leaseUntilMillis :: later.2)

def claimPending (codec : JsonCodec Payload) (table : SqlTable) (nowMillis : UInt64) (limit : Nat)
    (leaseUntilMillis : UInt64) : Except String (SqlTable × List (OutboxMessage Payload)) := do
  let now ← millisToI64 nowMillis
  let rows := table.firstMatching (SqlRow.claimable now) (clampLimit limit)
  let messages ← rows.mapM (decodeMessage codec)
  claimLoop leaseUntilMillis table messages

def markPublished (table : SqlTable) (id : String) : SqlTable :=
  table.update (SqlRow.isIn id "publishing") SqlRow.setPublished SqlRow.setPublished_id

/-- The read of `mark_failed`: at the attempt limit no retry time is kept. -/
def markFailedRead (codec : JsonCodec Payload) (config : SqlOutboxConfig) (table : SqlTable)
    (id error : String) (nextAttemptMillis : Option UInt64) :
    Except String (FailedUpdate Payload) := do
  let current ← get codec table id
  let attempts :=
    (current.map (fun message => saturatingAddU32 message.attempts 1)).getD 1
  let nextAttempt ← transpose millisToI64
    (if attempts < config.maxAttempts then nextAttemptMillis else none)
  return { id := id, error := error, current := current, nextAttempt := nextAttempt }

/-- The guarded update of `mark_failed`; the attempts are cast to the column's type. -/
def markFailedWrite (table : SqlTable) (update : FailedUpdate Payload) : SqlTable :=
  table.update (SqlRow.isIn update.id "publishing")
    (SqlRow.setFailed update.attempts.toInt32 update.nextAttempt update.error)
    (SqlRow.setFailed_id update.attempts.toInt32 update.nextAttempt update.error)

def listDeadLetters (codec : JsonCodec Payload) (config : SqlOutboxConfig) (table : SqlTable)
    (limit : Nat) : Except String (List (OutboxMessage Payload)) :=
  (table.firstMatching (SqlRow.deadLetter config) (clampLimit limit)).mapM (decodeMessage codec)

def replayDeadLetter (table : SqlTable) (id : String) : SqlTable × Bool :=
  (table.update (SqlRow.isIn id "failed") SqlRow.setReplayed SqlRow.setReplayed_id,
    table.values.any (SqlRow.isIn id "failed"))

def cleanupPublished (table : SqlTable) (limit : Nat) : SqlTable × Nat :=
  let published := table.firstMatching (fun row => row.status = "published") (clampLimit limit)
  (table.restrict (fun row => decide (row.id ∉ published.map SqlRow.id)), published.length)

end SqlTable

/-! ## What each statement does to a row -/

section Decoded

variable {codec : JsonCodec Payload}

/-- A decoded message has the id of its row, and attempts that are a nonnegative
INTEGER. -/
theorem decodeMessage_ok {row : SqlRow} {message : OutboxMessage Payload}
    (decoded : decodeMessage codec row = .ok message) :
    message.id = row.id ∧ message.attempts.toNat < 2 ^ 31 := by
  simp only [decodeMessage, bind_eq_ok_iff] at decoded
  obtain ⟨_, _, _, _, _, _, _, checked, _, _, _, _, built⟩ := decoded
  cases built
  refine ⟨rfl, ?_⟩
  rw [i32ToAttempts] at checked
  split at checked
  · rename_i converted
    cases checked
    exact (tryU32FromI32_toNat converted).2
  · cases checked

/-- Decoded rows keep their ids and their order. -/
theorem mapM_decodeMessage_ids {rows : List SqlRow} {messages : List (OutboxMessage Payload)}
    (decoded : rows.mapM (decodeMessage codec) = .ok messages) :
    messages.map OutboxMessage.id = rows.map SqlRow.id := by
  induction rows generalizing messages with
  | nil =>
    cases decoded
    rfl
  | cons row rest ih =>
    simp only [mapM_cons, bind_eq_ok_iff] at decoded
    obtain ⟨_, first, _, later, built⟩ := decoded
    cases built
    rw [map_cons, map_cons, (decodeMessage_ok first).1, ih later]

/-- Rows decode together exactly when each of them decodes. -/
theorem mapM_decodeMessage_ok_iff {rows : List SqlRow} :
    (∃ messages, rows.mapM (decodeMessage codec) = .ok messages) ↔
      ∀ row ∈ rows, ∃ message, decodeMessage codec row = .ok message := by
  induction rows with
  | nil => exact ⟨fun _ _ member => absurd member not_mem_nil, fun _ => ⟨[], rfl⟩⟩
  | cons row rest ih =>
    rw [forall_mem_cons, ← ih]
    simp only [mapM_cons, bind_eq_ok_iff]
    constructor
    · grind
    · rintro ⟨⟨message, first⟩, others, later⟩
      exact ⟨message :: others, message, first, others, later, rfl⟩

end Decoded

namespace SqlTable

variable {codec : JsonCodec Payload} {config : SqlOutboxConfig} {table next : SqlTable}

variable {leaseUntilMillis : UInt64}

/-- Updating each message's row in turn updates the rows of all of them. -/
theorem claimLoop_eq {lease : Int64} (converted : millisToI64 leaseUntilMillis = .ok lease)
    (table : SqlTable) (messages : List (OutboxMessage Payload)) :
    claimLoop leaseUntilMillis table messages =
      .ok (table.update (fun row => decide (row.id ∈ messages.map OutboxMessage.id))
          (SqlRow.setPublishing lease) (SqlRow.setPublishing_id lease),
        messages.map (fun message => message.markPublishing leaseUntilMillis)) := by
  induction messages generalizing table with
  | nil =>
    rw [claimLoop, update_eq_self (fun _ _ => by simp)]
    rfl
  | cons message rest ih =>
    have both : (table.adjust message.id (setPublishing lease)
          (setPublishing_id lease)).update
            (fun row => decide (row.id ∈ rest.map OutboxMessage.id)) (setPublishing lease)
            (setPublishing_id lease) =
        table.update (fun row => decide (row.id ∈ (message :: rest).map OutboxMessage.id))
          (setPublishing lease) (setPublishing_id lease) := by
      apply KeyedMap.ext
      simp only [KeyedMap.adjust, KeyedMap.update, map_map]
      apply map_congr_left
      intro row _
      by_cases same : row.id = message.id
      · by_cases again : message.id ∈ rest.map OutboxMessage.id
        · simp [same, again, setPublishing]
        · simp [same, again, setPublishing]
      · simp [same]
    rw [← both]
    simp only [claimLoop, bind_eq_ok_iff]
    exact ⟨lease, converted, _, ih _, rfl⟩

variable {nowMillis : UInt64} {limit : Nat}

variable {claimed : List (OutboxMessage Payload)}

section

variable (succeeded : claimPending codec table nowMillis limit leaseUntilMillis = .ok (next, claimed))
include succeeded

/-- A successful claim converts its times, decodes and returns the first claimable rows
and sets their leases. -/
theorem claimPending_ok :
    ∃ now lease, millisToI64 nowMillis = .ok now ∧
      (claimed ≠ [] → leaseUntilMillis.toNat < 2 ^ 63) ∧
      (∀ row ∈ table.firstMatching (SqlRow.claimable now) (clampLimit limit),
        ∃ message, decodeMessage codec row = .ok message) ∧
      claimed.map OutboxMessage.id =
        (table.firstMatching (SqlRow.claimable now) (clampLimit limit)).map SqlRow.id ∧
      next = table.update (fun row => decide (row.id ∈ claimed.map OutboxMessage.id))
        (SqlRow.setPublishing lease) (SqlRow.setPublishing_id lease) := by
  simp only [claimPending, bind_eq_ok_iff] at succeeded
  obtain ⟨now, nowStored, messages, decoded, looped⟩ := succeeded
  have ids := mapM_decodeMessage_ids decoded
  have decodes := mapM_decodeMessage_ok_iff.mp ⟨messages, decoded⟩
  by_cases small : leaseUntilMillis.toNat < 2 ^ 63
  · have stored := millisToI64_of_lt small
    rw [claimLoop_eq stored] at looped
    cases looped
    have sameIds : (messages.map (fun message =>
        message.markPublishing leaseUntilMillis)).map OutboxMessage.id =
          messages.map OutboxMessage.id := by
      rw [map_map]
      rfl
    exact ⟨now, _, nowStored, fun _ => small, decodes, sameIds.trans ids, by rw [sameIds]⟩
  · cases messages with
    | nil =>
      cases looped
      exact ⟨now, 0, nowStored, fun some => absurd rfl some, decodes, ids,
        (update_eq_self (fun _ _ => by simp)).symm⟩
    | cons =>
      simp only [claimLoop, millisToI64_of_not_lt small] at looped
      cases looped

/-- The row under an id after a successful claim. -/
theorem claimPending_find? (id : String) :
    ∃ lease, next.find? id = if id ∈ claimed.map OutboxMessage.id
      then (table.find? id).map (SqlRow.setPublishing lease) else table.find? id := by
  obtain ⟨_, lease, _, _, _, _, rfl⟩ := claimPending_ok succeeded
  refine ⟨lease, ?_⟩
  rw [find?_update]
  cases found : table.find? id with
  | none => simp
  | some row =>
    have hasId : row.id = id := find?_key found
    grind

end

/-- A successful claim returns exactly the claimable rows that fewer claimable rows
precede than its limit. -/
theorem mem_claimPending_iff {now : Int64} (stored : millisToI64 nowMillis = .ok now)
    (succeeded : claimPending codec table nowMillis limit leaseUntilMillis = .ok (next, claimed))
    (id : String) :
    id ∈ claimed.map OutboxMessage.id ↔
      ∃ row, table.find? id = some row ∧ row.claimable now = true ∧
        table.rank (SqlRow.claimable now) id < clampLimit limit := by
  obtain ⟨_, _, storedAgain, _, _, ids, _⟩ := claimPending_ok succeeded
  obtain rfl := Except.ok.inj (stored.symm.trans storedAgain)
  rw [ids]
  exact mem_firstMatching_keys_iff

/-- An update guarded by an id and a status changes that row, when it has the status,
and no other. -/
theorem find?_update_isIn (target status : String) (change : SqlRow → SqlRow)
    (keeps : ∀ row, (change row).id = row.id) (id : String) :
    (table.update (SqlRow.isIn target status) change keeps).find? id =
      (table.find? id).map (fun row =>
        if id = target ∧ row.status = status then change row else row) := by
  rw [find?_update]
  cases found : table.find? id with
  | none => rfl
  | some row =>
    have hasId : row.id = id := find?_key found
    simp only [Option.map_some, isIn, hasId, Bool.and_eq_true, decide_eq_true_eq]

/-- An insert only adds a row under a free id. -/
theorem find?_insertRow (row : SqlRow) (id : String) :
    (table.insertRow row).1.find? id =
      if row.id = id ∧ table.find? id = none then some row else table.find? id := by
  rw [insertRow]
  cases found : table.find? row.id with
  | some => grind
  | none =>
    by_cases same : row.id = id
    · subst same
      simp [find?_insert, found]
    · simp [find?_insert, same]

/-- The cleanup only removes published rows. -/
theorem find?_cleanupPublished (limit : Nat) (id : String) :
    (table.cleanupPublished limit).1.find? id = table.find? id ∨
      ∃ row, table.find? id = some row ∧ row.status = "published" ∧
        (table.cleanupPublished limit).1.find? id = none := by
  simp only [cleanupPublished, find?_restrict]
  cases found : table.find? id with
  | none => exact .inl rfl
  | some row =>
    by_cases removed : row.id ∈ (table.firstMatching (fun row => decide (row.status = "published"))
        (clampLimit limit)).map SqlRow.id
    · obtain ⟨other, selected, sameId⟩ := mem_map.mp removed
      obtain ⟨member, published⟩ := firstMatching_mem selected
      have stored : row ∈ table.values := (find?_eq_some_iff.mp found).1
      obtain rfl := key_injective member stored sameId
      simp_all
    · simp_all

/-! ## Replays -/

/-- Some limit makes the dead-letter query return the row under an id. -/
def Listed (codec : JsonCodec Payload) (config : SqlOutboxConfig) (table : SqlTable)
    (id : String) : Prop :=
  ∃ limit messages, table.listDeadLetters codec config limit = .ok messages ∧
    id ∈ messages.map OutboxMessage.id

/-- Every row up to the one under an id that the dead-letter query selects decodes. -/
def DecodesUpTo (codec : JsonCodec Payload) (config : SqlOutboxConfig) (table : SqlTable)
    (id : String) : Prop :=
  ∀ row ∈ table.firstMatching (SqlRow.deadLetter config)
    (table.rank (SqlRow.deadLetter config) id + 1), ∃ message, decodeMessage codec row = .ok message

/-- A limit of at most ten thousand rows reaches exactly the dead letters with fewer than
that before them; one row that does not decode fails the whole query. -/
theorem listed_iff {id : String} :
    table.Listed codec config id ↔
      ∃ row, table.find? id = some row ∧ row.deadLetter config = true ∧
        table.rank (SqlRow.deadLetter config) id < 10000 ∧ table.DecodesUpTo codec config id := by
  constructor
  · rintro ⟨_, messages, listed, member⟩
    rw [mapM_decodeMessage_ids listed] at member
    obtain ⟨row, found, dead, position⟩ := mem_firstMatching_keys_iff.mp member
    refine ⟨row, found, dead, lt_of_lt_of_le position (min_le_right _ _), ?_⟩
    intro other selected
    obtain ⟨stored, holds, earlier⟩ := mem_firstMatching_iff.mp selected
    exact mapM_decodeMessage_ok_iff.mp ⟨messages, listed⟩ other
      (mem_firstMatching_iff.mpr ⟨stored, holds, lt_of_lt_of_le earlier position⟩)
  · rintro ⟨row, found, dead, _, decodes⟩
    have clamped : clampLimit (table.rank (deadLetter config) id + 1) =
        table.rank (deadLetter config) id + 1 := by
      rw [clampLimit]
      omega
    obtain ⟨messages, decoded⟩ := mapM_decodeMessage_ok_iff.mpr decodes
    refine ⟨_, messages, by rw [listDeadLetters, clamped]; exact decoded, ?_⟩
    rw [mapM_decodeMessage_ids decoded]
    exact mem_firstMatching_keys_iff.mpr ⟨row, found, dead, Nat.lt_succ_self _⟩

/-- A replay is limited to dead letters: it changes only a row that the query lists and
starts that row's delivery afresh, and a failed row with attempts left keeps them and its
retry time. -/
structure ReplayLimited (codec : JsonCodec Payload) (config : SqlOutboxConfig) (table : SqlTable)
    (id : String) : Prop where
  listed : ∀ other, (table.replayDeadLetter id).1.find? other ≠ table.find? other →
    table.Listed codec config other
  afresh : ∀ other row, table.find? other = some row →
    (table.replayDeadLetter id).1.find? other ≠ some row →
    (table.replayDeadLetter id).1.find? other = some { row with
      status := "pending", attempts := 0, nextAttemptMillis := none, leaseUntilMillis := none,
      lastError := none }
  framed : ∀ other, other ≠ id → (table.replayDeadLetter id).1.find? other = table.find? other
  waiting : ∀ row, table.find? id = some row → row.status = "failed" →
    row.attempts.toInt < config.maxAttempts.toNat →
    ∃ after, (table.replayDeadLetter id).1.find? id = some after ∧
      after.attempts = row.attempts ∧ after.nextAttemptMillis = row.nextAttemptMillis

theorem find?_replayDeadLetter (id other : String) :
    (table.replayDeadLetter id).1.find? other = (table.find? other).map (fun row =>
      if other = id ∧ row.status = "failed" then row.setReplayed else row) :=
  find?_update_isIn id "failed" setReplayed setReplayed_id other

/-- A row that a replay does not keep is the named one, and failed. -/
theorem replayDeadLetter_changed {id other : String}
    (changed : (table.replayDeadLetter id).1.find? other ≠ table.find? other) :
    ∃ row, other = id ∧ table.find? other = some row ∧ row.status = "failed" := by
  rw [find?_replayDeadLetter] at changed
  cases found : table.find? other with
  | none => simp [found] at changed
  | some row => simp_all

/-- A replay is limited to dead letters exactly when the row it names, if failed, has used
up its attempts and stands where a query reaches it. -/
theorem replay_limited_iff (codec : JsonCodec Payload) (config : SqlOutboxConfig)
    (table : SqlTable) (id : String) :
    table.ReplayLimited codec config id ↔
      ∀ row, table.find? id = some row → row.status = "failed" →
        config.maxAttempts.toNat ≤ row.attempts.toInt ∧
          table.rank (SqlRow.deadLetter config) id < 10000 ∧ table.DecodesUpTo codec config id := by
  constructor
  · intro limited row found failed
    have changed : (table.replayDeadLetter id).1.find? id ≠ table.find? id := by
      rw [find?_replayDeadLetter, found, Option.map_some, if_pos ⟨rfl, failed⟩]
      intro same
      have status : "pending" = row.status := congrArg status (Option.some.inj same)
      exact absurd (status.trans failed) (by decide)
    obtain ⟨other, again, dead, reached⟩ := listed_iff.mp (limited.listed id changed)
    obtain rfl := Option.some.inj (found.symm.trans again)
    exact ⟨(deadLetter_iff.mp dead).2, reached⟩
  · intro reached
    refine ⟨?_, ?_, ?_, ?_⟩
    · intro other changed
      obtain ⟨row, rfl, found, failed⟩ := replayDeadLetter_changed changed
      obtain ⟨used, within⟩ := reached row found failed
      exact listed_iff.mpr ⟨row, found, deadLetter_iff.mpr ⟨failed, used⟩, within⟩
    · intro other row found changed
      obtain ⟨same, rfl, again, failed⟩ := replayDeadLetter_changed (found ▸ changed)
      obtain rfl := Option.some.inj (found.symm.trans again)
      rw [find?_replayDeadLetter, found, Option.map_some, if_pos ⟨rfl, failed⟩]
      rfl
    · intro other different
      by_contra changed
      obtain ⟨row, same, _⟩ := replayDeadLetter_changed changed
      exact different same
    · intro row found failed left
      exact absurd (reached row found failed).1 (not_le.mpr left)

/-- A message that failed once of sixteen times waits for its retry: no query lists it, and
its replay takes the count and the retry time away. -/
theorem waiting_retry_replayed :
    let row : SqlRow :=
      { id := "msg-1", topic := "orders", messageKey := none, headersJson := "\x7b\x7d",
        idempotencyKey := "order-1", payloadJson := "null", status := "failed", attempts := 1,
        nextAttemptMillis := some 100, leaseUntilMillis := none, lastError := some "broker down" }
    let table : SqlTable := (KeyedMap.empty _).insert row
    table.listDeadLetters nullCodec .default 10000 = .ok [] ∧
      (table.replayDeadLetter "msg-1").1.values =
        [{ row with status := "pending", attempts := 0, nextAttemptMillis := none
                    lastError := none }] :=
  ⟨rfl, rfl⟩

end SqlTable

end Roze.TransactionSql
