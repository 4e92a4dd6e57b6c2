import Roze.Library.Execution
import Roze.Library.KeyedMap
import Roze.Library.MachineInteger

/-!
# The in-memory outbox

The crate's ordered map files each message under its own `id` and no operation
rewrites that field, so the store is a keyed map of messages. Every operation runs
under one lock and is one step. `claim_pending` walks the messages in id order,
marks the claimable ones and breaks once enough are collected; the library's
traversal is that loop, and its claim law says what the loop amounts to.

The payload is a value of a JSON library that no operation here inspects; its type
is a parameter. The wakeup notifier carries no stored state and is left out.
-/

namespace Roze.Transaction

open Roze.Library List

inductive OutboxStatus where
  | pending
  | publishing
  | published
  | failed
deriving DecidableEq, Repr

/-- Header entries in ascending name order. -/
abbrev Headers := KeyedMap (Prod.fst : String × String → String)

structure OutboxMessage (Payload : Type) where
  id : String
  topic : String
  key : Option String
  headers : Headers
  idempotencyKey : String
  payload : Payload
  status : OutboxStatus
  attempts : UInt32
  nextAttemptMillis : Option UInt64
  leaseUntilMillis : Option UInt64
  lastError : Option String

variable {Payload : Type}

namespace OutboxMessage

def new (id topic idempotencyKey : String) (payload : Payload) : OutboxMessage Payload where
  id := id
  topic := topic
  key := none
  headers := KeyedMap.empty _
  idempotencyKey := idempotencyKey
  payload := payload
  status := .pending
  attempts := 0
  nextAttemptMillis := none
  leaseUntilMillis := none
  lastError := none

def markPublishing (message : OutboxMessage Payload) (leaseUntilMillis : UInt64) :
    OutboxMessage Payload :=
  { message with status := .publishing, leaseUntilMillis := some leaseUntilMillis }

def markPublished (message : OutboxMessage Payload) : OutboxMessage Payload :=
  { message with
    status := .published
    nextAttemptMillis := none
    leaseUntilMillis := none
    lastError := none }

def markFailed (message : OutboxMessage Payload) (error : String)
    (nextAttemptMillis : Option UInt64) : OutboxMessage Payload :=
  { message with
    status := .failed
    attempts := saturatingAddU32 message.attempts 1
    nextAttemptMillis := nextAttemptMillis
    leaseUntilMillis := none
    lastError := some error }

theorem markPublishing_id (leaseUntilMillis : UInt64) (message : OutboxMessage Payload) :
    (message.markPublishing leaseUntilMillis).id = message.id := rfl

theorem markPublished_id (message : OutboxMessage Payload) :
    message.markPublished.id = message.id := rfl

theorem markFailed_id (error : String) (nextAttemptMillis : Option UInt64)
    (message : OutboxMessage Payload) :
    (message.markFailed error nextAttemptMillis).id = message.id := rfl

/-- What a producer put into a message; no mark rewrites any of it. -/
def content (message : OutboxMessage Payload) :
    String × String × Option String × Headers × String × Payload :=
  (message.id, message.topic, message.key, message.headers, message.idempotencyKey,
    message.payload)

/-- The claim test of the loop: a missing retry time or lease counts as passed. -/
def claimable (nowMillis : UInt64) (message : OutboxMessage Payload) : Bool :=
  let retryReady := (message.nextAttemptMillis.map (fun next => decide (next ≤ nowMillis))).getD true
  let leaseExpired := (message.leaseUntilMillis.map (fun lease => decide (lease ≤ nowMillis))).getD true
  match message.status with
  | .pending | .failed => retryReady
  | .publishing => leaseExpired
  | .published => false

variable {message : OutboxMessage Payload}

/-- A published message is never claimable. -/
theorem not_claimable_of_published (final : message.status = .published) (nowMillis : UInt64) :
    message.claimable nowMillis = false := by
  simp [claimable, final]

/-- At the last representable time every message that is not published can be
claimed: no retry time or lease lies beyond it. -/
theorem claimable_last (open' : message.status ≠ .published) {nowMillis : UInt64}
    (late : nowMillis.toNat = 2 ^ 64 - 1) : message.claimable nowMillis = true := by
  have reached (time : UInt64) : time ≤ nowMillis := by
    rw [UInt64.le_iff_toNat_le, late]
    exact Nat.le_pred_of_lt time.toNat_lt
  cases status : message.status <;> cases next : message.nextAttemptMillis <;>
    cases lease : message.leaseUntilMillis <;> simp_all [claimable]

end OutboxMessage

abbrev InMemoryOutbox (Payload : Type) := KeyedMap (@OutboxMessage.id Payload)

namespace InMemoryOutbox

/-- Insert or replace, reporting whether the id was new. -/
def enqueue (outbox : InMemoryOutbox Payload) (message : OutboxMessage Payload) :
    InMemoryOutbox Payload × Bool :=
  (outbox.insert message, (outbox.find? message.id).isNone)

/-- Enqueue several messages, one after another. -/
def enqueueAll (outbox : InMemoryOutbox Payload) (messages : List (OutboxMessage Payload)) :
    InMemoryOutbox Payload :=
  messages.foldl (fun outbox message => (outbox.enqueue message).1) outbox

def get (outbox : InMemoryOutbox Payload) (id : String) : Option (OutboxMessage Payload) :=
  outbox.find? id

/-- One round of the claim loop: the message as it leaves the round, the messages
claimed so far and whether the loop breaks. -/
def claimRound (nowMillis : UInt64) (limit : Nat) (leaseUntilMillis : UInt64)
    (claimed : List (OutboxMessage Payload)) (message : OutboxMessage Payload) :
    OutboxMessage Payload × List (OutboxMessage Payload) × Bool :=
  if message.claimable nowMillis then
    let message := message.markPublishing leaseUntilMillis
    let claimed := claimed ++ [message]
    (message, claimed, decide (max limit 1 ≤ claimed.length))
  else (message, claimed, false)

/-- A round never changes a message's id. -/
theorem claimRound_id (nowMillis : UInt64) (limit : Nat) (leaseUntilMillis : UInt64)
    (claimed : List (OutboxMessage Payload)) (message : OutboxMessage Payload) :
    (claimRound nowMillis limit leaseUntilMillis claimed message).1.id = message.id := by
  simp only [claimRound]
  split <;> rfl

def claimPending (outbox : InMemoryOutbox Payload) (nowMillis : UInt64) (limit : Nat)
    (leaseUntilMillis : UInt64) : InMemoryOutbox Payload × List (OutboxMessage Payload) :=
  outbox.visit (claimRound nowMillis limit leaseUntilMillis)
    (claimRound_id nowMillis limit leaseUntilMillis) []

def markPublished (outbox : InMemoryOutbox Payload) (id : String) : InMemoryOutbox Payload :=
  outbox.adjust id OutboxMessage.markPublished OutboxMessage.markPublished_id

def markFailed (outbox : InMemoryOutbox Payload) (id error : String)
    (nextAttemptMillis : Option UInt64) : InMemoryOutbox Payload :=
  outbox.adjust id (fun message => message.markFailed error nextAttemptMillis)
    (OutboxMessage.markFailed_id error nextAttemptMillis)

section

variable (outbox : InMemoryOutbox Payload)
include outbox

/-- The loop with its early exit is the claim of the first claimable messages. -/
theorem claimPending_eq (nowMillis : UInt64) (limit : Nat) (leaseUntilMillis : UInt64) :
    outbox.claimPending nowMillis limit leaseUntilMillis =
      outbox.claimFirst (OutboxMessage.claimable nowMillis) (max limit 1)
        (fun message => message.markPublishing leaseUntilMillis)
        (OutboxMessage.markPublishing_id leaseUntilMillis) :=
  outbox.visit_claims (OutboxMessage.claimable nowMillis)
    (fun message => message.markPublishing leaseUntilMillis)
    (OutboxMessage.markPublishing_id leaseUntilMillis)
    (lt_of_lt_of_le Nat.zero_lt_one (le_max_right limit 1))

section

variable (messages : List (OutboxMessage Payload))
include messages

/-- An id that is not among the enqueued ones keeps its record. -/
theorem find?_enqueueAll_of_not_mem (id : String) (absent : id ∉ messages.map OutboxMessage.id) :
    (outbox.enqueueAll messages).find? id = outbox.find? id := by
  induction messages generalizing outbox with
  | nil => rfl
  | cons message rest ih =>
    rw [map_cons, mem_cons, not_or] at absent
    have later := ih (outbox.enqueue message).1 absent.2
    rw [enqueueAll, foldl_cons, ← enqueueAll, later, enqueue, KeyedMap.find?_insert,
      if_neg (Ne.symm absent.1)]

/-- Messages enqueued under distinct ids are all stored. -/
theorem find?_enqueueAll_of_mem (distinct : (messages.map OutboxMessage.id).Nodup)
    {message : OutboxMessage Payload} (member : message ∈ messages) :
    (outbox.enqueueAll messages).find? message.id = some message := by
  induction messages generalizing outbox with
  | nil => cases member
  | cons head rest ih =>
    rw [map_cons, nodup_cons] at distinct
    rw [enqueueAll, foldl_cons, ← enqueueAll]
    rcases mem_cons.mp member with rfl | later
    · rw [find?_enqueueAll_of_not_mem _ rest message.id distinct.1, enqueue,
        KeyedMap.find?_insert, if_pos rfl]
    · simp_all

/-- A record found after the enqueues is one of the enqueued messages or was there
before. -/
theorem mem_of_find?_enqueueAll {id : String} {stored : OutboxMessage Payload}
    (found : (outbox.enqueueAll messages).find? id = some stored) :
    stored ∈ messages ∨ outbox.find? id = some stored := by
  induction messages generalizing outbox with
  | nil => exact .inr found
  | cons head rest ih =>
    rw [enqueueAll, foldl_cons, ← enqueueAll] at found
    rcases ih (outbox.enqueue head).1 found with later | before
    · simp_all
    · rw [enqueue, KeyedMap.find?_insert] at before
      grind

end

end

end InMemoryOutbox

end Roze.Transaction
