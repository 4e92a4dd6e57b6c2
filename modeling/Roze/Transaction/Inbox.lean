import Roze.Library.Execution
import Roze.Library.KeyedMap
import Roze.Library.MachineInteger

/-!
# The in-memory inbox

The inbox remembers, per idempotency key, whether a delivery is being processed,
was processed, or failed and may be retried. A consumer asks to begin; the answers
`Started` and `RetryStarted` make it the one that processes the key until it
reports the outcome.

The protocol below joins the map with the consumers' unfinished starts. A consumer
reports an outcome only for a key it was given, once per start; otherwise the
calls, their order and their clocks are free. A key has an unfinished start
exactly while its record is `Processing`, and from this everything about whole
runs follows.
-/

namespace Roze.Transaction

open Roze.Library List

inductive InboxStatus where
  | processing
  | processed
  | failed
deriving DecidableEq, Repr

structure InboxMessage where
  idempotencyKey : String
  topic : String
  group : Option String
  status : InboxStatus
  attempts : UInt32
  firstSeenMillis : UInt64
  updatedAtMillis : UInt64
  nextAttemptMillis : Option UInt64
  lastError : Option String
deriving DecidableEq

namespace InboxMessage

def new (idempotencyKey topic : String) (group : Option String) (nowMillis : UInt64) :
    InboxMessage where
  idempotencyKey := idempotencyKey
  topic := topic
  group := group
  status := .processing
  attempts := 1
  firstSeenMillis := nowMillis
  updatedAtMillis := nowMillis
  nextAttemptMillis := none
  lastError := none

def markProcessed (nowMillis : UInt64) (message : InboxMessage) : InboxMessage :=
  { message with
    status := .processed
    updatedAtMillis := nowMillis
    nextAttemptMillis := none
    lastError := none }

def markFailed (nowMillis : UInt64) (error : String) (nextAttemptMillis : Option UInt64)
    (message : InboxMessage) : InboxMessage :=
  { message with
    status := .failed
    updatedAtMillis := nowMillis
    lastError := some error
    nextAttemptMillis := nextAttemptMillis }

def beginRetry (nowMillis : UInt64) (message : InboxMessage) : InboxMessage :=
  { message with
    status := .processing
    attempts := saturatingAddU32 message.attempts 1
    updatedAtMillis := nowMillis
    nextAttemptMillis := none }

theorem markProcessed_key (nowMillis : UInt64) (message : InboxMessage) :
    (message.markProcessed nowMillis).idempotencyKey = message.idempotencyKey := rfl

theorem markFailed_key (nowMillis : UInt64) (error : String) (nextAttemptMillis : Option UInt64)
    (message : InboxMessage) :
    (message.markFailed nowMillis error nextAttemptMillis).idempotencyKey =
      message.idempotencyKey := rfl

theorem beginRetry_key (nowMillis : UInt64) (message : InboxMessage) :
    (message.beginRetry nowMillis).idempotencyKey = message.idempotencyKey := rfl

/-- A failed message whose retry time, if it has one, has come. -/
def retryDue (nowMillis : UInt64) (message : InboxMessage) : Bool :=
  message.status = .failed &&
    (message.nextAttemptMillis.map (fun next => decide (next ≤ nowMillis))).getD true

end InboxMessage

open InboxMessage

inductive InboxBegin where
  | started
  | duplicateProcessed
  | alreadyProcessing
  | retryStarted
deriving DecidableEq, Repr

abbrev InMemoryInbox := KeyedMap InboxMessage.idempotencyKey

namespace InMemoryInbox

def begin (inbox : InMemoryInbox) (idempotencyKey topic : String) (group : Option String)
    (nowMillis : UInt64) : InMemoryInbox × InboxBegin :=
  match inbox.find? idempotencyKey with
  | some message =>
      if message.status = .processed then (inbox, .duplicateProcessed)
      else if message.status = .processing then (inbox, .alreadyProcessing)
      else if message.retryDue nowMillis then
        (inbox.adjust idempotencyKey (InboxMessage.beginRetry nowMillis)
          (InboxMessage.beginRetry_key nowMillis), .retryStarted)
      else (inbox, .alreadyProcessing)
  | none => (inbox.insert (.new idempotencyKey topic group nowMillis), .started)

/-- Rewrite the record of a key, reporting whether there is one. -/
def mark (inbox : InMemoryInbox) (idempotencyKey : String) (change : InboxMessage → InboxMessage)
    (keeps : ∀ message, (change message).idempotencyKey = message.idempotencyKey) :
    InMemoryInbox × Bool :=
  match inbox.find? idempotencyKey with
  | none => (inbox, false)
  | some _ => (inbox.adjust idempotencyKey change keeps, true)

def markProcessed (inbox : InMemoryInbox) (idempotencyKey : String) (nowMillis : UInt64) :
    InMemoryInbox × Bool :=
  inbox.mark idempotencyKey (InboxMessage.markProcessed nowMillis)
    (InboxMessage.markProcessed_key nowMillis)

def markFailed (inbox : InMemoryInbox) (idempotencyKey : String) (nowMillis : UInt64)
    (error : String) (nextAttemptMillis : Option UInt64) : InMemoryInbox × Bool :=
  inbox.mark idempotencyKey (InboxMessage.markFailed nowMillis error nextAttemptMillis)
    (InboxMessage.markFailed_key nowMillis error nextAttemptMillis)

def get (inbox : InMemoryInbox) (idempotencyKey : String) : Option InboxMessage :=
  inbox.find? idempotencyKey

def pendingRetry (inbox : InMemoryInbox) (nowMillis : UInt64) (limit : Nat) : List InboxMessage :=
  inbox.firstMatching (InboxMessage.retryDue nowMillis) (max limit 1)

/-- The four answers of `begin`, each with what it means for the record and with
what it leaves behind. -/
theorem begin_cases (inbox : InMemoryInbox) (key topic : String) (group : Option String)
    (now : UInt64) :
    (∃ message, inbox.find? key = some message ∧ message.status = .processed ∧
        inbox.begin key topic group now = (inbox, .duplicateProcessed)) ∨
      (∃ message, inbox.find? key = some message ∧ message.status ≠ .processed ∧
        message.retryDue now = false ∧
        inbox.begin key topic group now = (inbox, .alreadyProcessing)) ∨
      (∃ message, inbox.find? key = some message ∧ message.status = .failed ∧
        message.retryDue now = true ∧
        inbox.begin key topic group now =
          (inbox.adjust key (InboxMessage.beginRetry now) (InboxMessage.beginRetry_key now),
            .retryStarted)) ∨
      (inbox.find? key = none ∧
        inbox.begin key topic group now = (inbox.insert (.new key topic group now), .started)) := by
  cases found : inbox.find? key with
  | none => simp [begin, found]
  | some message =>
    cases status : message.status with
    | processed => simp [begin, found, status]
    | processing => simp [begin, found, status, retryDue]
    | failed =>
      cases due : message.retryDue now with
      | true | false => simp [begin, found, status, due]

/-- A mark rewrites the record of its key and no other. -/
theorem find?_mark (inbox : InMemoryInbox) (key : String) (change : InboxMessage → InboxMessage)
    (keeps : ∀ message, (change message).idempotencyKey = message.idempotencyKey)
    (wanted : String) :
    (inbox.mark key change keeps).1.find? wanted =
      if wanted = key then (inbox.find? wanted).map change else inbox.find? wanted := by
  cases found : inbox.find? key with
  | some => simp [mark, found, KeyedMap.find?_adjust]
  | none =>
    split
    · rename_i same
      simp [mark, found, same]
    · simp [mark, found]

end InMemoryInbox

/-! ## Consumers -/

/-- A call with its arguments. A consumer is named where the protocol depends on
which one calls. -/
inductive InboxAction where
  | begin (consumer : Nat) (idempotencyKey topic : String) (group : Option String)
      (nowMillis : UInt64)
  | markProcessed (consumer : Nat) (idempotencyKey : String) (nowMillis : UInt64)
  | markFailed (consumer : Nat) (idempotencyKey : String) (nowMillis : UInt64) (error : String)
      (nextAttemptMillis : Option UInt64)
  | get (idempotencyKey : String)
  | pendingRetry (nowMillis : UInt64) (limit : Nat)

inductive InboxResult where
  | begun (answer : InboxBegin)
  | marked (known : Bool)
  | found (message : Option InboxMessage)
  | pending (messages : List InboxMessage)
deriving DecidableEq

/-- The inbox together with the starts that are not finished: which consumer is
processing which key. -/
structure InboxSystem where
  inbox : InMemoryInbox
  unfinished : List (Nat × String)

namespace InboxSystem

/-- The answers that make the caller the one that processes the key. -/
def given : InboxBegin → Bool
  | .started | .retryStarted => true
  | .duplicateProcessed | .alreadyProcessing => false

/-- One call. A consumer reports an outcome only for a start it has not finished. -/
def step (system : InboxSystem) : InboxAction → Option (InboxSystem × InboxResult)
  | .begin consumer key topic group now =>
      let begun := system.inbox.begin key topic group now
      some ({ inbox := begun.1
              unfinished := if given begun.2 then (consumer, key) :: system.unfinished
                else system.unfinished }, .begun begun.2)
  | .markProcessed consumer key now =>
      if (consumer, key) ∈ system.unfinished then
        let marked := system.inbox.markProcessed key now
        some ({ inbox := marked.1, unfinished := system.unfinished.erase (consumer, key) },
          .marked marked.2)
      else none
  | .markFailed consumer key now error next =>
      if (consumer, key) ∈ system.unfinished then
        let marked := system.inbox.markFailed key now error next
        some ({ inbox := marked.1, unfinished := system.unfinished.erase (consumer, key) },
          .marked marked.2)
      else none
  | .get key => some (system, .found (system.inbox.get key))
  | .pendingRetry now limit => some (system, .pending (system.inbox.pendingRetry now limit))

/-- How many starts of a key are not finished. -/
def owners (system : InboxSystem) (key : String) : Nat :=
  (system.unfinished.map Prod.snd).count key

/-- No record and no unfinished start. -/
def idle : InboxSystem where
  inbox := KeyedMap.empty _
  unfinished := []

end InboxSystem

/-- The inbox with its consumers as a machine. -/
def inboxProtocol : Machine InboxSystem InboxAction InboxResult where
  step := InboxSystem.step

/-- A call that began processing this key. -/
def startsKey (key : String) : InboxAction × InboxResult → Bool
  | (.begin _ begun _ _ _, .begun answer) => decide (begun = key) && InboxSystem.given answer
  | _ => false

/-- What one call can do to a key: its record, its unfinished starts, and whether
it was started. -/
inductive InboxEffect (key : String) (record : Option InboxMessage) (owners : Nat) :
    InboxAction × InboxResult → Option InboxMessage → Nat → Prop
  | kept (event : InboxAction × InboxResult) (unstarted : startsKey key event = false)
      (duplicate : ∀ message, record = some message → message.status = .processed →
        ∀ consumer topic group now, event.1 = .begin consumer key topic group now →
          event.2 = .begun .duplicateProcessed) :
      InboxEffect key record owners event record owners
  | started (consumer : Nat) (topic : String) (group : Option String) (now : UInt64)
      (absent : record = none) :
      InboxEffect key record owners (.begin consumer key topic group now, .begun .started)
        (some (.new key topic group now)) (owners + 1)
  | retried (consumer : Nat) (topic : String) (group : Option String) (now : UInt64)
      (message : InboxMessage) (found : record = some message) (failed : message.status = .failed) :
      InboxEffect key record owners (.begin consumer key topic group now, .begun .retryStarted)
        (some (message.beginRetry now)) (owners + 1)
  | finished (event : InboxAction × InboxResult) (change : InboxMessage → InboxMessage)
      (unstarted : startsKey key event = false)
      (ended : ∀ message, (change message).status ≠ .processing)
      (counted : ∀ message, (change message).attempts = message.attempts) (left : Nat)
      (owned : owners = left + 1) : InboxEffect key record owners event (record.map change) left

namespace InboxSystem

variable {system next : InboxSystem} {action : InboxAction} {result : InboxResult}

/-- Finishing a start removes one start of its key and of no other key. -/
theorem owners_erase {consumer : Nat} {key : String}
    (held : (consumer, key) ∈ system.unfinished) (wanted : String) :
    system.owners wanted =
      ((system.unfinished.erase (consumer, key)).map Prod.snd).count wanted +
        (if wanted = key then 1 else 0) := by
  have permuted := (perm_cons_erase held).map Prod.snd
  rw [owners, permuted.count_eq, map_cons, count_cons]
  simp only [beq_iff_eq, @eq_comm _ key wanted]

/-- Reporting an outcome finishes the start of its own key. -/
theorem mark_effect {consumer : Nat} {wanted : String}
    (held : (consumer, wanted) ∈ system.unfinished) (change : InboxMessage → InboxMessage)
    (keeps : ∀ message, (change message).idempotencyKey = message.idempotencyKey)
    (ended : ∀ message, (change message).status ≠ .processing)
    (counted : ∀ message, (change message).attempts = message.attempts)
    (event : InboxAction × InboxResult) (unstarted : ∀ key, startsKey key event = false)
    (notBegin : ∀ consumer key topic group now, event.1 ≠ .begin consumer key topic group now)
    (key : String) :
    InboxEffect key (system.inbox.find? key) (system.owners key) event
      ((system.inbox.mark wanted change keeps).1.find? key)
      (((system.unfinished.erase (consumer, wanted)).map Prod.snd).count key) := by
  rw [owners_erase held, InMemoryInbox.find?_mark]
  by_cases same : key = wanted
  · subst same
    rw [if_pos rfl, if_pos rfl]
    exact .finished event change (unstarted key) ended counted _ rfl
  · simp only [same, if_false, Nat.add_zero]
    exact .kept event (unstarted key)
      (fun _ _ _ _ _ _ _ begins => absurd begins (notBegin _ _ _ _ _))

/-- Every call has one of the four effects on every key. -/
theorem step_effect (taken : system.step action = some (next, result)) (key : String) :
    InboxEffect key (system.inbox.find? key) (system.owners key) (action, result)
      (next.inbox.find? key) (next.owners key) := by
  cases action with
  | get | pendingRetry =>
    cases taken
    exact .kept _ rfl (fun _ _ _ _ _ _ _ impossible => by cases impossible)
  | begin consumer wanted topic group now =>
    cases taken
    rcases system.inbox.begin_cases wanted topic group now with
      ⟨message, found, status, begun⟩ | ⟨message, found, status, _, begun⟩ |
      ⟨message, found, status, _, begun⟩ | ⟨absent, begun⟩
    · simp only [begun, given]
      exact .kept _ (by simp [startsKey, given]) (fun _ _ _ _ _ _ _ _ => rfl)
    · simp only [begun, given]
      refine .kept _ (by simp [startsKey, given]) ?_
      grind
    · simp only [begun, given, if_true, owners, map_cons, count_cons,
        KeyedMap.find?_adjust]
      by_cases same : key = wanted
      · subst same
        simpa [found] using InboxEffect.retried consumer topic group now message rfl status
      · have different : wanted ≠ key := Ne.symm same
        simp only [same, if_false, beq_iff_eq, different, Nat.add_zero]
        refine .kept _ (by simp [startsKey, different]) ?_
        simp_all
    · simp only [begun, given, if_true, owners, map_cons, count_cons,
        KeyedMap.find?_insert]
      by_cases same : wanted = key
      · subst same
        simpa [absent, new] using
          InboxEffect.started consumer topic group now rfl
      · simp only [new, same, if_false, beq_iff_eq, Nat.add_zero]
        refine .kept _ (by simp [startsKey, same]) ?_
        simp_all
  | markProcessed consumer wanted now =>
    obtain ⟨held, built⟩ := of_guard taken
    cases built
    exact mark_effect held _ (markProcessed_key now)
      (fun _ => by simp [markProcessed]) (fun _ => rfl) _ (fun _ => rfl)
      (fun _ _ _ _ _ impossible => by cases impossible) key
  | markFailed consumer wanted now error next =>
    obtain ⟨held, built⟩ := of_guard taken
    cases built
    exact mark_effect held _ (markFailed_key now error next)
      (fun _ => by simp [markFailed]) (fun _ => rfl) _ (fun _ => rfl)
      (fun _ _ _ _ _ impossible => by cases impossible) key

/-- A key has exactly one unfinished start while its record is `Processing`, and
none otherwise. -/
def Owned (system : InboxSystem) : Prop :=
  ∀ key, system.owners key =
    if (system.inbox.find? key).map InboxMessage.status = some .processing then 1 else 0

/-- Every call keeps the ownership of every key. -/
theorem owned_step (owned : system.Owned)
    (taken : inboxProtocol.step system action = some (next, result)) : next.Owned := by
  intro key
  have before := owned key
  have effect := step_effect taken key
  generalize system.inbox.find? key = record, system.owners key = owners,
    next.inbox.find? key = after, next.owners key = left at before effect ⊢
  cases effect with
  | kept => exact before
  | started consumer topic group now absent =>
    subst absent
    simpa [new] using before
  | retried consumer topic group now message found failed =>
    subst found
    simpa [beginRetry, failed] using before
  | finished event change unstarted ended counted left taken =>
    have last : left = 0 := by
      split at before <;> omega
    simp_all

/-- Ownership holds in every state the protocol reaches. -/
theorem run_owned {events : List (InboxAction × InboxResult)}
    (run : inboxProtocol.Run idle events system) : system.Owned :=
  run.invariant (fun _ => rfl) (fun _ _ _ _ owned taken => owned_step owned taken)

/-- The key's last delivery was processed. -/
def Processed (key : String) (system : InboxSystem) : Prop :=
  ∃ message, system.inbox.find? key = some message ∧ message.status = .processed

/-- If the call begins this key, it is told that the key was processed. -/
def AnswersDuplicate (key : String) (action : InboxAction) (result : InboxResult) : Prop :=
  ∀ consumer topic group now, action = .begin consumer key topic group now →
    result = .begun .duplicateProcessed

/-- A processed key stays processed and is answered as a duplicate: no start of it is
unfinished, so nobody can report another outcome. -/
theorem processed_step (owned : system.Owned) {key : String} (final : Processed key system)
    (taken : inboxProtocol.step system action = some (next, result)) :
    Processed key next ∧ AnswersDuplicate key action result := by
  obtain ⟨message, found, status⟩ := final
  have none : system.owners key = 0 := by simp [owned key, found, status]
  have effect := step_effect taken key
  rw [found, none] at effect
  generalize stored : next.inbox.find? key = after, next.owners key = left at effect
  cases effect with
  | kept event unstarted duplicate =>
    exact ⟨⟨message, stored, status⟩, duplicate message rfl status⟩
  | started consumer topic group now absent => cases absent
  | retried consumer topic group now other found failed => simp_all
  | finished => omega

/-- The number of attempts a record counts; an absent record counts none. -/
def attemptsOf (system : InboxSystem) (key : String) : Nat :=
  ((system.inbox.find? key).map (fun message => message.attempts.toNat)).getD 0

/-- The counter never exceeds what it can represent. -/
theorem attemptsOf_le (system : InboxSystem) (key : String) :
    system.attemptsOf key ≤ 2 ^ 32 - 1 := by
  unfold attemptsOf
  cases system.inbox.find? key with
  | none => simp
  | some message => exact Nat.le_pred_of_lt message.attempts.toNat_lt

/-- A call counts an attempt exactly when it starts the key. -/
theorem attemptsOf_step (taken : inboxProtocol.step system action = some (next, result))
    (key : String) :
    next.attemptsOf key =
      min (system.attemptsOf key + if startsKey key (action, result) then 1 else 0)
        (2 ^ 32 - 1) := by
  have bounded := system.attemptsOf_le key
  have effect := step_effect taken key
  unfold attemptsOf at bounded ⊢
  generalize system.inbox.find? key = record, system.owners key = owners,
    next.inbox.find? key = after, next.owners key = left at bounded effect ⊢
  cases effect with
  | kept event unstarted => simp_all
  | started consumer topic group now absent =>
    subst absent
    simp [startsKey, given, new]
  | retried consumer topic group now message found =>
    subst found
    simp [startsKey, given, beginRetry, saturatingAddU32_toNat]
  | finished event change unstarted ended counted =>
    rw [unstarted]
    cases record with
    | none => simp
    | some message => simp_all

/-- Over a run the counter grows by the number of starts, up to saturation. -/
theorem attemptsOf_run {events : List (InboxAction × InboxResult)}
    (run : inboxProtocol.Run system events next) (key : String) :
    next.attemptsOf key =
      min (system.attemptsOf key + events.countP (startsKey key)) (2 ^ 32 - 1) := by
  induction run with
  | done state => simpa using state.attemptsOf_le key
  | step taken rest ih =>
    rw [ih, attemptsOf_step taken key, countP_cons]
    omega

/-- In every run in which consumers report each start at most once: no key has two
unfinished starts, a processed key stays processed and every later `begin` on it
answers so, the stored counter is the number of starts, and each message listed for
retry would be started again. -/
theorem exactly_once {events : List (InboxAction × InboxResult)} {final : InboxSystem}
    (run : inboxProtocol.Run idle events final) :
    (final.unfinished.map Prod.snd).Nodup ∧
      (∀ key, inboxProtocol.Persists (Processed key) (AnswersDuplicate key) idle events) ∧
      (∀ key, final.attemptsOf key = min (events.countP (startsKey key)) (2 ^ 32 - 1)) ∧
      ∀ now limit, ∀ message ∈ final.inbox.pendingRetry now limit, ∀ topic group,
        (final.inbox.begin message.idempotencyKey topic group now).2 = .retryStarted := by
  refine ⟨?_, ?_, ?_, ?_⟩
  · rw [nodup_iff_count_le_one]
    intro key
    have owners := run_owned run key
    rw [InboxSystem.owners] at owners
    rw [owners]
    split <;> omega
  · intro key
    rw [Machine.persists_iff]
    intro before action output after state next split reached taken final
    exact processed_step (run_owned reached) final taken
  · intro key
    simpa [attemptsOf, idle] using attemptsOf_run run key
  · intro now limit message listed topic group
    -- a message listed for retry would be started again by a `begin` at that time
    obtain ⟨member, due⟩ := KeyedMap.firstMatching_mem listed
    have found : final.inbox.find? message.idempotencyKey = some message :=
      KeyedMap.find?_eq_some_iff.mpr ⟨member, rfl⟩
    have failed : message.status = .failed := by
      simp only [retryDue, Bool.and_eq_true, decide_eq_true_eq] at due
      exact due.1
    simp [InMemoryInbox.begin, found, failed, due]

/-- Two consumers receive one message. The first fails, the second retries and
succeeds, and a third delivery is a duplicate. -/
theorem exactly_once_retried :
    ∃ events final, inboxProtocol.Run idle events final ∧
      events.map Prod.snd = [.begun .started, .begun .alreadyProcessing, .marked true,
        .begun .retryStarted, .marked true, .begun .duplicateProcessed] ∧
      final.attemptsOf "order-1" = 2 ∧ (final.unfinished.map Prod.snd).Nodup ∧
      inboxProtocol.Persists (Processed "order-1") (AnswersDuplicate "order-1") idle events := by
  let actions : List InboxAction :=
    [.begin 1 "order-1" "orders" none 100, .begin 2 "order-1" "orders" none 110,
      .markFailed 1 "order-1" 120 "timeout" (some 200), .begin 2 "order-1" "orders" none 200,
      .markProcessed 2 "order-1" 210, .begin 1 "order-1" "orders" none 300]
  have evaluated : (inboxProtocol.exec idle actions).map
      (fun result => (result.2.map Prod.snd, result.2.countP (startsKey "order-1"))) =
      some ([.begun .started, .begun .alreadyProcessing, .marked true, .begun .retryStarted,
        .marked true, .begun .duplicateProcessed], 2) := by decide
  obtain ⟨events, final, run, _, same⟩ := Machine.exec_observed evaluated
  simp only [Prod.mk.injEq] at same
  obtain ⟨answers, starts⟩ := same
  obtain ⟨single, lasting, attempts, _⟩ := exactly_once run
  exact ⟨events, final, run, answers, by simp [attempts, starts], single, lasting "order-1"⟩

end InboxSystem

end Roze.Transaction
