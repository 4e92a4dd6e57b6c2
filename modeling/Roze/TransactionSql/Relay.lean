import Roze.TransactionSql.Store

/-!
# Every run of the SQL outbox

Callers share one table. A claim transaction and every single statement are one
step each; a `mark_failed` call is two steps, and between them it holds what its
read returned while other calls go on. Any number of calls may be in that state, so
a run is any interleaving of any number of workers with any clocks.

Two laws of the relay are settled here as conditions on runs. A dead letter stays
one exactly when no claim reaches it: its missing retry time makes it due at once.
The attempts column counts failures exactly when each effective update finds the
value its read saw: the guard checks the status, not the claim.
-/

namespace Roze.TransactionSql

open SqlTable

open Roze.Library Roze.Transaction Option Machine List

variable {Payload : Type}

/-- A statement or transaction with its arguments. A `mark_failed` call is named, to
join its two statements. -/
inductive SqlAction (Payload : Type) where
  | enqueue (message : OutboxMessage Payload)
  | enqueueWithToasty (message : OutboxMessage Payload)
  | get (id : String)
  | claimPending (nowMillis : UInt64) (limit : Nat) (leaseUntilMillis : UInt64)
  | markPublished (id : String)
  | markFailedRead (call : Nat) (id error : String) (nextAttemptMillis : Option UInt64)
  | markFailedWrite (call : Nat)
  | listDeadLetters (limit : Nat)
  | replayDeadLetter (id : String)
  | cleanupPublished (limit : Nat)

/-- What the caller observes. -/
inductive SqlOutput (Payload : Type) where
  | inserted (isNew : Bool)
  | found (message : Option (OutboxMessage Payload))
  | claimed (messages : List (OutboxMessage Payload))
  | reading
  | done
  | listed (messages : List (OutboxMessage Payload))
  | replayed (known : Bool)
  | removed (count : Nat)
  | refused (error : String)

/-- The ids a claim returned. -/
def SqlOutput.claimedIds : SqlOutput Payload → List String
  | .claimed messages => messages.map OutboxMessage.id
  | _ => []

/-- The table and the `mark_failed` calls between their read and their update. -/
structure SqlSystem (Payload : Type) where
  table : SqlTable
  failing : Nat → Option (FailedUpdate Payload)

namespace SqlSystem

/-- Continue with the result of a statement, or return its error and change nothing. -/
def answer {Result : Type} (system : SqlSystem Payload) (result : Except String Result)
    (next : Result → SqlSystem Payload × SqlOutput Payload) :
    SqlSystem Payload × SqlOutput Payload :=
  match result with
  | .ok value => next value
  | .error error => (system, .refused error)

def step (codec : JsonCodec Payload) (config : SqlOutboxConfig) (system : SqlSystem Payload) :
    SqlAction Payload → Option (SqlSystem Payload × SqlOutput Payload)
  | .enqueue message => some (system.answer (system.table.enqueueOn codec message)
      (fun result => ({ system with table := result.1 }, .inserted result.2)))
  | .enqueueWithToasty message =>
      some (system.answer (system.table.enqueueWithToasty codec message)
        (fun result => ({ system with table := result.1 }, .inserted result.2)))
  | .get id => some (system.answer (system.table.get codec id) (fun found => (system, .found found)))
  | .claimPending nowMillis limit leaseUntilMillis =>
      some (system.answer (system.table.claimPending codec nowMillis limit leaseUntilMillis)
        (fun result => ({ system with table := result.1 }, .claimed result.2)))
  | .markPublished id => some ({ system with table := system.table.markPublished id }, .done)
  | .markFailedRead call id error nextAttemptMillis =>
      match system.failing call with
      | some _ => none
      | none => some (system.answer
          (system.table.markFailedRead codec config id error nextAttemptMillis)
          (fun update =>
            ({ system with failing := Function.update system.failing call (some update) },
              .reading)))
  | .markFailedWrite call =>
      match system.failing call with
      | none => none
      | some update => some ({ table := system.table.markFailedWrite update
                               failing := Function.update system.failing call none }, .done)
  | .listDeadLetters limit => some (system.answer
      (system.table.listDeadLetters codec config limit) (fun messages => (system, .listed messages)))
  | .replayDeadLetter id => some ({ system with table := (system.table.replayDeadLetter id).1 },
      .replayed (system.table.replayDeadLetter id).2)
  | .cleanupPublished limit => some ({ system with table := (system.table.cleanupPublished limit).1 },
      .removed (system.table.cleanupPublished limit).2)

/-- A table with no call in progress. -/
def idle (table : SqlTable) : SqlSystem Payload where
  table := table
  failing _ := none

end SqlSystem

/-- The store with its callers as a machine. -/
def sqlRelay (codec : JsonCodec Payload) (config : SqlOutboxConfig) :
    Machine (SqlSystem Payload) (SqlAction Payload) (SqlOutput Payload) where
  step := SqlSystem.step codec config

/-- What one step can do to the row under an id. -/
inductive SqlEffect (system : SqlSystem Payload) (id : String) :
    SqlAction Payload → SqlOutput Payload → Option SqlRow → Prop
  | kept (action : SqlAction Payload) (output : SqlOutput Payload)
      (unclaimed : id ∉ output.claimedIds) :
      SqlEffect system id action output (system.table.find? id)
  | inserted (action : SqlAction Payload) (output : SqlOutput Payload) (row : SqlRow)
      (absent : system.table.find? id = none) (unclaimed : id ∉ output.claimedIds) :
      SqlEffect system id action output (some row)
  | claimed (nowMillis : UInt64) (limit : Nat) (leaseUntilMillis : UInt64)
      (messages : List (OutboxMessage Payload)) (row : SqlRow) (lease : Int64)
      (found : system.table.find? id = some row)
      (returned : id ∈ messages.map OutboxMessage.id) :
      SqlEffect system id (.claimPending nowMillis limit leaseUntilMillis) (.claimed messages)
        (some (row.setPublishing lease))
  | published (row : SqlRow) (found : system.table.find? id = some row)
      (publishing : row.status = "publishing") :
      SqlEffect system id (.markPublished id) .done (some row.setPublished)
  | failed (call : Nat) (update : FailedUpdate Payload) (row : SqlRow)
      (failing : system.failing call = some update) (same : update.id = id)
      (found : system.table.find? id = some row) (publishing : row.status = "publishing") :
      SqlEffect system id (.markFailedWrite call) .done
        (some (row.setFailed update.attempts.toInt32 update.nextAttempt update.error))
  | replayed (known : Bool) (row : SqlRow) (found : system.table.find? id = some row)
      (dead : row.status = "failed") :
      SqlEffect system id (.replayDeadLetter id) (.replayed known) (some row.setReplayed)
  | removed (limit count : Nat) (row : SqlRow) (found : system.table.find? id = some row)
      (published : row.status = "published") :
      SqlEffect system id (.cleanupPublished limit) (.removed count) none

/-- Only a claim returns an id. -/
theorem SqlEffect.claim_of_mem {system : SqlSystem Payload} {id : String}
    {action : SqlAction Payload} {output : SqlOutput Payload} {after : Option SqlRow}
    (effect : SqlEffect system id action output after) (returned : id ∈ output.claimedIds) :
    ∃ nowMillis limit leaseUntilMillis,
      action = .claimPending nowMillis limit leaseUntilMillis := by
  cases effect with
  | kept action output unclaimed => contradiction
  | inserted action output row absent unclaimed => contradiction
  | claimed nowMillis limit leaseUntilMillis => simp
  | published | failed | replayed | removed => cases returned

namespace SqlSystem

variable {codec : JsonCodec Payload} {config : SqlOutboxConfig} {system next : SqlSystem Payload}
variable {action : SqlAction Payload} {output : SqlOutput Payload}

/-- A statement's error changes nothing; its result is passed on. -/
theorem answer_cases {Result : Type} {result : Except String Result}
    {observe : Result → SqlSystem Payload × SqlOutput Payload}
    (taken : system.answer result observe = (next, output)) :
    (∃ error, next = system ∧ output = .refused error) ∨
      ∃ value, result = .ok value ∧ observe value = (next, output) := by
  cases result with
  | error error =>
    cases taken
    simp
  | ok value => exact .inr ⟨value, rfl, taken⟩

/-- An insert adds a row under a free id or changes nothing. -/
theorem insert_effect {values : Except String (List SqlValue)}
    (taken : (system.answer (values >>= system.table.insertValues)
        (fun result => ({ system with table := result.1 }, .inserted result.2))) = (next, output))
    (id : String) : SqlEffect system id action output (next.table.find? id) := by
  rcases answer_cases taken with ⟨_, rfl, rfl⟩ | ⟨_, inserted, same⟩
  · exact .kept _ _ not_mem_nil
  · cases same
    obtain ⟨_, _, executed⟩ := bind_eq_ok_iff.mp inserted
    rw [insertValues] at executed
    split at executed
    · rename_i row _
      cases executed
      rw [find?_insertRow]
      split
      · rename_i fresh
        exact .inserted _ _ row fresh.2 not_mem_nil
      · exact .kept _ _ not_mem_nil
    · cases executed

/-- An update guarded by an id and a status changes at most that row. -/
theorem update_effect {target status : String} {change : SqlRow → SqlRow}
    (keeps : ∀ row, (change row).id = row.id) {id : String}
    (changed : ∀ row, target = id → system.table.find? id = some row → row.status = status →
      SqlEffect system id action output (some (change row)))
    (unclaimed : id ∉ output.claimedIds) :
    SqlEffect system id action output
      ((system.table.update (SqlRow.isIn target status) change keeps).find? id) := by
  rw [find?_update_isIn]
  cases found : system.table.find? id with
  | none =>
    rw [map_none, ← found]
    exact .kept _ _ unclaimed
  | some row =>
    rw [map_some]
    split
    · simp_all
    · rw [← found]
      exact .kept _ _ unclaimed

/-- A statement that only reads keeps every row. -/
theorem read_effect {Result : Type} {result : Except String Result}
    {observe : Result → SqlSystem Payload × SqlOutput Payload}
    (taken : system.answer result observe = (next, output))
    (sameTable : ∀ value, (observe value).1.table = system.table)
    (unclaimed : ∀ value, (observe value).2.claimedIds = []) (id : String) :
    SqlEffect system id action output (next.table.find? id) := by
  rcases answer_cases taken with ⟨_, rfl, rfl⟩ | ⟨value, _, same⟩
  · exact .kept _ _ not_mem_nil
  · have kept := sameTable value
    have silent := unclaimed value
    rw [same] at kept silent
    rw [kept]
    exact .kept _ _ (by simp [silent])

/-- A claim keeps the rows it does not return. -/
theorem claim_effect {nowMillis : UInt64} {limit : Nat} {leaseUntilMillis : UInt64}
    (taken : system.answer (system.table.claimPending codec nowMillis limit leaseUntilMillis)
        (fun result => ({ system with table := result.1 }, .claimed result.2)) = (next, output))
    (id : String) :
    SqlEffect system id (.claimPending nowMillis limit leaseUntilMillis) output
      (next.table.find? id) := by
  rcases answer_cases taken with ⟨_, rfl, rfl⟩ | ⟨result, succeeded, same⟩
  · exact .kept _ _ not_mem_nil
  · cases same
    obtain ⟨lease, stored⟩ := claimPending_find? succeeded id
    simp only [stored]
    by_cases returned : id ∈ result.2.map OutboxMessage.id
    · rw [if_pos returned]
      obtain ⟨_, _, clock, _⟩ := claimPending_ok succeeded
      obtain ⟨row, found, _⟩ := (mem_claimPending_iff clock succeeded id).mp returned
      rw [found, map_some]
      exact .claimed nowMillis limit leaseUntilMillis result.2 row lease found returned
    · rw [if_neg returned]
      exact .kept _ _ returned

/-- Every step has one of the seven effects on every id. -/
theorem step_effect (taken : (sqlRelay codec config).step system action = some (next, output))
    (id : String) : SqlEffect system id action output (next.table.find? id) := by
  cases action with
  | enqueue | enqueueWithToasty => exact insert_effect (Option.some.inj taken) id
  | get | listDeadLetters => exact read_effect (Option.some.inj taken) (fun _ => rfl) (fun _ => rfl) id
  | claimPending => exact claim_effect (Option.some.inj taken) id
  | markPublished =>
    cases taken
    refine update_effect SqlRow.setPublished_id ?_ not_mem_nil
    rintro row rfl found publishing
    exact .published row found publishing
  | markFailedRead =>
    simp only [sqlRelay, step] at taken
    split at taken
    · cases taken
    · exact read_effect (Option.some.inj taken) (fun _ => rfl) (fun _ => rfl) id
  | markFailedWrite call =>
    simp only [sqlRelay, step] at taken
    split at taken
    · cases taken
    · rename_i update failing
      cases taken
      refine update_effect (SqlRow.setFailed_id _ _ _) ?_ not_mem_nil
      rintro row same found publishing
      exact .failed call update row failing same found publishing
  | replayDeadLetter =>
    cases taken
    refine update_effect SqlRow.setReplayed_id ?_ not_mem_nil
    rintro row rfl found dead
    exact .replayed _ row found dead
  | cleanupPublished limit =>
    cases taken
    rcases system.table.find?_cleanupPublished limit id with same | ⟨row, found, published, gone⟩
    · simp only [same]
      exact .kept _ _ not_mem_nil
    · simp only [gone]
      exact .removed limit _ row found published

/-- A statement whose result leaves the calls in progress alone leaves them alone when it
fails, too. -/
theorem answer_failing {Result : Type} {result : Except String Result}
    {observe : Result → SqlSystem Payload × SqlOutput Payload}
    (same : ∀ value, (observe value).1.failing = system.failing)
    (taken : system.answer result observe = (next, output)) :
    next.failing = system.failing := by
  rcases answer_cases taken with ⟨_, rfl, _⟩ | ⟨value, _, observed⟩
  · rfl
  · rw [← same value, observed]

/-- The calls in progress change only by a `mark_failed` that reads or writes. -/
theorem step_failing (taken : (sqlRelay codec config).step system action = some (next, output)) :
    next.failing = system.failing ∨
      (∃ call id error nextAttemptMillis update,
        system.table.markFailedRead codec config id error nextAttemptMillis = .ok update ∧
        next.failing = Function.update system.failing call (some update)) ∨
      ∃ call, next.failing = Function.update system.failing call none := by
  cases action with
  | enqueue | enqueueWithToasty | get | claimPending | listDeadLetters =>
    exact .inl (answer_failing (fun _ => rfl) (Option.some.inj taken))
  | markPublished | replayDeadLetter | cleanupPublished =>
    cases taken
    exact .inl rfl
  | markFailedRead call id error nextAttemptMillis =>
    simp only [sqlRelay, step] at taken
    split at taken
    · cases taken
    · rcases answer_cases (Option.some.inj taken) with ⟨_, rfl, _⟩ | ⟨update, read, same⟩
      · exact .inl rfl
      · grind
  | markFailedWrite call =>
    simp only [sqlRelay, step] at taken
    grind

/-- An update of `mark_failed` whose row is being published records the failure. -/
theorem write_find? {call : Nat} {update : FailedUpdate Payload} {row : SqlRow}
    (taken : (sqlRelay codec config).step system (.markFailedWrite call) = some (next, output))
    (failing : system.failing call = some update)
    (found : system.table.find? update.id = some row) (publishing : row.status = "publishing") :
    next.table.find? update.id =
      some (row.setFailed update.attempts.toInt32 update.nextAttempt update.error) := by
  simp only [sqlRelay, step, failing] at taken
  cases taken
  simp only [markFailedWrite, find?_update_isIn, found, map_some,
    publishing, and_self, if_true]

end SqlSystem

open SqlSystem

/-! ## Dead letters -/

/-- The dead-letter query's condition holds of the row under this id. -/
def DeadLetter (config : SqlOutboxConfig) (id : String) (system : SqlSystem Payload) : Prop :=
  ∃ row, system.table.find? id = some row ∧ row.deadLetter config = true

/-- In a claim whose times are in range and whose rows all decode, each due dead
letter is preceded by as many claimable rows as the claim may return. Other calls are
unrestricted. -/
def SparesDeadLetters (codec : JsonCodec Payload) (config : SqlOutboxConfig)
    (system : SqlSystem Payload) : SqlAction Payload → Prop
  | .claimPending nowMillis limit leaseUntilMillis =>
      ∀ now, millisToI64 nowMillis = .ok now → leaseUntilMillis.toNat < 2 ^ 63 →
        (∀ row ∈ system.table.firstMatching (SqlRow.claimable now) (clampLimit limit),
          ∃ message, decodeMessage codec row = .ok message) →
        ∀ id row, system.table.find? id = some row → row.deadLetter config = true →
          row.claimable now = true → clampLimit limit ≤ system.table.rank (SqlRow.claimable now) id
  | _ => True

variable {codec : JsonCodec Payload} {config : SqlOutboxConfig} {system next : SqlSystem Payload}
variable {action : SqlAction Payload} {output : SqlOutput Payload}

section

variable (taken : (sqlRelay codec config).step system action = some (next, output))
include taken

/-- Only a claim that returns it or a replay takes a row out of the dead letters. -/
theorem deadLetter_step {id : String} (notReplay : ∀ id, action ≠ .replayDeadLetter id)
    (dead : DeadLetter config id system) (unclaimed : id ∉ output.claimedIds) :
    DeadLetter config id next := by
  obtain ⟨row, found, condition⟩ := dead
  have status : ∀ other, system.table.find? id = some other → other.status = "failed" := by
    intro other foundAgain
    obtain rfl := Option.some.inj (found.symm.trans foundAgain)
    exact (SqlRow.deadLetter_iff.mp condition).1
  have effect := step_effect taken id
  generalize stored : next.table.find? id = after at effect
  cases effect with
  | kept => exact ⟨row, stored.trans found, condition⟩
  | inserted action output fresh absent => simp_all
  | claimed nowMillis limit leaseUntilMillis messages other lease foundAgain returned =>
    contradiction
  | published other foundAgain publishing => simp_all
  | failed call update other failing same foundAgain publishing => simp_all
  | replayed => exact absurd rfl (notReplay id)
  | removed limit count other foundAgain published => simp_all

/-- One step returns no dead letter exactly when it is not a claim that reaches one. -/
theorem spares_iff :
    (∀ id, DeadLetter config id system → id ∉ output.claimedIds) ↔
      SparesDeadLetters codec config system action := by
  cases action with
  | claimPending =>
    constructor
    · intro spared now clock lease decodes id row found dead due
      -- a claim with its times in range succeeds when every row it selects decodes
      obtain ⟨messages, decoded⟩ := mapM_decodeMessage_ok_iff.mpr decodes
      obtain ⟨result, succeeded⟩ : ∃ result, claimPending codec system.table _ _ _ = .ok result := by
        simp only [claimPending, bind_eq_ok_iff]
        exact ⟨_, now, clock, messages, decoded, claimLoop_eq (millisToI64_of_lt lease) _ messages⟩
      simp only [sqlRelay, SqlSystem.step, succeeded, SqlSystem.answer] at taken
      cases taken
      by_contra before
      exact spared id ⟨row, found, dead⟩ ((mem_claimPending_iff clock succeeded id).mpr
        ⟨row, found, due, Nat.lt_of_not_le before⟩)
    · intro preceded id dead returned
      obtain ⟨row, found, condition⟩ := dead
      rcases answer_cases (Option.some.inj taken) with
        ⟨error, rfl, rfl⟩ | ⟨result, succeeded, same⟩
      · cases returned
      · cases same
        have some : result.2 ≠ [] := by
          intro none
          rw [none] at returned
          cases returned
        obtain ⟨now, _, clock, lease, decodes, _⟩ := claimPending_ok succeeded
        obtain ⟨_, foundAgain, due, position⟩ :=
          (mem_claimPending_iff clock succeeded id).mp returned
        obtain rfl := Option.some.inj (found.symm.trans foundAgain)
        exact absurd position (Nat.not_lt_of_le
          (preceded now clock (lease some) decodes id row found condition due))
  | _ =>
    refine ⟨fun _ => trivial, fun _ id _ returned => ?_⟩
    obtain ⟨_, _, _, claim⟩ := (step_effect taken id).claim_of_mem returned
    cases claim

end

/-- Along any interleaving without a replay, dead letters stay dead letters and
unclaimed exactly when no claim reaches one. -/
theorem deadLetters_stay_iff (codec : JsonCodec Payload) (config : SqlOutboxConfig)
    (start : SqlSystem Payload) (events : List (SqlAction Payload × SqlOutput Payload))
    (noReplay : ∀ event ∈ events, ∀ id, event.1 ≠ .replayDeadLetter id) :
    (∀ id, (sqlRelay codec config).Persists (DeadLetter config id)
        (fun _ output => id ∉ output.claimedIds) start events) ↔
      (sqlRelay codec config).Along
        (fun system action _ _ => SparesDeadLetters codec config system action) start events := by
  simp only [persists_iff]
  rw [along_forall_iff]
  constructor
  · intro along before action output after system next split run taken
    refine (spares_iff taken).mp fun id dead => ?_
    exact (along before action output after system next split run taken id dead).2
  · intro along before action output after system next split run taken id dead
    have spared := (spares_iff taken).mpr
      (along before action output after system next split run taken) id dead
    have notReplay : ∀ id, action ≠ .replayDeadLetter id :=
      noReplay (action, output) (by simp [split])
    exact ⟨deadLetter_step taken notReplay dead spared, spared⟩

/-- A dead letter that still has a retry time is left alone by a claim before it. -/
theorem deadLetters_stay_waiting :
    let config : SqlOutboxConfig := ⟨1, by decide⟩
    let row : SqlRow :=
      { id := "msg-1", topic := "orders", messageKey := none, headersJson := "\x7b\x7d",
        idempotencyKey := "order-1", payloadJson := "null", status := "failed", attempts := 1,
        nextAttemptMillis := some 100, leaseUntilMillis := none, lastError := none }
    let start : SqlSystem Unit := .idle ((KeyedMap.empty _).insert row)
    let events : List (SqlAction Unit × SqlOutput Unit) := [(.claimPending 50 10 60, .claimed [])]
    (∃ final, (sqlRelay nullCodec config).Run start events final) ∧
      DeadLetter config "msg-1" start ∧
      ∀ id, (sqlRelay nullCodec config).Persists (DeadLetter config id)
        (fun _ output => id ∉ output.claimedIds) start events := by
  intro config row start events
  have run : ∃ final, (sqlRelay nullCodec config).Run start events final := ⟨_, .single rfl⟩
  refine ⟨run, ⟨row, rfl, by decide⟩, ?_⟩
  refine (deadLetters_stay_iff nullCodec config start events (by simp [events])).mpr ?_
  obtain ⟨_, stepped⟩ := run
  obtain ⟨_, taken, _⟩ := run_cons_iff.mp stepped
  refine (along_cons_iff taken).mpr ⟨?_, along_nil _ _⟩
  intro now clock _ _ id other found _ due
  obtain rfl : row = other := by
    have member := (KeyedMap.find?_eq_some_iff.mp found).1
    exact (mem_singleton.mp member).symm
  cases clock
  exact absurd due (by decide)

/-- With one attempt allowed: the message is claimed, its failure is recorded, and it is
a dead letter. -/
def exhausted : List (SqlAction Unit) :=
  [.enqueue (.new "msg-1" "orders" "order-1" ()), .claimPending 0 10 10,
    .markFailedRead 0 "msg-1" "broker down" (some 20), .markFailedWrite 0]

/-- The next claim returns the dead letter. -/
theorem deadLetter_claimed_again :
    let config : SqlOutboxConfig := ⟨1, by decide⟩
    ¬ ∀ (events : List (SqlAction Unit × SqlOutput Unit)) (final : SqlSystem Unit),
      (sqlRelay nullCodec config).Run (.idle (KeyedMap.empty _)) events final →
      (∀ event ∈ events, ∀ id, event.1 ≠ .replayDeadLetter id) →
      ∀ id, (sqlRelay nullCodec config).Persists (DeadLetter config id)
        (fun _ output => id ∉ output.claimedIds) (.idle (KeyedMap.empty _)) events := by
  intro config stays
  have evaluated : ((sqlRelay nullCodec config).exec (.idle (KeyedMap.empty _)) exhausted).bind
      (fun middle => ((sqlRelay nullCodec config).exec middle.1 [.claimPending 0 10 10]).map
        (fun last => ((middle.1.table.find? "msg-1").map (SqlRow.deadLetter config),
          last.2.map (fun event => event.2.claimedIds)))) = some (some true, [["msg-1"]]) := by decide
  obtain ⟨⟨middle, before⟩, executed, continued⟩ := bind_eq_some_iff.mp evaluated
  obtain ⟨⟨last, after⟩, claiming, observed⟩ := map_eq_some_iff.mp continued
  obtain ⟨known, returned⟩ := Prod.mk.inj observed
  obtain ⟨row, found, dead⟩ := map_eq_some_iff.mp known
  obtain ⟨whole, actions⟩ := exec_twice executed claiming
  have noReplay : ∀ event ∈ before ++ after, ∀ id, event.1 ≠ .replayDeadLetter id := by
    intro event member id same
    simpa [same, exhausted] using actions event member
  obtain ⟨_, unclaimed⟩ := stays (before ++ after) last whole noReplay "msg-1" before after [] middle
    last (by simp) (exec_run executed) (exec_run claiming) ⟨row, found, dead⟩
  have claimed : ["msg-1"] ∈ after.map (fun event => event.2.claimedIds) := by
    rw [returned]
    exact mem_singleton_self _
  obtain ⟨event, member, ids⟩ := mem_map.mp claimed
  exact unclaimed event member (ids ▸ mem_singleton_self _)

/-! ## Counting attempts -/

/-- The attempts that the read of a `mark_failed` call saw; none for a missing row. -/
def FailedUpdate.seen (update : FailedUpdate Payload) : Nat :=
  (update.current.map (fun message => message.attempts.toNat)).getD 0

/-- What calls in progress have read was decoded from INTEGER columns. -/
def ReadsDecoded (system : SqlSystem Payload) : Prop :=
  ∀ call update message, system.failing call = some update → update.current = some message →
    message.attempts.toNat < 2 ^ 31

/-- No row's attempts decrease, and an update of `mark_failed` that takes effect raises
them by one. -/
def CountsAttempts (system : SqlSystem Payload) (action : SqlAction Payload)
    (next : SqlSystem Payload) : Prop :=
  (∀ id row later, system.table.find? id = some row → next.table.find? id = some later →
      row.attempts.toInt ≤ later.attempts.toInt) ∧
    ∀ call update row later, action = .markFailedWrite call →
      system.failing call = some update → system.table.find? update.id = some row →
      row.status = "publishing" → next.table.find? update.id = some later →
      later.attempts.toInt = row.attempts.toInt + 1

/-- An update of `mark_failed` that takes effect finds the attempts its read saw, and
they are not the largest INTEGER. -/
def WritesWhatItRead (system : SqlSystem Payload) : SqlAction Payload → Prop
  | .markFailedWrite call =>
      ∀ update row, system.failing call = some update → system.table.find? update.id = some row →
        row.status = "publishing" →
        row.attempts.toInt = update.seen ∧ row.attempts.toInt < 2 ^ 31 - 1
  | _ => True

/-- A read yields a decoded message. -/
theorem markFailedRead_current {table : SqlTable} {id error : String}
    {nextAttemptMillis : Option UInt64} {update : FailedUpdate Payload}
    (read : table.markFailedRead codec config id error nextAttemptMillis = .ok update)
    {message : OutboxMessage Payload} (current : update.current = some message) :
    message.attempts.toNat < 2 ^ 31 := by
  simp only [markFailedRead, bind_eq_ok_iff] at read
  obtain ⟨stored, got, _, _, built⟩ := read
  cases built
  obtain rfl : stored = some message := current
  rw [SqlTable.get] at got
  cases found : table.find? id with
  | none =>
    rw [found] at got
    cases got
  | some row =>
    rw [found, transpose] at got
    cases decoded : decodeMessage codec row with
    | error =>
      rw [decoded] at got
      cases got
    | ok =>
      rw [decoded] at got
      obtain rfl := Option.some.inj (Except.ok.inj got)
      exact (decodeMessage_ok decoded).2

/-- Every step keeps that. -/
theorem readsDecoded_step (decoded : ReadsDecoded system)
    (taken : (sqlRelay codec config).step system action = some (next, output)) :
    ReadsDecoded next := by
  rcases step_failing taken with same | ⟨call, id, error, nextAttemptMillis, update, read,
    started⟩ | ⟨call, finished⟩
  · rw [ReadsDecoded, same]
    exact decoded
  · intro other entry message entered current
    rw [started, Function.update_apply] at entered
    split at entered
    · cases entered
      exact markFailedRead_current read current
    · exact decoded other entry message entered current
  · intro other entry message entered current
    rw [finished, Function.update_apply] at entered
    split at entered
    · cases entered
    · exact decoded other entry message entered current

/-- The bound value means one more than the column exactly when the column is what the
read saw and one more is still an INTEGER. -/
theorem bound_attempts_iff {update : FailedUpdate Payload}
    (decoded : ∀ message, update.current = some message → message.attempts.toNat < 2 ^ 31)
    (column : Int32) :
    update.attempts.toInt32.toInt = column.toInt + 1 ↔
      column.toInt = update.seen ∧ column.toInt < 2 ^ 31 - 1 := by
  have low := column.le_toInt
  have next : update.attempts.toNat = update.seen + 1 ∧ update.seen < 2 ^ 31 := by
    rw [FailedUpdate.attempts, FailedUpdate.seen]
    cases current : update.current with
    | none => simp
    | some message =>
      have small := decoded message current
      simp only [map_some, getD_some, saturatingAddU32_toNat]
      exact ⟨by simp; omega, small⟩
  rw [toInt32_toInt, next.1]
  split <;> omega

/-- One step counts attempts exactly when an effective update finds what its read saw. -/
theorem counts_iff (decoded : ReadsDecoded system)
    (taken : (sqlRelay codec config).step system action = some (next, output))
    (notReplay : ∀ id, action ≠ .replayDeadLetter id) :
    CountsAttempts system action next ↔ WritesWhatItRead system action := by
  constructor
  · rintro ⟨-, raises⟩
    cases action with
    | markFailedWrite call =>
      intro update row failing found publishing
      have stored := write_find? taken failing found publishing
      have raised := raises call update row _ rfl failing found publishing stored
      exact (bound_attempts_iff (decoded call update · failing) row.attempts).mp raised
    | _ => trivial
  · intro writes
    have raised : ∀ call update row, action = .markFailedWrite call →
        system.failing call = some update → system.table.find? update.id = some row →
        row.status = "publishing" → update.attempts.toInt32.toInt = row.attempts.toInt + 1 := by
      rintro call update row rfl failing found publishing
      exact (bound_attempts_iff (decoded call update · failing) row.attempts).mpr
        (writes update row failing found publishing)
    constructor
    · intro id row later found stored
      have effect := step_effect taken id
      rw [stored] at effect
      generalize after : some later = result at effect
      cases effect with
      | kept => simp_all
      | inserted action output fresh absent => simp_all
      | claimed nowMillis limit leaseUntilMillis messages other lease foundAgain =>
        obtain rfl := Option.some.inj (found.symm.trans foundAgain)
        cases after
        exact le_rfl
      | published other foundAgain =>
        obtain rfl := Option.some.inj (found.symm.trans foundAgain)
        cases after
        exact le_rfl
      | failed call update other failing same foundAgain publishing =>
        obtain rfl := Option.some.inj (found.symm.trans foundAgain)
        cases after
        have one := raised call update row rfl failing (same ▸ found) publishing
        simp only [SqlRow.setFailed]
        omega
      | replayed => exact absurd rfl (notReplay id)
      | removed => cases after
    · rintro call update row _ rfl failing found publishing stored
      rw [write_find? taken failing found publishing] at stored
      cases stored
      exact raised call update row rfl failing found publishing

/-- Along any interleaving without a replay, the attempts column counts failures
exactly when every update of `mark_failed` that takes effect finds the column as its
read saw it, below the largest INTEGER. -/
theorem attempts_counted_iff (codec : JsonCodec Payload) (config : SqlOutboxConfig)
    (table : SqlTable) (events : List (SqlAction Payload × SqlOutput Payload))
    (noReplay : ∀ event ∈ events, ∀ id, event.1 ≠ .replayDeadLetter id) :
    (sqlRelay codec config).Along (fun system action _ next => CountsAttempts system action next)
        (.idle table) events ↔
      (sqlRelay codec config).Along (fun system action _ _ => WritesWhatItRead system action)
        (.idle table) events := by
  have initial : ReadsDecoded (idle table : SqlSystem Payload) := by
    intro call update message impossible
    cases impossible
  exact along_congr initial (fun _ _ _ _ decoded taken => readsDecoded_step decoded taken)
    (fun _ action output _ decoded taken member =>
      counts_iff decoded taken (noReplay (action, output) member))

/-- A failure recorded right after its read is counted. -/
theorem attempts_counted_undisturbed :
    let row : SqlRow :=
      { id := "msg-1", topic := "orders", messageKey := none, headersJson := "\x7b\x7d",
        idempotencyKey := "order-1", payloadJson := "null", status := "publishing", attempts := 3,
        nextAttemptMillis := none, leaseUntilMillis := some 10, lastError := none }
    let table : SqlTable := (KeyedMap.empty _).insert row
    let events : List (SqlAction Unit × SqlOutput Unit) :=
      [(.markFailedRead 0 "msg-1" "timeout" none, .reading), (.markFailedWrite 0, .done)]
    (∃ final, (sqlRelay nullCodec .default).Run (.idle table) events final ∧
        (final.table.find? "msg-1").map SqlRow.attempts = some 4) ∧
      (sqlRelay nullCodec .default).Along
        (fun system action _ next => CountsAttempts system action next) (.idle table) events := by
  intro row table events
  have run : ∃ final, (sqlRelay nullCodec .default).Run (.idle table) events final ∧
      (final.table.find? "msg-1").map SqlRow.attempts = some 4 :=
    ⟨_, .step rfl (.step rfl (.done _)), rfl⟩
  refine ⟨run, (attempts_counted_iff nullCodec .default table events (by simp [events])).mpr ?_⟩
  obtain ⟨_, stepped, _⟩ := run
  obtain ⟨_, read, rest⟩ := run_cons_iff.mp stepped
  obtain ⟨_, written, _⟩ := run_cons_iff.mp rest
  refine (along_cons_iff read).mpr
    ⟨trivial, (along_cons_iff written).mpr ⟨?_, along_nil _ _⟩⟩
  obtain ⟨rfl, _⟩ := Prod.mk.inj (Option.some.inj read)
  intro update other failing found _
  cases failing
  obtain rfl : row = other := Option.some.inj found
  decide

/-- A worker reads the attempts of its message and pauses. Its lease ends, and two other
claims fail and are counted; the message is then claimed a fourth time. -/
def pausedFailure : List (SqlAction Unit) :=
  [.enqueue (.new "msg-1" "orders" "order-1" ()),
    .claimPending 0 10 10, .markFailedRead 0 "msg-1" "timeout" (some 5),
    .claimPending 10 10 20, .markFailedRead 1 "msg-1" "timeout" (some 15), .markFailedWrite 1,
    .claimPending 15 10 25, .markFailedRead 2 "msg-1" "timeout" (some 30), .markFailedWrite 2,
    .claimPending 30 10 40]

/-- The paused worker's update takes the attempts from two back to one. -/
theorem attempts_lost :
    ¬ ∀ (events : List (SqlAction Unit × SqlOutput Unit)) (final : SqlSystem Unit),
      (sqlRelay nullCodec .default).Run (.idle (KeyedMap.empty _)) events final →
      (∀ event ∈ events, ∀ id, event.1 ≠ .replayDeadLetter id) →
      (sqlRelay nullCodec .default).Along
        (fun system action _ next => CountsAttempts system action next)
        (.idle (KeyedMap.empty _)) events := by
  intro counts
  have evaluated : ((sqlRelay nullCodec .default).exec (.idle (KeyedMap.empty _)) pausedFailure).bind
      (fun middle => ((sqlRelay nullCodec .default).exec middle.1 [.markFailedWrite 0]).map
        (fun last => ((middle.1.table.find? "msg-1").map SqlRow.attempts,
          (last.1.table.find? "msg-1").map SqlRow.attempts))) = some (some 2, some 1) := by decide
  obtain ⟨⟨middle, before⟩, executed, continued⟩ := bind_eq_some_iff.mp evaluated
  obtain ⟨⟨_, after⟩, writing, observed⟩ := map_eq_some_iff.mp continued
  obtain ⟨counted, recounted⟩ := Prod.mk.inj observed
  obtain ⟨row, found, two⟩ := map_eq_some_iff.mp counted
  obtain ⟨lastRow, lastFound, one⟩ := map_eq_some_iff.mp recounted
  obtain ⟨whole, actions⟩ := exec_twice executed writing
  have noReplay : ∀ event ∈ before ++ after, ∀ id, event.1 ≠ .replayDeadLetter id := by
    intro event member id same
    simpa [same, pausedFailure] using actions event member
  obtain ⟨⟨_, output⟩, taken, built⟩ := bind_eq_some_iff.mp writing
  cases built
  have law := counts _ _ whole noReplay before (.markFailedWrite 0) output [] middle _ rfl
    (exec_run executed) taken
  have grows := law.1 "msg-1" row lastRow found lastFound
  rw [two, one] at grows
  exact absurd grows (by decide)

/-! ## Rows that stay -/

/-- What a row carries, without the state of its delivery. -/
def SqlRow.carried (row : SqlRow) : List (Option String) :=
  [row.id, row.topic, row.messageKey, row.headersJson, row.idempotencyKey, row.payloadJson]

/-- In every interleaving a row is lost only by the cleanup, once it is published, and always carries
the same. A published row is final: no claim returns it and no update changes it. -/
theorem rows_stay (codec : JsonCodec Payload) (config : SqlOutboxConfig) (id : String)
    (start : SqlSystem Payload) (events : List (SqlAction Payload × SqlOutput Payload)) :
    (sqlRelay codec config).Along (fun system action output next =>
      ∀ row, system.table.find? id = some row →
        (∃ after, next.table.find? id = some after ∧ after.carried = row.carried ∧
          (row.status = "published" → after = row ∧ id ∉ output.claimedIds)) ∨
        next.table.find? id = none ∧ row.status = "published" ∧
          ∃ limit, action = .cleanupPublished limit) start events := by
  intro _ _ _ _ system next _ _ taken row found
  have effect := step_effect taken id
  generalize next.table.find? id = stored at effect
  cases effect with
  | kept action output unclaimed => exact .inl ⟨row, found, rfl, fun _ => ⟨rfl, unclaimed⟩⟩
  | claimed nowMillis limit leaseUntilMillis messages other lease again returned =>
    obtain rfl := Option.some.inj (found.symm.trans again)
    refine .inl ⟨_, rfl, rfl, fun published => ?_⟩
    rcases answer_cases (Option.some.inj taken) with ⟨_, _, refused⟩ | ⟨_, succeeded, same⟩
    · cases refused
    · cases same
      obtain ⟨_, _, clock, _⟩ := claimPending_ok succeeded
      obtain ⟨_, stored, due, _⟩ := (mem_claimPending_iff clock succeeded id).mp returned
      obtain rfl := Option.some.inj (found.symm.trans stored)
      simp [SqlRow.claimable, published] at due
  | removed limit count other again published =>
    obtain rfl := Option.some.inj (found.symm.trans again)
    exact .inr ⟨rfl, published, limit, rfl⟩
  | inserted | published | failed | replayed =>
    simp_all [SqlRow.carried, SqlRow.setPublished, SqlRow.setFailed, SqlRow.setReplayed]

end Roze.TransactionSql
