import Roze.Idempotency.Stores

/-!
# One record for one request

Each store is meant to keep one record for each scope and key. Here is what a call does to that
record alone, and that the store in memory and the scripts in Redis do just that.
-/

namespace Roze.Idempotency

open Roze.Library

universe u

variable {Response : Type u}

/-- A record: whose request it is, the response once there is one, and the end of the lease. -/
structure Entry (Response : Type u) where
  fingerprint : String
  response : Option Response
  lease : Option Nat
deriving DecidableEq

/-- The record of one scope and key. -/
abbrev Cell (Response : Type u) := Option (Entry Response)

namespace Cell

/-- `blocks` compares the end of a lease with a reading of the clock. -/
def begin (blocks : Nat → Nat → Bool) (cell : Cell Response) (fingerprint : String)
    (now leaseEnd : Nat) : Cell Response × Decision Response :=
  match cell with
  | none => (some ⟨fingerprint, none, some leaseEnd⟩, .execute)
  | some entry =>
      if entry.fingerprint ≠ fingerprint then (cell, .conflict)
      else
        match entry.response with
        | some response => (cell, .replay response)
        | none =>
            if entry.lease.any (fun lease => blocks lease now) then (cell, .inFlight)
            else (some { entry with lease := some leaseEnd }, .execute)

def complete (cell : Cell Response) (fingerprint : String) (response : Response) :
    Cell Response × Except String Unit :=
  match cell with
  | none => (cell, .error notStarted)
  | some entry =>
      if entry.fingerprint ≠ fingerprint then (cell, .error fingerprintChanged)
      else (some { entry with response := some response, lease := none }, .ok ())

def fail (cell : Cell Response) (fingerprint : String) : Cell Response :=
  match cell with
  | none => none
  | some entry =>
      if entry.fingerprint = fingerprint ∧ entry.response.isNone then none else cell

def call (blocks : Nat → Nat → Bool) (cell : Cell Response) :
    Call Response → Cell Response × Answer Response
  | .begin fingerprint nowMillis leaseMillis =>
      let begun := cell.begin blocks fingerprint nowMillis.toNat
        (saturatingAddU64 nowMillis leaseMillis).toNat
      (begun.1, .decided (.ok begun.2))
  | .complete fingerprint response =>
      let completed := cell.complete fingerprint response
      (completed.1, .finished completed.2)
  | .fail fingerprint => (cell.fail fingerprint, .finished (.ok ()))

end Cell

/-- The calls on one record; `shown` is the answer that the caller of a store gets. -/
def cells (Response : Type u) (blocks : Nat → Nat → Bool)
    (shown : Call Response → Answer Response → Answer Response) :
    Machine (Cell Response) (Call Response) (Answer Response) where
  step cell call := some ((cell.call blocks call).map id (shown call))

theorem cells_step_iff {blocks : Nat → Nat → Bool}
    {shown : Call Response → Answer Response → Answer Response} {cell next : Cell Response}
    {call : Call Response} {answer : Answer Response} :
    (cells Response blocks shown).step cell call = some (next, answer) ↔
      (cell.call blocks call).1 = next ∧ shown call (cell.call blocks call).2 = answer := by
  simp only [cells, Option.some.injEq, Prod.ext_iff, Prod.map_fst, Prod.map_snd, id]

/-- A lease blocks until the clock has reached its end. -/
def untilEnd (lease now : Nat) : Bool := decide (now < lease)

/-! ## In memory -/

def IdempotencyRecord.entry (record : IdempotencyRecord Response) : Entry Response :=
  ⟨record.fingerprint, record.response, record.leaseUntilMillis.map UInt64.toNat⟩

open IdempotencyRecord

namespace InMemoryStore

def cell (store : InMemoryStore Response) (scope key : String) : Cell Response :=
  (store.get? (joinedKey scope key)).map IdempotencyRecord.entry

theorem cell_put (store : InMemoryStore Response) (scope key : String)
    (record : IdempotencyRecord Response) :
    cell (Entries.put store (joinedKey scope key) record) scope key = some record.entry := by
  simp [cell, Entries.get?_put]

theorem cell_erase (store : InMemoryStore Response) (scope key : String) :
    cell (Entries.erase store (joinedKey scope key)) scope key = none := by
  simp [cell, Entries.get?_erase]

/-- The two forms of a record compare its lease with the clock alike. -/
theorem any_untilEnd (lease : Option UInt64) (now : UInt64) :
    (lease.map UInt64.toNat).any (fun lease => untilEnd lease now.toNat) =
      lease.any (fun lease => decide (now < lease)) := by
  cases lease with
  | none | some => rfl

section

variable (store : InMemoryStore Response)
include store

theorem begin_cell (scope key fingerprint : String) (now lease : UInt64) :
    (cell (store.begin scope key fingerprint now lease).1 scope key,
        (store.begin scope key fingerprint now lease).2) =
      (store.cell scope key).begin untilEnd fingerprint now.toNat
        (saturatingAddU64 now lease).toNat := by
  unfold begin
  cases found : store.get? (joinedKey scope key) with
  | none =>
    have shown : store.cell scope key = none := by simp [cell, found]
    simp [Cell.begin, entry, shown, cell_put]
  | some record =>
    have shown : store.cell scope key = some record.entry := by simp [cell, found]
    have compared := any_untilEnd record.leaseUntilMillis now
    by_cases same : record.fingerprint = fingerprint
    · cases done : record.response with
      | some => simp [Cell.begin, entry, same, done, shown]
      | none =>
        cases blocked : record.leaseUntilMillis.any (fun lease => decide (now < lease)) with
        | true =>
          simp [Cell.begin, entry, same, done, shown, blocked, compared]
        | false =>
          simp [Cell.begin, entry, same, done, shown, blocked, compared, cell_put]
    · simp [Cell.begin, entry, same, shown]

theorem complete_cell (scope key fingerprint : String) (response : Response) :
    (cell (store.complete scope key fingerprint response).1 scope key,
        (store.complete scope key fingerprint response).2) =
      (store.cell scope key).complete fingerprint response := by
  unfold complete
  cases found : store.get? (joinedKey scope key) with
  | none => simp [cell, found, Cell.complete]
  | some record =>
    have shown : store.cell scope key = some record.entry := by simp [cell, found]
    by_cases same : record.fingerprint = fingerprint
    · simp [Cell.complete, entry, same, shown, cell_put]
    · simp [Cell.complete, entry, same, shown]

theorem fail_cell (scope key fingerprint : String) :
    (cell (store.fail scope key fingerprint).1 scope key,
        (store.fail scope key fingerprint).2) =
      ((store.cell scope key).fail fingerprint, .ok ()) := by
  unfold fail
  cases found : store.get? (joinedKey scope key) with
  | none => simp [cell, found, Cell.fail]
  | some record =>
    have shown : store.cell scope key = some record.entry := by simp [cell, found]
    by_cases released : record.fingerprint = fingerprint ∧ record.response.isNone
    · simp [Cell.fail, entry, released, shown, cell_erase]
    · rw [shown, Cell.fail]
      simp only [Option.any_some, Bool.and_eq_true, decide_eq_true_eq, released, if_false, shown,
        entry]

/-- A call does to the record of its scope and key what it does to a record alone. -/
theorem call_cell (scope key : String) (call : Call Response) :
    (cell (store.call scope key call).1 scope key, (store.call scope key call).2) =
      (store.cell scope key).call untilEnd call := by
  cases call with
  | begin fingerprint now lease =>
    have begun := begin_cell store scope key fingerprint now lease
    simp only [InMemoryStore.call, Cell.call, ← begun]
    rfl
  | complete fingerprint response =>
    have completed := complete_cell store scope key fingerprint response
    simp only [InMemoryStore.call, Cell.call, ← completed]
    rfl
  | fail fingerprint =>
    have failed := fail_cell store scope key fingerprint
    simp only [Prod.mk.injEq] at failed
    simp only [InMemoryStore.call, Cell.call, ← failed.1, ← failed.2]
    rfl

end

/-- Another joined text is another record. -/
theorem call_frame {store : InMemoryStore Response} {scope key scope' key' : String}
    (other : joinedKey scope key ≠ joinedKey scope' key') (call : Call Response) :
    cell (store.call scope key call).1 scope' key' = store.cell scope' key' := by
  have put : ∀ record, cell (Entries.put store (joinedKey scope key) record) scope' key' =
      store.cell scope' key' := by
    intro record
    simp [cell, Entries.get?_put, other]
  cases call with
  | begin =>
    simp only [InMemoryStore.call, begin, Prod.map_fst, id]
    grind
  | complete =>
    simp only [InMemoryStore.call, complete, Prod.map_fst, id]
    grind
  | fail =>
    simp only [InMemoryStore.call, fail, Prod.map_fst, id]
    split
    · simp [cell, Entries.get?_erase, other]
    · rfl

end InMemoryStore

/-! ## The scripts in Redis -/

def RedisHash.entry (hash : RedisHash) : Entry String :=
  ⟨hash.fingerprint, hash.response, hash.leaseUntil⟩

/-- A lease blocks until the clock has reached its end, as a script reads them. -/
def RedisServer.untilEnd (server : RedisServer) (lease now : Nat) : Bool :=
  decide (server.read now < server.read lease)

/-- A hash without a lease blocks nobody. -/
theorem RedisServer.any_untilEnd (server : RedisServer) (lease : Option Nat) (now : Nat) :
    lease.any (fun lease => server.untilEnd lease now) =
      decide (server.read now < server.read (lease.getD 0)) := by
  cases lease with
  | none => simp [server.exact 0 (Nat.zero_le _)]
  | some => rfl

theorem beginScript_cell (server : RedisServer) (hash : Option RedisHash) (fingerprint : String)
    (now leaseUntil ttl : Nat) :
    ((beginScript server hash fingerprint now leaseUntil ttl).hash.map RedisHash.entry,
        decisionOf (beginScript server hash fingerprint now leaseUntil ttl).reply) =
      (Cell.begin server.untilEnd (hash.map RedisHash.entry) fingerprint now leaseUntil).map id
        .ok := by
  unfold beginScript
  cases hash with
  | none => rfl
  | some found =>
    have compared := server.any_untilEnd found.leaseUntil now
    by_cases same : found.fingerprint = fingerprint
    · cases done : found.response with
      | some => simp [Cell.begin, RedisHash.entry, same, done, decisionOf]
      | none =>
        by_cases blocked : server.read now < server.read (found.leaseUntil.getD 0)
        · simp [Cell.begin, RedisHash.entry, same, done, blocked, compared, decisionOf]
        · simp [Cell.begin, RedisHash.entry, same, done, blocked, compared, decisionOf]
    · simp [Cell.begin, RedisHash.entry, same, decisionOf]

theorem completeScript_cell (hash : Option RedisHash) (fingerprint response : String) (ttl : Nat) :
    ((completeScript hash fingerprint response ttl).hash.map RedisHash.entry,
        completionOf (completeScript hash fingerprint response ttl).reply) =
      Cell.complete (hash.map RedisHash.entry) fingerprint response := by
  unfold completeScript
  cases hash with
  | none => rfl
  | some found =>
    by_cases same : found.fingerprint = fingerprint
    · simp [Cell.complete, RedisHash.entry, same, completionOf]
    · simp [Cell.complete, RedisHash.entry, same, completionOf]

theorem failScript_cell (hash : Option RedisHash) (fingerprint : String) :
    (failScript hash fingerprint).hash.map RedisHash.entry =
      Cell.fail (hash.map RedisHash.entry) fingerprint := by
  unfold failScript
  cases hash with
  | none => rfl
  | some found =>
    by_cases released : found.fingerprint = fingerprint ∧ found.response = none
    · simp [Cell.fail, RedisHash.entry, released]
    · simp [Cell.fail, RedisHash.entry, released]

/-- A script does to its hash what the call does to a record alone. -/
theorem scriptOf_cell (server : RedisServer) (ttl : Nat) (hash : Option RedisHash)
    (call : Call String) :
    ((scriptOf server ttl hash call).hash.map RedisHash.entry,
        (scriptOf server ttl hash call).reply) =
      Cell.call server.untilEnd (hash.map RedisHash.entry) call := by
  cases call with
  | begin fingerprint now lease =>
    have begun := beginScript_cell server hash fingerprint now.toNat
      (saturatingAddU64 now lease).toNat ttl
    obtain ⟨left, right⟩ := Prod.mk.inj begun
    simp only [scriptOf, Cell.call, left, right]
    rfl
  | complete fingerprint response =>
    have completed := completeScript_cell hash fingerprint response ttl
    simp only [scriptOf, Cell.call, ← completed]
  | fail =>
    simp only [scriptOf, Cell.call, failScript_cell]

/-- A call with this answer has set the time to live. -/
def Call.expires : Call Response → Answer Response → Bool
  | .begin _ _ _, .decided (.ok .execute) => true
  | .complete _ _, .finished (.ok ()) => true
  | _, _ => false

/-- What the server makes of the answer of a script. -/
def RedisServer.shown (server : RedisServer) (ttl : Nat) (call : Call Response)
    (answer : Answer Response) : Answer Response :=
  if call.expires answer && decide (server.longest < ttl) then answer.refused else answer

/-- A script sets the time to live exactly when it tells to execute or completes. -/
theorem scriptOf_pexpire (server : RedisServer) (ttl : Nat) (hash : Option RedisHash)
    (call : Call String) :
    (scriptOf server ttl hash call).pexpire =
      if call.expires (scriptOf server ttl hash call).reply then some ttl else none := by
  cases call with
  | begin =>
    simp only [scriptOf, beginScript]
    repeat' split
    all_goals simp_all [Call.expires, decisionOf]
  | complete =>
    simp only [scriptOf, completeScript]
    repeat' split
    all_goals simp_all [Call.expires, completionOf]
  | fail =>
    simp only [scriptOf, failScript]
    repeat' split
    all_goals simp_all [Call.expires]

/-- A call for one key does to its hash what it does to a record alone, whether or not the server
refuses the time to live. -/
theorem runScript_cell (server : RedisServer) (ttl : Nat) (hash : Option RedisHash)
    (call : Call String) :
    ((runScript server ttl hash call).hash.map RedisHash.entry,
        (runScript server ttl hash call).reply) =
      (Cell.call server.untilEnd (hash.map RedisHash.entry) call).map id (server.shown ttl call) := by
  rw [← scriptOf_cell server ttl hash call, runScript, scriptOf_pexpire]
  unfold RedisServer.shown
  grind

/-- With a time to live that the server takes, a script runs to its end. -/
theorem runScript_of_taken {server : RedisServer} {ttl : Nat} (taken : ttl ≤ server.longest)
    (hash : Option RedisHash) (call : Call String) :
    runScript server ttl hash call = scriptOf server ttl hash call := by
  rw [runScript, scriptOf_pexpire]
  split
  · simp [taken]
  · rfl

end Roze.Idempotency
