import Roze.Idempotency.Cell
import Roze.Library.LeaseProtocol

/-!
# Exclusive leases of the idempotency stores

A worker that is told to execute has the request for the time of its lease. Neither store knows
which worker holds a record: a failure deletes the record whoever holds it, so a worker whose lease
was taken over can let a third one begin while the second is at work. In Redis the record has its
own time to live, and a lease that is longer is forgotten before its end.
-/

namespace Roze.Idempotency

open Roze.Library

universe u

variable {Response : Type u}

def Decision.isExecute : Decision Response → Bool
  | .execute => true
  | .replay _ | .inFlight | .conflict => false

/-! ## One record -/

namespace Cell

variable {blocks : Nat → Nat → Bool} {cell : Cell Response} {fingerprint other : String}
variable {now leaseEnd later leaseEnd' : Nat}

/-- A worker that is told to execute leaves its fingerprint and its lease. One that is not leaves
the record as it is. -/
theorem begin_cases (blocks : Nat → Nat → Bool) (cell : Cell Response) (fingerprint : String)
    (now leaseEnd : Nat) :
    cell.begin blocks fingerprint now leaseEnd =
        (some ⟨fingerprint, none, some leaseEnd⟩, .execute) ∨
      (cell.begin blocks fingerprint now leaseEnd).1 = cell ∧
        (cell.begin blocks fingerprint now leaseEnd).2.isExecute = false := by
  unfold begin
  split
  · exact .inl rfl
  · split
    · exact .inr ⟨rfl, rfl⟩
    · rename_i same
      split
      · exact .inr ⟨rfl, rfl⟩
      · rename_i unfinished
        split
        · exact .inr ⟨rfl, rfl⟩
        · simp_all

theorem begin_executed
    (executed : (cell.begin blocks fingerprint now leaseEnd).2.isExecute = true) :
    (cell.begin blocks fingerprint now leaseEnd).1 = some ⟨fingerprint, none, some leaseEnd⟩ := by
  rcases begin_cases blocks cell fingerprint now leaseEnd with told | ⟨-, refused⟩
  · rw [told]
  · simp_all

/-- An unfinished record is taken over only when its lease does not block. -/
theorem not_blocked_of_executed
    (executed : (Cell.begin blocks (some ⟨other, none, some leaseEnd⟩ : Cell Response) fingerprint
      later leaseEnd').2.isExecute = true) : blocks leaseEnd later = false := by
  unfold begin at executed
  simp only [Option.any_some] at executed
  split at executed
  · cases executed
  · split at executed
    · cases executed
    · simp_all

/-- A completion leaves the record as it is, or with a response. -/
theorem complete_cases (cell : Cell Response) (fingerprint : String) (response : Response) :
    (cell.complete fingerprint response).1 = cell ∨
      ∃ name, (cell.complete fingerprint response).1 = some ⟨name, some response, none⟩ := by
  unfold complete
  grind

/-- A failure of this owner would delete the record. -/
def releases (cell : Cell Response) (fingerprint : String) : Bool :=
  cell.any (fun entry => decide (entry.fingerprint = fingerprint) && entry.response.isNone)

theorem fail_of_not_releases (kept : cell.releases fingerprint = false) :
    cell.fail fingerprint = cell := by
  cases cell with
  | none => rfl
  | some =>
    simp only [releases, Option.any_some, Bool.and_eq_false_iff, decide_eq_false_iff_not] at kept
    rw [fail, if_neg]
    grind

end Cell

/-! ## Stores that keep one record -/

/-- A store that shows a record at each reading of the clock and treats it as a record alone. It
may forget the record, `ttl` after it was taken or completed. -/
structure KeepsRecord {State : Type*} (leases : LeaseStore State String Response)
    (shown : State → UInt64 → Cell Response) (blocks : Nat → Nat → Bool) (ttl : Option Nat)
    (exact : UInt64 → UInt64 → Prop) : Prop where
  answer : ∀ state owner now lease, (leases.begin state owner now lease).2 =
    ((shown state now).begin blocks owner now.toNat (saturatingAddU64 now lease).toNat).2.isExecute
  begun : ∀ state owner now lease later, now ≤ later →
    (leases.begin state owner now lease).2 = true →
      shown (leases.begin state owner now lease).1 later =
          some ⟨owner, none, some (saturatingAddU64 now lease).toNat⟩ ∨
        ∃ time ∈ ttl, now.toNat + time ≤ later.toNat
  refused : ∀ state owner now lease later, now ≤ later →
    (leases.begin state owner now lease).2 = false →
      shown (leases.begin state owner now lease).1 later = shown state later
  completed : ∀ state reading owner response later, reading ≤ later →
    shown (leases.complete state reading owner response) later = shown state later ∨
      (∃ name, shown (leases.complete state reading owner response) later =
        some ⟨name, some response, none⟩) ∨
      ∃ time ∈ ttl, reading.toNat + time ≤ later.toNat
  failed : ∀ state reading owner later, reading ≤ later →
    leases.releases state reading owner = false →
      shown (leases.fail state reading owner) later = shown state later
  ends : ∀ now lease later lease', exact now lease → exact later lease' →
    blocks (saturatingAddU64 now lease).toNat later.toNat = false →
      now.toNat + lease.toNat ≤ later.toNat

theorem KeepsRecord.lawful {State : Type*} {leases : LeaseStore State String Response}
    {shown : State → UInt64 → Cell Response} {blocks : Nat → Nat → Bool} {ttl : Option Nat}
    {exact : UInt64 → UInt64 → Prop} (keeps : KeepsRecord leases shown blocks ttl exact) :
    leases.Lawful ttl exact where
  granted := by
    intro state owner now lease owner' later lease' exactly exactly' after told again
    rcases keeps.begun state owner now lease later after told with record | forgotten
    · rw [keeps.answer, record] at again
      exact .inl (keeps.ends now lease later lease' exactly exactly'
        (Cell.not_blocked_of_executed again))
    · exact .inr forgotten
  refused := by
    intro state owner now lease owner' later lease' after refused again
    rw [keeps.answer, keeps.refused state owner now lease later after refused] at again
    rw [keeps.answer]
    exact again
  completed := by
    intro state reading owner response owner' later lease' after again
    rw [keeps.answer] at again
    rcases keeps.completed state reading owner response later after with
      same | ⟨name, done⟩ | forgotten
    · rw [same] at again
      rw [keeps.answer]
      exact .inl again
    · -- a completed record is never executed again
      rw [done, Cell.begin] at again
      simp only at again
      split at again <;> cases again
    · exact .inr forgotten
  failed := by
    intro state reading owner owner' later lease' after kept again
    rw [keeps.answer, keeps.failed state reading owner later after kept] at again
    rw [keeps.answer]
    exact again

/-! ## In memory -/

/-- The calls on one scope and key of the store in memory, which has no clock of its own. -/
def memoryLeases (Response : Type u) (scope key : String) :
    LeaseStore (InMemoryStore Response) String Response where
  begin store owner now lease :=
    ((store.begin scope key owner now lease).1, (store.begin scope key owner now lease).2.isExecute)
  complete store _ owner response := (store.complete scope key owner response).1
  fail store _ owner := (store.fail scope key owner).1
  releases store _ owner := (store.cell scope key).releases owner

/-- Before the last reading that a clock of 64 bits can show. -/
def BeforeLast (now _lease : UInt64) : Prop := now.toNat < 2 ^ 64 - 1

instance (now lease : UInt64) : Decidable (BeforeLast now lease) :=
  inferInstanceAs (Decidable (_ < _))

theorem memoryLeases_keepsRecord (scope key : String) :
    KeepsRecord (memoryLeases Response scope key) (fun store _ => store.cell scope key) untilEnd
      none BeforeLast where
  answer store owner now lease :=
    congrArg (fun begun => begun.2.isExecute) (store.begin_cell scope key owner now lease)
  begun := by
    intro store owner now lease later _ told
    have begun := store.begin_cell scope key owner now lease
    have executed := (congrArg (fun begun => begun.2.isExecute) begun).symm.trans told
    exact .inl ((congrArg Prod.fst begun).trans (Cell.begin_executed executed))
  refused := by
    intro store owner now lease later _ told
    have begun := store.begin_cell scope key owner now lease
    have refused := (congrArg (fun begun => begun.2.isExecute) begun).symm.trans told
    rcases Cell.begin_cases _ _ _ _ _ with told | ⟨same, -⟩
    · rw [told] at refused
      cases refused
    · exact (congrArg Prod.fst begun).trans same
  completed := by
    intro store reading owner response later _
    have completed := congrArg Prod.fst (store.complete_cell scope key owner response)
    rcases (store.cell scope key).complete_cases owner response with same | ⟨name, done⟩
    · exact .inl (completed.trans same)
    · exact .inr (.inl ⟨name, completed.trans done⟩)
  failed := by
    intro store reading owner later _ kept
    have failed := congrArg Prod.fst (store.fail_cell scope key owner)
    exact failed.trans (Cell.fail_of_not_releases kept)
  ends := by
    intro now lease later lease' _ before free
    rw [untilEnd, decide_eq_false_iff_not, saturatingAddU64_toNat] at free
    have bound : later.toNat < 2 ^ 64 - 1 := before
    omega

/-! ## In Redis -/

/-- What is stored under a key, and the last reading at which it is there, if it expires. -/
abbrev TimedHash := Option (RedisHash × Option Nat)

namespace TimedHash

/-- An expired key is gone. -/
def live (key : TimedHash) (reading : Nat) : Option RedisHash :=
  match key with
  | none => none
  | some (hash, deadline) => if deadline.all (fun last => decide (reading ≤ last)) then some hash else none

def cell (key : TimedHash) (reading : UInt64) : Cell String :=
  (key.live reading.toNat).map RedisHash.entry

/-- What a script leaves. Without a time to live of its own it leaves the expiry of a key that is there
as it is, and a new key without one. -/
def written {Reply : Type} (key : TimedHash) (reading : Nat) (run : ScriptRun Reply) : TimedHash :=
  run.hash.map (fun hash => (hash,
    match run.pexpire with
    | some time => some (reading + time)
    | none => (key.live reading).bind (fun _ => key.bind Prod.snd)))

/-- A script on a key at a reading of the clock. -/
def script (server : RedisServer) (ttl : Nat) (key : TimedHash) (reading : UInt64)
    (call : Call String) : TimedHash × Answer String :=
  let run := runScript server ttl (key.live reading.toNat) call
  (key.written reading.toNat run, run.reply)

variable {Reply : Type} {reading later : Nat} {run : ScriptRun Reply}

/-- A script that changes nothing changes nothing later. -/
theorem live_written_of_same {key : TimedHash} (same : run.hash = key.live reading) (kept : run.pexpire = none)
    (after : reading ≤ later) : (key.written reading run).live later = key.live later := by
  unfold written
  rw [same, kept]
  cases key with
  | none => rfl
  | some stored =>
    obtain ⟨hash, deadline⟩ := stored
    cases deadline with
    | none => simp [live]
    | some last =>
      by_cases alive : reading ≤ last
      · simp [live, alive]
      · have gone : ¬ later ≤ last := by omega
        simp [live, alive, gone]

/-- A script that sets a time to live leaves its hash for that time. -/
theorem live_written_of_pexpire (key : TimedHash) {time : Nat} (set : run.pexpire = some time) :
    (key.written reading run).live later = run.hash ∨ reading + time < later := by
  unfold written
  rw [set]
  cases run.hash with
  | none => exact .inl rfl
  | some =>
    by_cases alive : later ≤ reading + time
    · left
      simp [live, alive]
    · right
      omega

end TimedHash

/-- The first script sets the time to live when it tells to execute, and else changes nothing. -/
theorem beginScript_cases (server : RedisServer) (hash : Option RedisHash) (fingerprint : String)
    (now leaseUntil ttl : Nat) :
    (beginScript server hash fingerprint now leaseUntil ttl).pexpire = some ttl ∧
        (beginScript server hash fingerprint now leaseUntil ttl).reply = ("execute", "") ∨
      (beginScript server hash fingerprint now leaseUntil ttl).pexpire = none ∧
        (beginScript server hash fingerprint now leaseUntil ttl).hash = hash ∧
        (beginScript server hash fingerprint now leaseUntil ttl).reply.1 ≠ "execute" := by
  unfold beginScript
  split
  · grind
  · exact .inl ⟨rfl, rfl⟩

theorem completeScript_cases (hash : Option RedisHash) (fingerprint response : String) (ttl : Nat) :
    (completeScript hash fingerprint response ttl).pexpire = none ∧
        (completeScript hash fingerprint response ttl).hash = hash ∨
      (completeScript hash fingerprint response ttl).pexpire = some ttl ∧
        ∃ name, (completeScript hash fingerprint response ttl).hash =
          some ⟨name, some response, none⟩ := by
  unfold completeScript
  grind

theorem failScript_of_not_releases {hash : Option RedisHash} {fingerprint : String}
    (kept : Cell.releases (hash.map RedisHash.entry) fingerprint = false) :
    (failScript hash fingerprint).pexpire = none ∧ (failScript hash fingerprint).hash = hash := by
  unfold failScript
  split
  · split
    · rename_i released
      simp [Cell.releases, RedisHash.entry, released] at kept
    · exact ⟨rfl, rfl⟩
  · exact ⟨rfl, rfl⟩

def Answer.isExecute : Answer Response → Bool
  | .decided (.ok decision) => decision.isExecute
  | .decided (.error _) | .finished _ => false

theorem decisionOf_isExecute (reply : String × String) :
    (Answer.decided (decisionOf reply)).isExecute = decide (reply.1 = "execute") := by
  unfold decisionOf
  split
  · rename_i told
    simp [told, Answer.isExecute, Decision.isExecute]
  · rename_i refused
    rw [decide_eq_false refused]
    repeat' split
    all_goals rfl

/-- The scripts on one key of a store in Redis. -/
def redisLeases (redis : RedisIdempotencyStore) (server : RedisServer) :
    LeaseStore TimedHash String String where
  begin key owner now lease :=
    let ran := key.script server redis.recordTtlMillis.toNat now (.begin owner now lease)
    (ran.1, ran.2.isExecute)
  complete key reading owner response :=
    (key.script server redis.recordTtlMillis.toNat reading (.complete owner response)).1
  fail key reading owner :=
    (key.script server redis.recordTtlMillis.toNat reading (.fail owner)).1
  releases key reading owner := (key.cell reading).releases owner

/-- Readings and leases whose sum a script reads as it is. -/
def WithinDouble (now lease : UInt64) : Prop := now.toNat + lease.toNat ≤ 2 ^ 53

section Redis

variable {redis : RedisIdempotencyStore} {server : RedisServer} {key : TimedHash}
variable {owner : String} {now lease later : UInt64}

/-- With a time to live that the server refuses, nobody is told to execute. -/
theorem redisLeases_of_refused (refused : server.longest < redis.recordTtlMillis.toNat) :
    ((redisLeases redis server).begin key owner now lease).2 = false := by
  have ran := congrArg Prod.snd (runScript_cell server redis.recordTtlMillis.toNat
    (key.live now.toNat) (.begin owner now lease))
  refine (congrArg Answer.isExecute ran).trans ?_
  simp only [Prod.map_snd, RedisServer.shown, Cell.call]
  generalize (Cell.begin _ _ _ _ _).2 = decision
  cases decision <;> simp [Call.expires, refused, Answer.refused, Answer.isExecute, Decision.isExecute]

variable (taken : redis.recordTtlMillis.toNat ≤ server.longest)
include taken

theorem redisLeases_answer :
    ((redisLeases redis server).begin key owner now lease).2 =
      ((key.cell now).begin server.untilEnd owner now.toNat
        (saturatingAddU64 now lease).toNat).2.isExecute := by
  have ran := scriptOf_cell server redis.recordTtlMillis.toNat (key.live now.toNat)
    (.begin owner now lease)
  rw [← runScript_of_taken taken] at ran
  exact congrArg (fun ran => Answer.isExecute ran.2) ran

theorem redisLeases_begun (told : ((redisLeases redis server).begin key owner now lease).2 = true) :
    TimedHash.cell ((redisLeases redis server).begin key owner now lease).1 later =
        some ⟨owner, none, some (saturatingAddU64 now lease).toNat⟩ ∨
      now.toNat + redis.recordTtlMillis.toNat ≤ later.toNat := by
  have executed := (redisLeases_answer taken).symm.trans told
  have ran := congrArg Prod.fst (scriptOf_cell server redis.recordTtlMillis.toNat
    (key.live now.toNat) (.begin owner now lease))
  simp only [redisLeases, TimedHash.script, runScript_of_taken taken] at told ⊢
  rcases beginScript_cases server (key.live now.toNat) owner now.toNat
    (saturatingAddU64 now lease).toNat redis.recordTtlMillis.toNat with ⟨set, -⟩ | ⟨-, -, other⟩
  · rcases key.live_written_of_pexpire set with live | gone
    · have shown := congrArg (Option.map RedisHash.entry) live
      exact .inl (shown.trans (ran.trans (Cell.begin_executed executed)))
    · exact .inr gone.le
  · have named := (decisionOf_isExecute _).symm.trans told
    simp_all

theorem redisLeases_refused (after : now ≤ later)
    (refused : ((redisLeases redis server).begin key owner now lease).2 = false) :
    TimedHash.cell ((redisLeases redis server).begin key owner now lease).1 later =
      key.cell later := by
  simp only [redisLeases, TimedHash.script, runScript_of_taken taken] at refused ⊢
  rcases beginScript_cases server (key.live now.toNat) owner now.toNat
    (saturatingAddU64 now lease).toNat redis.recordTtlMillis.toNat with ⟨-, told⟩ | ⟨unset, same, -⟩
  · have named := (decisionOf_isExecute _).symm.trans refused
    simp_all
  · exact congrArg (Option.map RedisHash.entry) (TimedHash.live_written_of_same same unset after)

theorem redisLeases_completed {reading : UInt64} (after : reading ≤ later) (response : String) :
    TimedHash.cell ((redisLeases redis server).complete key reading owner response) later =
        key.cell later ∨
      (∃ name, TimedHash.cell ((redisLeases redis server).complete key reading owner response)
        later = some ⟨name, some response, none⟩) ∨
      reading.toNat + redis.recordTtlMillis.toNat ≤ later.toNat := by
  simp only [redisLeases, TimedHash.script, runScript_of_taken taken]
  rcases completeScript_cases (key.live reading.toNat) owner response
    redis.recordTtlMillis.toNat with ⟨unset, same⟩ | ⟨set, name, done⟩
  · exact .inl (congrArg (Option.map RedisHash.entry)
      (TimedHash.live_written_of_same same unset after))
  · rcases key.live_written_of_pexpire set with live | gone
    · have shown := congrArg (Option.map RedisHash.entry) (live.trans done)
      exact .inr (.inl ⟨name, shown⟩)
    · exact .inr (.inr gone.le)

theorem redisLeases_keepsRecord :
    KeepsRecord (redisLeases redis server) TimedHash.cell server.untilEnd
      (some redis.recordTtlMillis.toNat) WithinDouble where
  answer _ _ _ _ := redisLeases_answer taken
  begun := by
    intro key owner now lease later _ told
    exact (redisLeases_begun taken told).imp_right (fun gone => ⟨_, rfl, gone⟩)
  refused _ _ _ _ _ after refused := redisLeases_refused taken after refused
  completed := by
    intro key reading owner response later after
    rcases redisLeases_completed taken after response with same | done | gone
    · exact .inl same
    · exact .inr (.inl done)
    · simp_all
  failed := by
    intro key reading owner later after kept
    obtain ⟨unset, same⟩ := failScript_of_not_releases kept
    simp only [redisLeases, TimedHash.script, runScript_of_taken taken]
    exact congrArg (Option.map RedisHash.entry) (TimedHash.live_written_of_same same unset after)
  ends := by
    intro now lease later lease' exactly exactly' free
    have sum : now.toNat + lease.toNat ≤ 2 ^ 53 := exactly
    have bound : later.toNat + lease'.toNat ≤ 2 ^ 53 := exactly'
    have added := saturatingAddU64_toNat now lease
    have whole : (saturatingAddU64 now lease).toNat = now.toNat + lease.toNat := by omega
    rw [whole, RedisServer.untilEnd, decide_eq_false_iff_not, server.exact _ sum,
      server.exact _ (by omega)] at free
    omega

omit taken in
/-- A store in Redis grants leases by its record; one whose time to live is refused grants none. -/
theorem redisLeases_lawful :
    (redisLeases redis server).Lawful (some redis.recordTtlMillis.toNat) WithinDouble := by
  rcases Nat.lt_or_ge server.longest redis.recordTtlMillis.toNat with refused | taken
  · have never : ∀ key owner now lease,
        ((redisLeases redis server).begin key owner now lease).2 ≠ true := by
      intro key owner now lease told
      rw [redisLeases_of_refused refused] at told
      cases told
    constructor <;> simp_all
  · exact (redisLeases_keepsRecord taken).lawful

end Redis

/-- The first worker's lease is over, or the worker gave it up, before the store tells a second
worker to execute; and a worker whose lease was taken over lets nobody begin when it fails. So it
is in every run in which no worker fails after its lease was taken over, while the record is its
own request's and unfinished; in memory before the last reading of the clock, and in Redis with
leases not longer than the time to live and readings that a script reads as they are. -/
theorem lease_exclusive (Response : Type u) :
    (∀ (scope key : String) (store : InMemoryStore Response) (clock : Nat)
      (events : List (LeaseAction String Response × Bool)),
      (memoryLeases Response scope key).protocol.Along (fun leasing action _ _ =>
        (memoryLeases Response scope key).Careful none BeforeLast leasing action)
        ⟨store, [], clock⟩ events →
      (memoryLeases Response scope key).protocol.Along (fun leasing action granted next =>
        LeaseStore.Exclusive leasing action granted ∧
          (memoryLeases Response scope key).KeepsLease leasing action next)
        ⟨store, [], clock⟩ events) ∧
    (∀ (redis : RedisIdempotencyStore) (server : RedisServer) (stored : TimedHash) (clock : Nat)
      (events : List (LeaseAction String String × Bool)),
      (redisLeases redis server).protocol.Along (fun leasing action _ _ =>
        (redisLeases redis server).Careful (some redis.recordTtlMillis.toNat) WithinDouble leasing
          action) ⟨stored, [], clock⟩ events →
      (redisLeases redis server).protocol.Along (fun leasing action granted next =>
        LeaseStore.Exclusive leasing action granted ∧
          (redisLeases redis server).KeepsLease leasing action next)
        ⟨stored, [], clock⟩ events) := by
  refine ⟨?_, ?_⟩
  · intro scope key store clock events careful
    exact LeaseStore.exclusive_run (memoryLeases_keepsRecord scope key).lawful careful
  · intro redis server stored clock events careful
    exact LeaseStore.exclusive_run redisLeases_lawful careful

/-! ### Workers that meet -/

namespace ThreeWorkers

/-- A second worker begins when the lease of the first has ended, one of the two fails, and a
third one begins while the lease of the second is not over. -/
def actions (failing : Nat) : List (LeaseAction String String) :=
  [.begin "body" 0 10, .begin "body" 10 10, .fail failing 11, .begin "body" 12 10]

/-- Who was told to execute, and the leases with what became of them. -/
def outcome {State : Type} (run : Leasing State String × List (LeaseAction String String × Bool)) :
    List Bool × List (Nat × GrantStatus) :=
  (run.2.map Prod.snd, run.1.grants.map (fun grant => (grant.leaseEnd, grant.status)))

def redis (recordTtlMillis : UInt64) : RedisIdempotencyStore :=
  ⟨"roze:idempotency:v1", recordTtlMillis⟩

end ThreeWorkers

open ThreeWorkers in
/-- The first worker fails, and the third is told to execute while the second holds its lease
until 20. With a time to live of 5, which `connect` accepts, the second worker is told to execute
at 6, while the first holds its lease until 10. -/
theorem lease_released_by_first_worker :
    ((memoryLeases String "orders" "key").protocol.exec ⟨KeyedMap.empty _, [], 0⟩
        (actions 0)).map outcome =
      some ([true, true, false, true], [(10, .failed), (20, .working), (22, .working)]) ∧
    ((redisLeases (redis 86400000) .exactIntegers).protocol.exec ⟨none, [], 0⟩
        (actions 0)).map outcome =
      some ([true, true, false, true], [(10, .failed), (20, .working), (22, .working)]) ∧
    RedisIdempotencyStore.connect "roze:idempotency:v1" 5 = .ok (redis 5) ∧
    ((redisLeases (redis 5) .exactIntegers).protocol.exec ⟨none, [], 0⟩
        [.begin "body" 0 10, .begin "body" 6 10]).map outcome =
      some ([true, true], [(10, .working), (16, .working)]) := by
  decide +kernel

open ThreeWorkers in
/-- The second worker fails itself, and the third is told to execute. -/
theorem lease_exclusive_second_worker_fails :
    ∃ events final, (memoryLeases String "orders" "key").protocol.Run ⟨KeyedMap.empty _, [], 0⟩
        events final ∧
      events.map Prod.fst = actions 1 ∧ events.map Prod.snd = [true, true, false, true] ∧
      (memoryLeases String "orders" "key").protocol.Along (fun leasing action granted next =>
        LeaseStore.Exclusive leasing action granted ∧
          (memoryLeases String "orders" "key").KeepsLease leasing action next)
        ⟨KeyedMap.empty _, [], 0⟩ events := by
  have checked : ((memoryLeases String "orders" "key").protocol.exec ⟨KeyedMap.empty _, [], 0⟩
      (actions 1)).map outcome =
        some ([true, true, false, true], [(10, .working), (20, .failed), (22, .working)]) := by
    decide +kernel
  obtain ⟨⟨final, events⟩, executed, shown⟩ := Option.map_eq_some_iff.mp checked
  have careful : (memoryLeases String "orders" "key").protocol.Along (fun leasing action _ _ =>
      (memoryLeases String "orders" "key").Careful none BeforeLast leasing action)
      ⟨KeyedMap.empty _, [], 0⟩ events :=
    Machine.along_of_checks executed (by decide +kernel)
  exact ⟨events, final, Machine.exec_run executed, Machine.exec_actions executed,
    congrArg Prod.fst shown, (lease_exclusive String).1 _ _ _ _ _ careful⟩

end Roze.Idempotency
