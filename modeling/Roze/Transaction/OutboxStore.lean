import Roze.Transaction.Outbox

/-!
# Every run of the in-memory outbox

The operations are the actions of one machine; callers, their number and their
clocks are left open, so a run is any sequence of calls in the order in which they
took the lock. One law says what a call can do to the message stored under an id,
and everything about whole runs follows from it.

A claim gives its message to one caller until the lease ends: a second claim of
the same message needs the end of that lease, a recorded failure, or a new
enqueue in between. Each claim by itself returns distinct stored records in id
order, within its limit, and leaves all other records alone.
-/

namespace Roze.Transaction

open Roze.Library KeyedMap

variable {Payload : Type}

/-- A call on the store with its arguments. -/
inductive OutboxAction (Payload : Type) where
  | enqueue (message : OutboxMessage Payload)
  | get (id : String)
  | claimPending (nowMillis : UInt64) (limit : Nat) (leaseUntilMillis : UInt64)
  | markPublished (id : String)
  | markFailed (id error : String) (nextAttemptMillis : Option UInt64)

/-- What a call returns. -/
inductive OutboxResult (Payload : Type) where
  | inserted (isNew : Bool)
  | found (message : Option (OutboxMessage Payload))
  | claimed (messages : List (OutboxMessage Payload))
  | done

/-- The ids a call handed to its caller. Only a claim hands out any. -/
def OutboxResult.claimedIds : OutboxResult Payload → List String
  | .claimed messages => messages.map OutboxMessage.id
  | _ => []

/-- Run one call to its end under the lock. -/
def InMemoryOutbox.perform (outbox : InMemoryOutbox Payload) :
    OutboxAction Payload → InMemoryOutbox Payload × OutboxResult Payload
  | .enqueue message => ((outbox.enqueue message).1, .inserted (outbox.enqueue message).2)
  | .get id => (outbox, .found (outbox.get id))
  | .claimPending nowMillis limit leaseUntilMillis =>
      ((outbox.claimPending nowMillis limit leaseUntilMillis).1,
        .claimed (outbox.claimPending nowMillis limit leaseUntilMillis).2)
  | .markPublished id => (outbox.markPublished id, .done)
  | .markFailed id error nextAttemptMillis =>
      (outbox.markFailed id error nextAttemptMillis, .done)

/-- The store as a machine. Every call is available in every state. -/
def outboxStore (Payload : Type) :
    Machine (InMemoryOutbox Payload) (OutboxAction Payload) (OutboxResult Payload) where
  step outbox action := some (outbox.perform action)

/-- What one call can do to the record under an id: nothing, replace it by an
enqueued message, claim it, or mark it. -/
inductive Effect (id : String) (before : Option (OutboxMessage Payload)) :
    OutboxAction Payload → OutboxResult Payload → Option (OutboxMessage Payload) → Prop
  | kept (action : OutboxAction Payload) (result : OutboxResult Payload)
      (unclaimed : id ∉ result.claimedIds) : Effect id before action result before
  | enqueued (message : OutboxMessage Payload) (result : OutboxResult Payload)
      (same : message.id = id) (unclaimed : id ∉ result.claimedIds) :
      Effect id before (.enqueue message) result (some message)
  | claimed (nowMillis : UInt64) (limit : Nat) (leaseUntilMillis : UInt64)
      (result : OutboxResult Payload) (old : OutboxMessage Payload) (found : before = some old)
      (ready : old.claimable nowMillis = true) (returned : id ∈ result.claimedIds) :
      Effect id before (.claimPending nowMillis limit leaseUntilMillis) result
        (some (old.markPublishing leaseUntilMillis))
  | published (old : OutboxMessage Payload) (found : before = some old) :
      Effect id before (.markPublished id) .done (some old.markPublished)
  | failed (error : String) (nextAttemptMillis : Option UInt64) (old : OutboxMessage Payload)
      (found : before = some old) :
      Effect id before (.markFailed id error nextAttemptMillis) .done
        (some (old.markFailed error nextAttemptMillis))

namespace InMemoryOutbox

variable (outbox : InMemoryOutbox Payload)

/-- A claim returns exactly the claimable messages with fewer claimable messages
before them than the limit allows. -/
theorem mem_claimPending_iff (nowMillis : UInt64) (limit : Nat) (leaseUntilMillis : UInt64)
    (id : String) :
    id ∈ (outbox.claimPending nowMillis limit leaseUntilMillis).2.map OutboxMessage.id ↔
      ∃ message, outbox.find? id = some message ∧ message.claimable nowMillis = true ∧
        outbox.rank (OutboxMessage.claimable nowMillis) id < max limit 1 := by
  rw [claimPending_eq, claimFirst_keys]
  exact mem_firstMatching_keys_iff

/-- A claim's effect on one id: a returned id holds the marked message, any other
id keeps what it had. -/
theorem claimPending_effect (nowMillis : UInt64) (limit : Nat) (leaseUntilMillis : UInt64)
    (id : String) :
    Effect id (outbox.find? id) (.claimPending nowMillis limit leaseUntilMillis)
      (.claimed (outbox.claimPending nowMillis limit leaseUntilMillis).2)
      ((outbox.claimPending nowMillis limit leaseUntilMillis).1.find? id) := by
  by_cases returned :
      id ∈ (outbox.claimPending nowMillis limit leaseUntilMillis).2.map OutboxMessage.id
  · obtain ⟨_, member, sameId⟩ := List.mem_map.mp returned
    have inClaim := member
    rw [claimPending_eq] at inClaim
    obtain ⟨stored, old, found, ready, marked⟩ := claimFirst_returned inClaim
    rw [← claimPending_eq, sameId] at stored
    rw [sameId] at found
    rw [stored, marked]
    exact .claimed nowMillis limit leaseUntilMillis _ old found ready returned
  · have unreturned := returned
    rw [claimPending_eq] at unreturned
    have framed := claimFirst_frame unreturned
    rw [← claimPending_eq] at framed
    rw [framed]
    exact .kept _ _ returned

/-- Every call has one of the five effects on every id. -/
theorem perform_effect (action : OutboxAction Payload) (id : String) :
    Effect id (outbox.find? id) action (outbox.perform action).2
      ((outbox.perform action).1.find? id) := by
  cases action with
  | enqueue message =>
    simp only [perform, enqueue, find?_insert]
    split
    · rename_i same
      exact .enqueued message _ same List.not_mem_nil
    · exact .kept _ _ List.not_mem_nil
  | get => exact .kept _ _ List.not_mem_nil
  | claimPending nowMillis limit leaseUntilMillis =>
    exact claimPending_effect outbox nowMillis limit leaseUntilMillis id
  | markPublished =>
    simp only [perform, markPublished, find?_adjust]
    split
    · rename_i same
      subst same
      cases found : outbox.find? id with
      | none => exact .kept _ _ List.not_mem_nil
      | some old => exact .published old rfl
    · exact .kept _ _ List.not_mem_nil
  | markFailed wanted error nextAttemptMillis =>
    simp only [perform, markFailed, find?_adjust]
    split
    · rename_i same
      subst same
      cases found : outbox.find? id with
      | none => exact .kept _ _ List.not_mem_nil
      | some old => exact .failed error nextAttemptMillis old rfl
    · exact .kept _ _ List.not_mem_nil

end InMemoryOutbox

/-- A call that puts the message under an id back into circulation by hand: a
recorded failure, or an enqueue with this id. -/
def Reopens (id : String) : OutboxAction Payload → Prop
  | .markFailed failed _ _ => failed = id
  | .enqueue message => message.id = id
  | _ => False

/-- The record under an id is still held by the claim with this lease, or it has
been published since. -/
def HeldUntil (id : String) (lease : UInt64) (outbox : InMemoryOutbox Payload) : Prop :=
  ∃ message, outbox.find? id = some message ∧
    ((message.status = .publishing ∧ message.leaseUntilMillis = some lease) ∨
      message.status = .published)

/-- A claim holds each message it returns until the given lease. -/
theorem claim_holds (outbox : InMemoryOutbox Payload) (nowMillis : UInt64) (limit : Nat)
    (lease : UInt64) (id : String)
    (returned : id ∈ (outbox.perform (.claimPending nowMillis limit lease)).2.claimedIds) :
    HeldUntil id lease (outbox.perform (.claimPending nowMillis limit lease)).1 := by
  have effect := outbox.perform_effect (.claimPending nowMillis limit lease) id
  generalize result : (outbox.perform (.claimPending nowMillis limit lease)).2 = output at *
  generalize stored : (outbox.perform (.claimPending nowMillis limit lease)).1.find? id = after at *
  cases effect with
  | kept action result unclaimed => contradiction
  | claimed =>
    exact ⟨_, stored, .inl ⟨rfl, rfl⟩⟩

/-- A held message stays held through every call that neither claims it nor puts
it back into circulation. -/
theorem held_step {id : String} {lease : UInt64} {outbox next : InMemoryOutbox Payload}
    {action : OutboxAction Payload} {result : OutboxResult Payload}
    (held : HeldUntil id lease outbox)
    (taken : (outboxStore Payload).step outbox action = some (next, result))
    (unclaimed : id ∉ result.claimedIds) (closed : ¬ Reopens id action) :
    HeldUntil id lease next := by
  obtain ⟨message, found, standing⟩ := held
  have effect := outbox.perform_effect action id
  have performed : outbox.perform action = (next, result) := Option.some.inj taken
  rw [performed, found] at effect
  generalize stored : next.find? id = after at effect
  cases effect with
  | kept => exact ⟨message, stored, standing⟩
  | enqueued fresh result same => exact absurd same closed
  | claimed nowMillis limit leaseUntil result old found ready returned => contradiction
  | published => exact ⟨_, stored, .inr rfl⟩
  | failed => exact absurd rfl closed

/-- A claim can only return a held message from the end of its lease. -/
theorem held_claim {id : String} {lease : UInt64} {outbox : InMemoryOutbox Payload}
    (held : HeldUntil id lease outbox) {nowMillis : UInt64} (limit : Nat) (nextLease : UInt64)
    (returned : id ∈ (outbox.perform (.claimPending nowMillis limit nextLease)).2.claimedIds) :
    lease ≤ nowMillis := by
  obtain ⟨message, found, standing⟩ := held
  obtain ⟨claimed, foundAgain, ready, _⟩ :=
    (outbox.mem_claimPending_iff nowMillis limit nextLease id).mp returned
  have same : message = claimed := Option.some.inj (found.symm.trans foundAgain)
  subst same
  rcases standing with ⟨publishing, leased⟩ | final
  · simpa [OutboxMessage.claimable, publishing, leased] using ready
  · rw [OutboxMessage.not_claimable_of_published final] at ready
    cases ready

/-- What a single claim returns and leaves behind: at most the limit (a limit of
zero counts as one), in ascending id order without repetition, each the stored
record of its id with the given lease, and no other record changed. -/
def ClaimsExactly (before : InMemoryOutbox Payload) (limit : Nat) (lease : UInt64)
    (after : InMemoryOutbox Payload) (messages : List (OutboxMessage Payload)) : Prop :=
  messages.length ≤ max limit 1 ∧
    (messages.map OutboxMessage.id).Pairwise (· < ·) ∧
    (messages.map OutboxMessage.id).Nodup ∧
    (∀ message ∈ messages, after.find? message.id = some message ∧
      message.status = .publishing ∧ message.leaseUntilMillis = some lease) ∧
    ∀ id, id ∉ messages.map OutboxMessage.id → after.find? id = before.find? id

/-- A claim in any state satisfies that contract. -/
theorem claimPending_exact (outbox : InMemoryOutbox Payload) (nowMillis : UInt64) (limit : Nat)
    (lease : UInt64) :
    ClaimsExactly outbox limit lease (outbox.claimPending nowMillis limit lease).1
      (outbox.claimPending nowMillis limit lease).2 := by
  rw [InMemoryOutbox.claimPending_eq]
  refine ⟨claimFirst_length, claimFirst_ascending,
    claimFirst_ascending.imp ne_of_lt, ?_, ?_⟩
  · intro message returned
    obtain ⟨stored, _, _, _, marked⟩ := claimFirst_returned returned
    refine ⟨stored, ?_, ?_⟩
    · rw [marked]
      rfl
    · rw [marked]
      rfl
  · intro id unreturned
    exact claimFirst_frame unreturned

/-- In every state, reachable or not, a claim returns exactly its contract, and
until its lease ends no later claim returns one of its messages again unless a
failure was recorded or the id was enqueued in between.

Proof: the first claim holds the message. No call in between claims it, so while
none puts it back it stays held, and a held message is claimable only from the end
of the lease. -/
theorem claim_exclusivity (state firstAfter : InMemoryOutbox Payload) (firstNow : UInt64)
    (firstLimit : Nat) (firstLease : UInt64) (firstClaim : List (OutboxMessage Payload))
    (claimed : (outboxStore Payload).step state (.claimPending firstNow firstLimit firstLease) =
      some (firstAfter, .claimed firstClaim)) :
    ClaimsExactly state firstLimit firstLease firstAfter firstClaim ∧
      ∀ middle secondState secondNow secondLimit secondLease secondAfter secondClaim id,
        (outboxStore Payload).Run firstAfter middle secondState →
        (outboxStore Payload).step secondState
            (.claimPending secondNow secondLimit secondLease) =
          some (secondAfter, .claimed secondClaim) →
        id ∈ firstClaim.map OutboxMessage.id → id ∈ secondClaim.map OutboxMessage.id →
        (∀ event ∈ middle, id ∉ event.2.claimedIds) →
        (∃ event ∈ middle, Reopens id event.1) ∨ firstLease ≤ secondNow := by
  obtain ⟨rfl, claimedSame⟩ := Prod.mk.inj (Option.some.inj claimed)
  obtain rfl := OutboxResult.claimed.inj claimedSame
  refine ⟨claimPending_exact state firstNow firstLimit firstLease, ?_⟩
  intro middle secondState secondNow secondLimit secondLease secondAfter secondClaim id between
    claimedAgain inFirst inSecond unclaimed
  by_cases reopened : ∃ event ∈ middle, Reopens id event.1
  · exact .inl reopened
  · have quiet : ∀ event ∈ middle, id ∉ event.2.claimedIds ∧ ¬ Reopens id event.1 := by
      intro event member
      exact ⟨unclaimed event member, fun reopens => reopened ⟨event, member, reopens⟩⟩
    have along : (outboxStore Payload).Along (fun _ action result _ =>
        id ∉ result.claimedIds ∧ ¬ Reopens id action)
        (state.claimPending firstNow firstLimit firstLease).1 middle :=
      Machine.along_of_forall_mem quiet
    have held : HeldUntil id firstLease secondState :=
      between.invariant_along along
        (claim_holds state firstNow firstLimit firstLease id inFirst)
        (fun _ _ _ _ holds taken conditions => held_step holds taken conditions.1 conditions.2)
    have result : (secondState.perform (.claimPending secondNow secondLimit secondLease)).2 =
        .claimed secondClaim := congrArg Prod.snd (Option.some.inj claimedAgain)
    refine .inr (held_claim held secondLimit secondLease ?_)
    rw [result]
    exact inSecond

/-- One stored message, claimed until 200 and claimed again at 200. -/
theorem claim_exclusivity_expired_lease :
    let message : OutboxMessage Unit := .new "msg-1" "orders" "order-1" ()
    let state := (KeyedMap.empty OutboxMessage.id).insert message
    let first := InMemoryOutbox.claimPending state 100 10 200
    let second := InMemoryOutbox.claimPending first.1 200 10 300
    ClaimsExactly state 10 200 first.1 first.2 ∧
      "msg-1" ∈ first.2.map OutboxMessage.id ∧ "msg-1" ∈ second.2.map OutboxMessage.id ∧
      ((∃ event ∈ ([] : List (OutboxAction Unit × OutboxResult Unit)), Reopens "msg-1" event.1) ∨
        (200 : UInt64) ≤ 200) := by
  intro message state first second
  have inFirst : "msg-1" ∈ first.2.map OutboxMessage.id := by decide
  have inSecond : "msg-1" ∈ second.2.map OutboxMessage.id := by decide
  obtain ⟨contract, exclusive⟩ :=
    claim_exclusivity state first.1 100 10 200 first.2 rfl
  exact ⟨contract, inFirst, inSecond,
    exclusive [] first.1 200 10 300 second.1 second.2 "msg-1" (.done _) rfl inFirst inSecond
      (by simp)⟩

end Roze.Transaction
