import Mathlib
import Roze.Library.Execution

/-!
# Leases that workers take from a store

A store grants the execution of a request to one worker for a time. The worker that was told to
execute completes or fails the request, once, or does nothing more. A store may forget a request
some time after it was last granted or completed. The calls interleave in any order, with readings
of one clock.

A store is exclusive when it grants a request again only after all leases before have ended, or
after those that have not were given up. That takes a store that keeps to the end of a lease, that
remembers for at least as long, and in which only the last worker gives its lease up.
-/

namespace Roze.Library

open List

universe u v w

/-- The calls on one request. `releases` says that a failure would give up what is held. -/
structure LeaseStore (State : Type u) (Owner : Type v) (Outcome : Type w) where
  begin : State → Owner → (now lease : UInt64) → State × Bool
  complete : State → (reading : UInt64) → Owner → Outcome → State
  fail : State → (reading : UInt64) → Owner → State
  releases : State → (reading : UInt64) → Owner → Bool

inductive GrantStatus where
  | working
  | completed
  | failed
deriving DecidableEq, Repr

/-- A worker that was told to execute, and the end of its lease. -/
structure Grant (Owner : Type v) where
  owner : Owner
  leaseEnd : Nat
  status : GrantStatus
deriving DecidableEq

/-- The store, all workers that were told to execute, and the last reading of the clock. -/
structure Leasing (State : Type u) (Owner : Type v) where
  store : State
  grants : List (Grant Owner)
  clock : Nat

inductive LeaseAction (Owner : Type v) (Outcome : Type w) where
  | begin (owner : Owner) (now lease : UInt64)
  | complete (worker : Nat) (reading : UInt64) (outcome : Outcome)
  | fail (worker : Nat) (reading : UInt64)

namespace LeaseStore

variable {State : Type u} {Owner : Type v} {Outcome : Type w}
variable (store : LeaseStore State Owner Outcome)

/-- The end of the work of a worker. -/
def finish (leasing : Leasing State Owner) (worker : Nat) (reading : UInt64) (status : GrantStatus)
    (change : Owner → State) : Option (Leasing State Owner) :=
  match leasing.grants[worker]? with
  | none => none
  | some grant =>
      if grant.status = .working ∧ leasing.clock ≤ reading.toNat then
        some ⟨change grant.owner, leasing.grants.set worker { grant with status := status },
          reading.toNat⟩
      else none

/-- Workers that begin, and those that were told to execute and complete or fail, once. The
output says whether a begin was told to execute. -/
def protocol : Machine (Leasing State Owner) (LeaseAction Owner Outcome) Bool where
  step leasing
    | .begin owner now lease =>
        if leasing.clock ≤ now.toNat then
          let begun := store.begin leasing.store owner now lease
          some (⟨begun.1, if begun.2
            then leasing.grants ++ [⟨owner, now.toNat + lease.toNat, .working⟩]
            else leasing.grants, now.toNat⟩, begun.2)
        else none
    | .complete worker reading outcome =>
        (finish leasing worker reading .completed
          (fun owner => store.complete leasing.store reading owner outcome)).map (·, false)
    | .fail worker reading =>
        (finish leasing worker reading .failed
          (fun owner => store.fail leasing.store reading owner)).map (·, false)

/-- A begin is told to execute only when every lease before has ended or was given up. -/
def Exclusive (leasing : Leasing State Owner) (action : LeaseAction Owner Outcome)
    (granted : Bool) : Prop :=
  ∀ owner now lease, action = .begin owner now lease → granted = true →
    ∀ grant ∈ leasing.grants, grant.leaseEnd ≤ now.toNat ∨ grant.status = .failed

/-- A failure of a worker after which another one was told to execute lets nobody begin who could
not begin before. -/
def KeepsLease (leasing : Leasing State Owner) (action : LeaseAction Owner Outcome)
    (next : Leasing State Owner) : Prop :=
  ∀ worker reading, action = .fail worker reading → worker + 1 < leasing.grants.length →
    ∀ owner later lease, reading ≤ later → (store.begin next.store owner later lease).2 = true →
      (store.begin leasing.store owner later lease).2 = true

/-- What the store needs: `ttl` is how long it remembers, and `exact` are the readings and leases
that it can add and compare. -/
structure Lawful (ttl : Option Nat) (exact : UInt64 → UInt64 → Prop) : Prop where
  granted : ∀ state owner now lease owner' later lease', exact now lease → exact later lease' →
    now ≤ later → (store.begin state owner now lease).2 = true →
    (store.begin (store.begin state owner now lease).1 owner' later lease').2 = true →
      now.toNat + lease.toNat ≤ later.toNat ∨ ∃ time ∈ ttl, now.toNat + time ≤ later.toNat
  refused : ∀ state owner now lease owner' later lease', now ≤ later →
    (store.begin state owner now lease).2 = false →
    (store.begin (store.begin state owner now lease).1 owner' later lease').2 = true →
      (store.begin state owner' later lease').2 = true
  completed : ∀ state reading owner outcome owner' later lease', reading ≤ later →
    (store.begin (store.complete state reading owner outcome) owner' later lease').2 = true →
      (store.begin state owner' later lease').2 = true ∨
        ∃ time ∈ ttl, reading.toNat + time ≤ later.toNat
  failed : ∀ state reading owner owner' later lease', reading ≤ later →
    store.releases state reading owner = false →
    (store.begin (store.fail state reading owner) owner' later lease').2 = true →
      (store.begin state owner' later lease').2 = true

/-- A begin with an exact lease that is not longer than the store remembers; a failure by the
last worker, or one that gives up nothing. -/
def Careful (ttl : Option Nat) (exact : UInt64 → UInt64 → Prop) (leasing : Leasing State Owner) :
    LeaseAction Owner Outcome → Prop
  | .begin _ now lease => exact now lease ∧ ∀ time ∈ ttl, lease.toNat ≤ time
  | .complete _ _ _ => True
  | .fail worker reading => worker + 1 < leasing.grants.length →
      ∀ grant ∈ leasing.grants[worker]?, store.releases leasing.store reading grant.owner = false

instance (ttl : Option Nat) (exact : UInt64 → UInt64 → Prop)
    [∀ now lease, Decidable (exact now lease)] (leasing : Leasing State Owner)
    (action : LeaseAction Owner Outcome) : Decidable (store.Careful ttl exact leasing action) :=
  match action with
  | .begin _ _ _ => inferInstanceAs (Decidable (_ ∧ _))
  | .complete _ _ _ => inferInstanceAs (Decidable True)
  | .fail _ _ => inferInstanceAs (Decidable (_ → _))

variable {store} {ttl : Option Nat} {exact : UInt64 → UInt64 → Prop}
variable {leasing next : Leasing State Owner} {granted : Bool}

/-- The grant has ended by a reading, or was given up. -/
def Past (reading : Nat) (grant : Grant Owner) : Prop :=
  grant.leaseEnd ≤ reading ∨ grant.status = .failed

theorem Past.later {reading later : Nat} {grant : Grant Owner} (past : Past reading grant)
    (ordered : reading ≤ later) : Past later grant :=
  past.imp_left (fun ended => ended.trans ordered)

/-- When somebody can begin, all leases are over; all but the last are over already; and the
store remembers beyond the end of every lease. -/
structure Guarded (store : LeaseStore State Owner Outcome) (ttl : Option Nat)
    (exact : UInt64 → UInt64 → Prop) (leasing : Leasing State Owner) : Prop where
  free : ∀ owner later lease, leasing.clock ≤ later.toNat → exact later lease →
    (store.begin leasing.store owner later lease).2 = true →
      ∀ grant ∈ leasing.grants, Past later.toNat grant
  earlier : ∀ index grant, leasing.grants[index]? = some grant →
    index + 1 < leasing.grants.length → Past leasing.clock grant
  remembered : ∀ grant ∈ leasing.grants, ∀ time ∈ ttl, grant.leaseEnd ≤ leasing.clock + time

variable {worker : Nat} {reading : UInt64} {status : GrantStatus}

theorem finish_eq_some {change : Owner → State}
    (finished : finish leasing worker reading status change = some next) :
    ∃ grant, leasing.grants[worker]? = some grant ∧ grant.status = .working ∧
      leasing.clock ≤ reading.toNat ∧
      next = ⟨change grant.owner, leasing.grants.set worker { grant with status := status },
        reading.toNat⟩ := by
  unfold finish at finished
  grind

variable {old : Grant Owner}

/-- A worker that finishes changes its own grant only, and not its end; it may give it up. -/
theorem past_of_finished {grants : List (Grant Owner)} {index reading : Nat} {grant : Grant Owner}
    (found : grants[worker]? = some old) (working : old.status = .working)
    (member : (grants.set worker { old with status := status })[index]? = some grant)
    (before : ∀ former, grants[index]? = some former → Past reading former) :
    Past reading grant := by
  rw [getElem?_set] at member
  split at member
  · rename_i same
    subst same
    obtain ⟨_, rfl⟩ := of_guard member
    rcases before old found with ended | gone
    · exact .inl ended
    · simp_all
  · exact before grant member

theorem guarded_begin (lawful : store.Lawful ttl exact) (guarded : Guarded store ttl exact leasing)
    {owner : Owner} {now lease : UInt64} (ordered : leasing.clock ≤ now.toNat)
    (exactly : exact now lease) (short : ∀ time ∈ ttl, lease.toNat ≤ time) :
    Guarded store ttl exact ⟨(store.begin leasing.store owner now lease).1,
      if (store.begin leasing.store owner now lease).2
      then leasing.grants ++ [⟨owner, now.toNat + lease.toNat, .working⟩] else leasing.grants,
      now.toNat⟩ := by
  cases answer : (store.begin leasing.store owner now lease).2 with
  | false =>
    refine ⟨?_, ?_, ?_⟩
    · intro owner' later lease' after exactly' begun
      have earlier := lawful.refused leasing.store owner now lease owner' later lease' after answer
        begun
      exact guarded.free owner' later lease' (ordered.trans after) exactly' earlier
    · intro index grant found last
      exact (guarded.earlier index grant found last).later ordered
    · intro grant member time remembered
      have := guarded.remembered grant member time remembered
      simp only
      omega
  | true =>
    have past : ∀ grant ∈ leasing.grants, Past now.toNat grant :=
      guarded.free owner now lease ordered exactly answer
    refine ⟨?_, ?_, ?_⟩
    · intro owner' later lease' after exactly' begun grant member
      rcases mem_append.mp member with old | new
      · exact (past grant old).later after
      · rw [mem_singleton.mp new]
        left
        rcases lawful.granted leasing.store owner now lease owner' later lease' exactly exactly'
          after answer begun with ended | ⟨time, remembered, forgotten⟩
        · exact ended
        · grind
    · grind
    · intro grant member time remembered
      rcases mem_append.mp member with old | new
      · have := guarded.remembered grant old time remembered
        simp only
        omega
      · simp_all

/-- What does not concern the store is kept when a worker finishes. -/
theorem guarded_finish (guarded : Guarded store ttl exact leasing) {state : State}
    (found : leasing.grants[worker]? = some old) (working : old.status = .working)
    (ordered : leasing.clock ≤ reading.toNat)
    (free : ∀ owner later lease, reading ≤ later → exact later lease →
      (store.begin state owner later lease).2 = true →
        ∀ grant ∈ leasing.grants.set worker { old with status := status }, Past later.toNat grant) :
    Guarded store ttl exact
      ⟨state, leasing.grants.set worker { old with status := status }, reading.toNat⟩ := by
  refine ⟨free, ?_, ?_⟩
  · intro index grant member last
    simp only [length_set] at last
    refine past_of_finished found working member ?_
    intro former place
    exact (guarded.earlier index former place last).later ordered
  · intro grant member time kept
    have former : ∃ former ∈ leasing.grants, former.leaseEnd = grant.leaseEnd := by grind
    obtain ⟨former, place, _⟩ := former
    have bound := guarded.remembered former place time kept
    simp only
    omega

section

variable (lawful : store.Lawful ttl exact)
include lawful

section

variable (guarded : Guarded store ttl exact leasing)
include guarded

theorem guarded_complete (outcome : Outcome) (found : leasing.grants[worker]? = some old)
    (working : old.status = .working) (ordered : leasing.clock ≤ reading.toNat) :
    Guarded store ttl exact ⟨store.complete leasing.store reading old.owner outcome,
      leasing.grants.set worker { old with status := .completed }, reading.toNat⟩ := by
  refine guarded_finish guarded found working ordered ?_
  intro owner later lease after exactly begun grant member
  obtain ⟨_, place⟩ := mem_iff_getElem?.mp member
  have afterwards : reading.toNat ≤ later.toNat := after
  refine past_of_finished found working place ?_
  intro former before
  have there := mem_of_getElem? before
  rcases lawful.completed leasing.store reading old.owner outcome owner later lease after begun with
    free | ⟨time, kept, forgotten⟩
  · exact guarded.free owner later lease (ordered.trans afterwards) exactly free former there
  · have bound := guarded.remembered former there time kept
    left
    omega

theorem guarded_fail (found : leasing.grants[worker]? = some old) (working : old.status = .working)
    (ordered : leasing.clock ≤ reading.toNat)
    (careful : worker + 1 < leasing.grants.length → store.releases leasing.store reading old.owner = false) :
    Guarded store ttl exact ⟨store.fail leasing.store reading old.owner,
      leasing.grants.set worker { old with status := .failed }, reading.toNat⟩ := by
  refine guarded_finish guarded found working ordered ?_
  intro owner later lease after exactly begun grant member
  obtain ⟨index, place⟩ := mem_iff_getElem?.mp member
  have afterwards : reading.toNat ≤ later.toNat := after
  have here : worker < leasing.grants.length := (List.getElem?_eq_some_iff.mp found).1
  by_cases last : worker + 1 < leasing.grants.length
  · refine past_of_finished found working place ?_
    intro former before
    have free := lawful.failed leasing.store reading old.owner owner later lease after
      (careful last) begun
    exact guarded.free owner later lease (ordered.trans afterwards) exactly free former
      (mem_of_getElem? before)
  · -- the last worker gives its lease up, and the others are over
    rw [getElem?_set] at place
    split at place
    · cases place
      exact .inr rfl
    · have below : index < leasing.grants.length := (List.getElem?_eq_some_iff.mp place).1
      exact (guarded.earlier index grant place (by omega)).later (ordered.trans afterwards)

variable {action : LeaseAction Owner Outcome}

theorem guarded_step (careful : store.Careful ttl exact leasing action)
    (taken : store.protocol.step leasing action = some (next, granted)) :
    Guarded store ttl exact next := by
  cases action with
  | begin =>
    obtain ⟨ordered, built⟩ := Option.ite_none_right_eq_some.mp taken
    cases built
    exact guarded_begin lawful guarded ordered careful.1 careful.2
  | complete worker reading outcome =>
    obtain ⟨_, finished, built⟩ := Option.map_eq_some_iff.mp taken
    cases built
    obtain ⟨old, found, working, ordered, rfl⟩ := finish_eq_some finished
    exact guarded_complete lawful guarded outcome found working ordered
  | fail =>
    obtain ⟨_, finished, built⟩ := Option.map_eq_some_iff.mp taken
    cases built
    obtain ⟨old, found, working, ordered, rfl⟩ := finish_eq_some finished
    exact guarded_fail lawful guarded found working ordered (fun later => careful later old found)

end

end

theorem exclusive_step (guarded : Guarded store ttl exact leasing)
    (careful : store.Careful ttl exact leasing action)
    (taken : store.protocol.step leasing action = some (next, granted)) :
    Exclusive leasing action granted := by
  rintro owner now lease rfl told
  obtain ⟨ordered, built⟩ := Option.ite_none_right_eq_some.mp taken
  cases built
  exact guarded.free owner now lease ordered careful.1 told

theorem keepsLease_step (lawful : store.Lawful ttl exact)
    (careful : store.Careful ttl exact leasing action)
    (taken : store.protocol.step leasing action = some (next, granted)) :
    store.KeepsLease leasing action next := by
  rintro _ reading rfl taken' owner later lease after begun
  obtain ⟨_, finished, built⟩ := Option.map_eq_some_iff.mp taken
  cases built
  obtain ⟨old, found, -, -, rfl⟩ := finish_eq_some finished
  exact lawful.failed leasing.store reading old.owner owner later lease after
    (careful taken' old found) begun

/-- A lawful store is exclusive in every run of careful steps. -/
theorem exclusive_run (lawful : store.Lawful ttl exact) {state : State} {clock : Nat}
    {events : List (LeaseAction Owner Outcome × Bool)}
    (careful : store.protocol.Along (fun leasing action _ _ => store.Careful ttl exact leasing action)
      ⟨state, [], clock⟩ events) :
    store.protocol.Along (fun leasing action granted next =>
      Exclusive leasing action granted ∧ store.KeepsLease leasing action next)
      ⟨state, [], clock⟩ events := by
  intro before action granted after leasing next split reached taken
  have guarded : Guarded store ttl exact leasing := by
    rw [split] at careful
    refine reached.invariant_along careful.first ⟨nofun, nofun, nofun⟩ ?_
    intro leasing action granted next guarded taken careful
    exact guarded_step lawful guarded careful taken
  have here := careful before action granted after leasing next split reached taken
  exact ⟨exclusive_step guarded here taken, keepsLease_step lawful here taken⟩

end LeaseStore

end Roze.Library
