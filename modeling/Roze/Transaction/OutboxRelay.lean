import Roze.Transaction.OutboxStore

/-!
# Relay workers over one in-memory outbox

`relay_outbox_batch` claims a batch, offers each message to the publisher and
records the answer. Its store calls are separate, so between a claim, a publish and
the call that records the answer every other worker may act. Here each of those
points is one step of a system with any number of workers, and a worker may stop at
any of them, as it does when a store call fails or its task is dropped.

The publisher answers as it likes; what it accepted is part of the system's state.
`relayOutboxBatch` is the loop of the source run without interference, and
`solo_run` shows that the worker's steps, taken one after another, are that loop.

Two results are about every interleaving. Nothing is lost: a message the publisher
never accepted can still be claimed, and only accepted messages are published. A
published message, however, stays published exactly as long as no late failure and
no replacing enqueue reaches it; neither operation looks at the stored status.
-/

namespace Roze.Transaction

open InMemoryOutbox

open Roze.Library

variable {Payload : Type}

structure OutboxRelayReport where
  published : Nat
  failed : Nat
deriving DecidableEq, Repr

structure OutboxRelayConfig where
  limit : Nat
  leaseMillis : UInt64
  initialBackoffMillis : UInt64
  maxBackoffMillis : UInt64
deriving DecidableEq, Repr

/-- The default relay configuration. -/
def OutboxRelayConfig.default : OutboxRelayConfig where
  limit := 100
  leaseMillis := 30000
  initialBackoffMillis := 1000
  maxBackoffMillis := 60000

def nextAttemptMillis (nowMillis : UInt64) (attempts : UInt32) (config : OutboxRelayConfig) :
    UInt64 :=
  let delay := min (saturatingMulU64 config.initialBackoffMillis
    (saturatingPowU64 2 (min attempts.toNat 6))) config.maxBackoffMillis
  saturatingAddU64 nowMillis delay

/-- The lease a batch started at this time asks for. -/
def leaseUntil (nowMillis : UInt64) (config : OutboxRelayConfig) : UInt64 :=
  saturatingAddU64 nowMillis config.leaseMillis

/-- The store call that records the publisher's answer for a message. -/
def settlement (nowMillis : UInt64) (config : OutboxRelayConfig)
    (message : OutboxMessage Payload) : Except String Unit → OutboxAction Payload
  | .ok () => .markPublished message.id
  | .error error =>
      .markFailed message.id error (some (nextAttemptMillis nowMillis message.attempts config))

/-- The report after one more recorded answer. -/
def OutboxRelayReport.count (report : OutboxRelayReport) : Except String Unit → OutboxRelayReport
  | .ok () => { report with published := report.published + 1 }
  | .error _ => { report with failed := report.failed + 1 }

/-- The loop over a claimed batch when nobody else acts. -/
def relayLoop (publish : OutboxMessage Payload → Except String Unit) (nowMillis : UInt64)
    (config : OutboxRelayConfig) :
    List (OutboxMessage Payload) → InMemoryOutbox Payload → OutboxRelayReport →
      InMemoryOutbox Payload × OutboxRelayReport
  | [], outbox, report => (outbox, report)
  | message :: rest, outbox, report =>
      relayLoop publish nowMillis config rest
        (outbox.perform (settlement nowMillis config message (publish message))).1
        (report.count (publish message))

/-- The whole batch when nobody else acts. -/
def relayOutboxBatch (outbox : InMemoryOutbox Payload)
    (publish : OutboxMessage Payload → Except String Unit) (nowMillis : UInt64)
    (config : OutboxRelayConfig) : InMemoryOutbox Payload × OutboxRelayReport :=
  let claim := outbox.claimPending nowMillis config.limit (leaseUntil nowMillis config)
  relayLoop publish nowMillis config claim.2 claim.1 ⟨0, 0⟩

/-- The local variables of one running batch. The head of `remaining` is the
message of the current round; `answer` is the publisher's answer for it once given
and not yet recorded. -/
structure RelayWorker (Payload : Type) where
  nowMillis : UInt64
  config : OutboxRelayConfig
  report : OutboxRelayReport
  remaining : List (OutboxMessage Payload)
  answer : Option (Except String Unit)

/-- The store, the running batches and the ids the publisher has accepted. -/
structure RelaySystem (Payload : Type) where
  outbox : InMemoryOutbox Payload
  workers : Nat → Option (RelayWorker Payload)
  accepted : List String

inductive RelayAction (Payload : Type) where
  | enqueue (message : OutboxMessage Payload)
  | start (worker : Nat) (nowMillis : UInt64) (config : OutboxRelayConfig)
  | publish (worker : Nat) (answer : Except String Unit)
  | settle (worker : Nat)
  | finish (worker : Nat)
  | stop (worker : Nat)

inductive RelayOutput (Payload : Type) where
  | called (result : OutboxResult Payload)
  | offered (id : String)
  | returned (report : OutboxRelayReport)
  | stopped

/-- The ids a step claimed. -/
def RelayOutput.claimedIds : RelayOutput Payload → List String
  | .called result => result.claimedIds
  | _ => []

namespace RelaySystem

/-- The publisher's log after it answered an offer. -/
def acceptedAfter (accepted : List String) (id : String) : Except String Unit → List String
  | .ok () => id :: accepted
  | .error _ => accepted

/-- Replace the local variables of one worker. -/
def setWorker (system : RelaySystem Payload) (worker : Nat) (state : Option (RelayWorker Payload)) :
    RelaySystem Payload :=
  { system with workers := Function.update system.workers worker state }

/-- The store call an action makes, when it is available. Offering a message,
returning and stopping make none. -/
def storeCall (system : RelaySystem Payload) : RelayAction Payload → Option (OutboxAction Payload)
  | .enqueue message => some (.enqueue message)
  | .start worker nowMillis config =>
      match system.workers worker with
      | none => some (.claimPending nowMillis config.limit (leaseUntil nowMillis config))
      | some _ => none
  | .settle worker =>
      match system.workers worker with
      | some ⟨nowMillis, config, _, message :: _, some answer⟩ =>
          some (settlement nowMillis config message answer)
      | _ => none
  | .publish _ _ | .finish _ | .stop _ => none

/-- One step of one party. An idle worker may start; a running one offers the
current message, records its answer, returns at the end of its batch, or stops. -/
def step (system : RelaySystem Payload) :
    RelayAction Payload → Option (RelaySystem Payload × RelayOutput Payload)
  | .enqueue message =>
      let called := system.outbox.perform (.enqueue message)
      some ({ system with outbox := called.1 }, .called called.2)
  | .start worker nowMillis config =>
      match system.workers worker with
      | some _ => none
      | none =>
          let claim := system.outbox.claimPending nowMillis config.limit
            (leaseUntil nowMillis config)
          some ({ system with outbox := claim.1 }.setWorker worker
              (some ⟨nowMillis, config, ⟨0, 0⟩, claim.2, none⟩), .called (.claimed claim.2))
  | .publish worker answer =>
      match system.workers worker with
      | some ⟨nowMillis, config, report, message :: rest, none⟩ =>
          some ({ system with accepted := acceptedAfter system.accepted message.id answer
              }.setWorker worker (some ⟨nowMillis, config, report, message :: rest, some answer⟩),
            .offered message.id)
      | _ => none
  | .settle worker =>
      match system.workers worker with
      | some ⟨nowMillis, config, report, message :: rest, some answer⟩ =>
          let called := system.outbox.perform (settlement nowMillis config message answer)
          some ({ system with outbox := called.1 }.setWorker worker
              (some ⟨nowMillis, config, report.count answer, rest, none⟩), .called called.2)
      | _ => none
  | .finish worker =>
      match system.workers worker with
      | some ⟨_, _, report, [], _⟩ => some (system.setWorker worker none, .returned report)
      | _ => none
  | .stop worker =>
      match system.workers worker with
      | some _ => some (system.setWorker worker none, .stopped)
      | none => none

end RelaySystem

open RelaySystem

/-- Workers and producers over one store. -/
def relay (Payload : Type) :
    Machine (RelaySystem Payload) (RelayAction Payload) (RelayOutput Payload) where
  step := RelaySystem.step

/-- No worker is running and nothing has been accepted yet. -/
def RelaySystem.idle (outbox : InMemoryOutbox Payload) : RelaySystem Payload :=
  ⟨outbox, fun _ => none, []⟩

/-- The six things a step can be, with what it finds and what it leaves. -/
inductive Transition (system : RelaySystem Payload) :
    RelayAction Payload → RelayOutput Payload → RelaySystem Payload → Prop
  | enqueued (message : OutboxMessage Payload) :
      Transition system (.enqueue message)
        (.called (system.outbox.perform (.enqueue message)).2)
        { system with outbox := (system.outbox.perform (.enqueue message)).1 }
  | started (worker : Nat) (nowMillis : UInt64) (config : OutboxRelayConfig)
      (idle : system.workers worker = none)
      (claim : InMemoryOutbox Payload × List (OutboxMessage Payload))
      (claimed : claim = system.outbox.claimPending nowMillis config.limit
        (leaseUntil nowMillis config)) :
      Transition system (.start worker nowMillis config) (.called (.claimed claim.2))
        ({ system with outbox := claim.1 }.setWorker worker
          (some ⟨nowMillis, config, ⟨0, 0⟩, claim.2, none⟩))
  | offered (worker : Nat) (nowMillis : UInt64) (config : OutboxRelayConfig)
      (report : OutboxRelayReport) (message : OutboxMessage Payload)
      (rest : List (OutboxMessage Payload)) (answer : Except String Unit)
      (running : system.workers worker =
        some ⟨nowMillis, config, report, message :: rest, none⟩) :
      Transition system (.publish worker answer) (.offered message.id)
        ({ system with accepted := RelaySystem.acceptedAfter system.accepted message.id answer
          }.setWorker worker (some ⟨nowMillis, config, report, message :: rest, some answer⟩))
  | settled (worker : Nat) (nowMillis : UInt64) (config : OutboxRelayConfig)
      (report : OutboxRelayReport) (message : OutboxMessage Payload)
      (rest : List (OutboxMessage Payload)) (answer : Except String Unit)
      (running : system.workers worker =
        some ⟨nowMillis, config, report, message :: rest, some answer⟩) :
      Transition system (.settle worker)
        (.called (system.outbox.perform (settlement nowMillis config message answer)).2)
        ({ system with
            outbox := (system.outbox.perform (settlement nowMillis config message answer)).1
          }.setWorker worker (some ⟨nowMillis, config, report.count answer, rest, none⟩))
  | finished (worker : Nat) (nowMillis : UInt64) (config : OutboxRelayConfig)
      (report : OutboxRelayReport) (answer : Option (Except String Unit))
      (running : system.workers worker = some ⟨nowMillis, config, report, [], answer⟩) :
      Transition system (.finish worker) (.returned report) (system.setWorker worker none)
  | stopped (worker : Nat) (local' : RelayWorker Payload)
      (running : system.workers worker = some local') :
      Transition system (.stop worker) .stopped (system.setWorker worker none)

variable {system next : RelaySystem Payload} {action : RelayAction Payload}
variable {output : RelayOutput Payload}

/-- Every available step is one of the six. -/
theorem step_transition (taken : system.step action = some (next, output)) :
    Transition system action output next := by
  cases action with
  | enqueue message =>
    cases taken
    exact .enqueued message
  | start worker nowMillis config =>
    cases running : system.workers worker with
    | some => simp [step, running] at taken
    | none =>
      simp only [step, running, Option.some.injEq, Prod.mk.injEq] at taken
      obtain ⟨rfl, rfl⟩ := taken
      exact .started worker nowMillis config running _ rfl
  | publish worker answer =>
    simp only [step] at taken
    split at taken
    · rename_i running
      cases taken
      exact .offered worker _ _ _ _ _ answer running
    · cases taken
  | settle worker =>
    simp only [step] at taken
    split at taken
    · rename_i running
      cases taken
      exact .settled worker _ _ _ _ _ _ running
    · cases taken
  | finish worker =>
    simp only [step] at taken
    split at taken
    · rename_i running
      cases taken
      exact .finished worker _ _ _ _ running
    · cases taken
  | stop worker =>
    simp only [step] at taken
    split at taken
    · rename_i running
      cases taken
      exact .stopped worker _ running
    · cases taken

/-- A step either makes its one store call, returning what the call returned, or
leaves the store alone and claims nothing. -/
theorem step_store (taken : system.step action = some (next, output)) :
    (∃ call, system.storeCall action = some call ∧
        next.outbox = (system.outbox.perform call).1 ∧
        output = .called (system.outbox.perform call).2) ∨
      (system.storeCall action = none ∧ next.outbox = system.outbox ∧ output.claimedIds = []) := by
  cases step_transition taken with
  | enqueued => exact .inl ⟨_, rfl, rfl, rfl⟩
  | started worker nowMillis config idle claim claimed =>
    subst claimed
    refine .inl ⟨.claimPending nowMillis config.limit (leaseUntil nowMillis config), ?_, rfl, rfl⟩
    simp only [storeCall, idle]
  | offered | finished | stopped => exact .inr ⟨rfl, rfl, rfl⟩
  | settled worker nowMillis config report message rest answer running =>
    refine .inl ⟨settlement nowMillis config message answer, ?_, rfl, rfl⟩
    simp only [storeCall, running]

/-! ## The source's loop -/

section Solo

variable {system : RelaySystem Payload} {worker : Nat} {nowMillis : UInt64}
variable {config : OutboxRelayConfig} {report : OutboxRelayReport}
variable {message : OutboxMessage Payload} {rest : List (OutboxMessage Payload)}
variable {answer : Except String Unit}

/-- A worker with a message in hand may offer it, whatever the answer. -/
theorem step_publish (running : system.workers worker =
      some ⟨nowMillis, config, report, message :: rest, none⟩) :
    (relay Payload).step system (.publish worker answer) =
      some ({ system with accepted := acceptedAfter system.accepted message.id answer
          }.setWorker worker (some ⟨nowMillis, config, report, message :: rest, some answer⟩),
        .offered message.id) := by
  simp only [relay, step, running]

/-- A worker with an answer in hand may record it. -/
theorem step_settle (running : system.workers worker =
      some ⟨nowMillis, config, report, message :: rest, some answer⟩) :
    (relay Payload).step system (.settle worker) =
      some ({ system with
            outbox := (system.outbox.perform (settlement nowMillis config message answer)).1
          }.setWorker worker (some ⟨nowMillis, config, report.count answer, rest, none⟩),
        .called (system.outbox.perform (settlement nowMillis config message answer)).2) := by
  simp only [relay, step, running]

end Solo

theorem setWorker_self (system : RelaySystem Payload) (worker : Nat)
    (state : Option (RelayWorker Payload)) :
    (system.setWorker worker state).workers worker = state := by
  simp [setWorker]

/-- What a worker does with a claimed batch: it offers and settles each message in turn. -/
def roundActions (publish : OutboxMessage Payload → Except String Unit) (worker : Nat)
    (claimed : List (OutboxMessage Payload)) : List (RelayAction Payload) :=
  claimed.flatMap (fun message => [.publish worker (publish message), .settle worker])

/-- A worker that nobody interrupts performs the source's loop: it is left with the loop's report, and
the other workers are where they were.

Proof: induction over the remaining messages. Offering and settling the head are
two steps whose store effect is the loop's round; the rest is the induction. -/
theorem solo_loop (publish : OutboxMessage Payload → Except String Unit) (worker : Nat)
    (nowMillis : UInt64) (config : OutboxRelayConfig) (remaining : List (OutboxMessage Payload))
    (system : RelaySystem Payload) (report : OutboxRelayReport)
    (running : system.workers worker = some ⟨nowMillis, config, report, remaining, none⟩) :
    ∃ events next, (relay Payload).Run system events next ∧
      events.map Prod.fst = roundActions publish worker remaining ∧
      next.outbox = (relayLoop publish nowMillis config remaining system.outbox report).1 ∧
      next.workers = Function.update system.workers worker (some ⟨nowMillis, config,
        (relayLoop publish nowMillis config remaining system.outbox report).2, [], none⟩) := by
  induction remaining generalizing system report with
  | nil =>
    refine ⟨[], system, .done system, rfl, rfl, ?_⟩
    rw [relayLoop, ← running, Function.update_eq_self]
  | cons message rest ih =>
    let offered : RelaySystem Payload := { system with
      accepted := acceptedAfter system.accepted message.id (publish message)
      }.setWorker worker
        (some ⟨nowMillis, config, report, message :: rest, some (publish message)⟩)
    let settled : RelaySystem Payload := { offered with
      outbox := (system.outbox.perform (settlement nowMillis config message (publish message))).1
      }.setWorker worker (some ⟨nowMillis, config, report.count (publish message), rest, none⟩)
    have offerTaken : (relay Payload).step system (.publish worker (publish message)) =
        some (offered, .offered message.id) := step_publish running
    have settleTaken : (relay Payload).step offered (.settle worker) = some (settled,
        .called (system.outbox.perform
          (settlement nowMillis config message (publish message))).2) :=
      step_settle (setWorker_self _ worker _)
    obtain ⟨_, next, run, actions, outbox, others⟩ :=
      ih settled (report.count (publish message)) (setWorker_self _ worker _)
    refine ⟨_, next, .step offerTaken (.step settleTaken run), ?_, outbox, ?_⟩
    · rw [List.map_cons, List.map_cons, actions]
      rfl
    · rw [others]
      simp [settled, offered, setWorker, relayLoop]

/-- Started on an idle worker and left alone, the steps are exactly the batch
function: a claim, an offer and a settlement for each claimed message, and the return of the report.
They leave its store, and the other workers where they were. -/
theorem solo_run (publish : OutboxMessage Payload → Except String Unit) (worker : Nat)
    (nowMillis : UInt64) (config : OutboxRelayConfig) (system : RelaySystem Payload)
    (idle : system.workers worker = none) :
    ∃ events final, (relay Payload).Run system (events ++ [(.finish worker,
        .returned (relayOutboxBatch system.outbox publish nowMillis config).2)]) final ∧
      events.map Prod.fst = .start worker nowMillis config :: roundActions publish worker
        (system.outbox.claimPending nowMillis config.limit (leaseUntil nowMillis config)).2 ∧
      final.outbox = (relayOutboxBatch system.outbox publish nowMillis config).1 ∧
      final.workers = system.workers := by
  let claim := system.outbox.claimPending nowMillis config.limit (leaseUntil nowMillis config)
  let started : RelaySystem Payload := { system with outbox := claim.1 }.setWorker worker
    (some ⟨nowMillis, config, ⟨0, 0⟩, claim.2, none⟩)
  have startTaken : (relay Payload).step system (.start worker nowMillis config) =
      some (started, .called (.claimed claim.2)) := by
    simp only [relay, step, idle]
    rfl
  obtain ⟨_, next, run, actions, outbox, others⟩ :=
    solo_loop publish worker nowMillis config claim.2 started ⟨0, 0⟩ (setWorker_self _ worker _)
  have finishTaken : (relay Payload).step next (.finish worker) =
      some (next.setWorker worker none,
        .returned (relayOutboxBatch system.outbox publish nowMillis config).2) := by
    simp only [relay, step, others, Function.update_self]
    rfl
  have whole := Machine.run_append_iff.mpr
    ⟨next, Machine.Run.step startTaken run, Machine.Run.single finishTaken⟩
  refine ⟨_, _, whole, ?_, outbox, ?_⟩
  · rw [List.map_cons, actions]
  · simp only [setWorker, others, started, Function.update_idem, ← idle, Function.update_eq_self]

/-- Two messages, of which the publisher accepts the first. -/
theorem solo_run_published :
    let outbox : InMemoryOutbox Unit := ((KeyedMap.empty _).insert (.new "msg-1" "orders" "order-1" ())).insert
      (.new "msg-2" "orders" "order-2" ())
    ∃ events final,
      (relay Unit).Run (.idle outbox) (events ++ [(.finish 0, .returned ⟨1, 1⟩)]) final ∧
      events.map Prod.fst = [.start 0 0 .default, .publish 0 (.ok ()), .settle 0,
        .publish 0 (.error "down"), .settle 0] ∧
      ["msg-1", "msg-2"].map (fun id => (final.outbox.find? id).map OutboxMessage.status) =
        [some .published, some .failed] := by
  intro outbox
  obtain ⟨events, final, run, actions, stored, -⟩ := solo_run
    (fun message => if message.id = "msg-1" then .ok () else .error "down") 0 0 .default (.idle outbox) rfl
  exact ⟨events, final, run, actions, by rw [stored]; decide⟩

/-! ## Published messages -/

/-- The message stored under an id is published. -/
def Published (id : String) (outbox : InMemoryOutbox Payload) : Prop :=
  ∃ message, outbox.find? id = some message ∧ message.status = .published

/-- The action does not take a published message out of that status: it records no
failure for one, and enqueues nothing but published messages over one. -/
def KeepsPublished (system : RelaySystem Payload) (action : RelayAction Payload) : Prop :=
  match system.storeCall action with
  | some (.markFailed id _ _) => ¬ Published id system.outbox
  | some (.enqueue message) => Published message.id system.outbox → message.status = .published
  | _ => True

/-- A call keeps every published message published and claims none of them exactly
when it neither fails nor replaces one.

Proof: the call's effect on a published id is one of five. A claim is excluded by
the claim test. A failure and a replacing enqueue are the two exceptions, and each
of them visibly leaves another status behind. -/
theorem perform_keeps_iff (outbox : InMemoryOutbox Payload) (call : OutboxAction Payload) :
    (∀ id, Published id outbox → Published id (outbox.perform call).1 ∧
        id ∉ (outbox.perform call).2.claimedIds) ↔
      match call with
      | .markFailed id _ _ => ¬ Published id outbox
      | .enqueue message => Published message.id outbox → message.status = .published
      | _ => True := by
  constructor
  · intro keeps
    cases call with
    | enqueue message =>
      intro published
      obtain ⟨⟨stored, found, final⟩, _⟩ := keeps message.id published
      have replaced : (outbox.perform (.enqueue message)).1.find? message.id = some message := by
        simp [perform, enqueue, KeyedMap.find?_insert]
      simp_all
    | markFailed id error nextAttempt =>
      intro published
      obtain ⟨⟨stored, found, final⟩, _⟩ := keeps id published
      obtain ⟨old, before, _⟩ := published
      have failed : (outbox.perform (.markFailed id error nextAttempt)).1.find? id =
          some (old.markFailed error nextAttempt) := by
        simp [perform, markFailed, KeyedMap.find?_adjust, before]
      rw [failed] at found
      cases found
      cases final
    | get | claimPending | markPublished => trivial
  · intro allowed id published
    obtain ⟨message, found, final⟩ := published
    have effect := outbox.perform_effect call id
    rw [found] at effect
    generalize stored : (outbox.perform call).1.find? id = after at effect
    generalize (outbox.perform call).2 = result at effect
    cases effect with
    | kept action result unclaimed => exact ⟨⟨message, stored, final⟩, unclaimed⟩
    | enqueued fresh result same unclaimed =>
      refine ⟨⟨fresh, stored, allowed ⟨message, ?_, final⟩⟩, unclaimed⟩
      rw [same]
      exact found
    | claimed nowMillis limit lease result old before ready =>
      cases before
      rw [OutboxMessage.not_claimable_of_published final] at ready
      cases ready
    | published => exact ⟨⟨_, stored, rfl⟩, List.not_mem_nil⟩
    | failed => exact absurd ⟨message, found, final⟩ allowed

/-- The same for a step of the relay system. -/
theorem step_keeps_iff (taken : system.step action = some (next, output)) :
    (∀ id, Published id system.outbox → Published id next.outbox ∧ id ∉ output.claimedIds) ↔
      KeepsPublished system action := by
  rcases step_store taken with ⟨call, called, stored, returned⟩ | ⟨silent, same, unclaimed⟩
  · rw [stored, returned]
    refine (perform_keeps_iff system.outbox call).trans ?_
    rw [KeepsPublished, called]
    cases call <;> exact Iff.rfl
  · rw [same, unclaimed, KeepsPublished, silent]
    simp

/-- Along any interleaving, published messages stay published and unclaimed exactly
when no step fails or replaces one. The condition is on the state before each step
and on the call it makes; it is not implied by the relay protocol itself. -/
theorem published_final_iff (events : List (RelayAction Payload × RelayOutput Payload)) :
    (∀ id, (relay Payload).Persists (fun system => Published id system.outbox)
        (fun _ output => id ∉ output.claimedIds) (.idle (KeyedMap.empty _)) events) ↔
      (relay Payload).Along (fun system action _ _ => KeepsPublished system action)
        (.idle (KeyedMap.empty _)) events := by
  simp only [Machine.persists_iff]
  rw [Machine.along_forall_iff]
  have always : (fun _ => True) (idle (KeyedMap.empty _) : RelaySystem Payload) := trivial
  exact Machine.along_congr always (fun _ _ _ _ _ _ => trivial)
    fun _ _ _ _ _ stepped _ => step_keeps_iff stepped

/-- Two workers hold the same message after the first lease ended; the second one
publishes it. -/
def publishedTwiceClaimed : List (RelayAction Unit) :=
  let config : OutboxRelayConfig := { OutboxRelayConfig.default with leaseMillis := 10 }
  [.enqueue (.new "msg-1" "orders" "order-1" ()), .start 0 0 config, .start 1 10 config,
    .publish 1 (.ok ()), .settle 1]

/-- The first worker's own publish is refused and its late failure is recorded;
a third worker then claims the message again. -/
def lateFailure : List (RelayAction Unit) :=
  [.publish 0 (.error "broker timeout"), .settle 0, .start 2 5000 .default]

/-- A late `mark_failed` takes a published message back to failed, and the next
claim returns it: being published is not final. -/
theorem published_not_final :
    ¬ ∀ (events : List (RelayAction Unit × RelayOutput Unit)) (final : RelaySystem Unit),
      (relay Unit).Run (.idle (KeyedMap.empty _)) events final → ∀ id,
        (relay Unit).Persists (fun system => Published id system.outbox)
          (fun _ output => id ∉ output.claimedIds) (.idle (KeyedMap.empty _)) events := by
  intro stays
  have evaluated : ((relay Unit).exec (.idle (KeyedMap.empty _)) publishedTwiceClaimed).bind
      (fun middle => ((relay Unit).exec middle.1 lateFailure).map (fun last =>
        ((middle.1.outbox.find? "msg-1").map OutboxMessage.status,
          (last.1.outbox.find? "msg-1").map OutboxMessage.status))) =
      some (some .published, some .publishing) := by decide
  obtain ⟨⟨middle, before⟩, executed, continued⟩ := Option.bind_eq_some_iff.mp evaluated
  obtain ⟨⟨last, after⟩, failing, observed⟩ := Option.map_eq_some_iff.mp continued
  obtain ⟨status, lastStatus⟩ := Prod.mk.inj observed
  obtain ⟨message, found, final⟩ := Option.map_eq_some_iff.mp status
  obtain ⟨_, lastFound, publishing⟩ := Option.map_eq_some_iff.mp lastStatus
  obtain ⟨⟨_, otherFound, stillFinal⟩, _⟩ := stays (before ++ after) last
    (Machine.exec_twice executed failing).1 "msg-1" before after [] middle last (by simp)
    (Machine.exec_run executed) (Machine.exec_run failing) ⟨message, found, final⟩
  rw [lastFound] at otherFound
  cases otherFound
  rw [publishing] at stillFinal
  cases stillFinal

/-! ## Nothing is lost -/

variable {outbox : InMemoryOutbox Payload} {call : OutboxAction Payload} {id : String}

/-- A call other than an enqueue publishes a message only by marking that id. -/
theorem perform_published (notEnqueue : ∀ message, call ≠ .enqueue message)
    (published : Published id (outbox.perform call).1) :
    Published id outbox ∨ call = .markPublished id := by
  obtain ⟨message, found, final⟩ := published
  have effect := outbox.perform_effect call id
  rw [found] at effect
  generalize before : outbox.find? id = old, (outbox.perform call).2 = result at effect
  cases effect with
  | kept => exact .inl ⟨message, before, final⟩
  | enqueued => simp_all
  | claimed | failed => cases final
  | published => exact .inr rfl

/-- A call other than an enqueue keeps every stored message's content. -/
theorem perform_content (notEnqueue : ∀ message, call ≠ .enqueue message)
    {old : OutboxMessage Payload} (found : outbox.find? id = some old) :
    ∃ stored, (outbox.perform call).1.find? id = some stored ∧ stored.content = old.content := by
  have effect := outbox.perform_effect call id
  rw [found] at effect
  generalize after : (outbox.perform call).1.find? id = stored, (outbox.perform call).2 = result
    at effect
  cases effect with
  | kept => exact ⟨old, rfl, rfl⟩
  | enqueued message => simp_all
  | claimed nowMillis limit lease result same before =>
    cases before
    exact ⟨_, rfl, rfl⟩
  | published same before =>
    cases before
    exact ⟨_, rfl, rfl⟩
  | failed error nextAttempt same before =>
    cases before
    exact ⟨_, rfl, rfl⟩

/-- Every message in flight carries the end of its lease. -/
def Leased (outbox : InMemoryOutbox Payload) : Prop :=
  ∀ id message, outbox.find? id = some message → message.status = .publishing →
    ∃ lease, message.leaseUntilMillis = some lease

/-- What every interleaving of relay workers maintains. The second field ties a
worker's unrecorded answer to the publisher's log; without it, recording a stale
answer could publish a message nobody accepted. -/
structure NoLoss (messages : List (OutboxMessage Payload)) (system : RelaySystem Payload) :
    Prop where
  published : ∀ id, Published id system.outbox → id ∈ system.accepted
  answered : ∀ worker nowMillis config report message rest,
    system.workers worker = some ⟨nowMillis, config, report, message :: rest, some (.ok ())⟩ →
      message.id ∈ system.accepted
  stored : ∀ message ∈ messages, ∃ current, system.outbox.find? message.id = some current ∧
    current.content = message.content
  leased : Leased system.outbox

/-- Enqueuing pending messages under distinct ids establishes the invariant. -/
theorem noLoss_initial (messages : List (OutboxMessage Payload))
    (pending : ∀ message ∈ messages, message.status = .pending)
    (distinct : (messages.map OutboxMessage.id).Nodup) :
    NoLoss messages (.idle (InMemoryOutbox.enqueueAll (KeyedMap.empty _) messages)) := by
  have allPending : ∀ id message,
      (enqueueAll (KeyedMap.empty _) messages).find? id = some message →
        message.status = .pending := by
    intro id message found
    rcases mem_of_find?_enqueueAll _ messages found with member | absent
    · exact pending message member
    · simp at absent
  refine ⟨?_, ?_, ?_, ?_⟩
  · rintro id ⟨message, found, final⟩
    rw [allPending id message found] at final
    cases final
  · intro worker nowMillis config report message rest running
    cases running
  · intro message member
    exact ⟨message, find?_enqueueAll_of_mem _ messages distinct member, rfl⟩
  · intro id message found publishing
    rw [allPending id message found] at publishing
    cases publishing

variable {messages : List (OutboxMessage Payload)}

/-- An idle or unanswered worker has no accepted answer left to record. -/
theorem answered_update {workers : Nat → Option (RelayWorker Payload)} {changed : Nat}
    {state : Option (RelayWorker Payload)}
    (silent : ∀ nowMillis config report message rest,
      state ≠ some ⟨nowMillis, config, report, message :: rest, some (.ok ())⟩)
    {worker : Nat} {nowMillis : UInt64} {config : OutboxRelayConfig} {report : OutboxRelayReport}
    {message : OutboxMessage Payload} {rest : List (OutboxMessage Payload)}
    (running : Function.update workers changed state worker =
      some ⟨nowMillis, config, report, message :: rest, some (.ok ())⟩) :
    workers worker = some ⟨nowMillis, config, report, message :: rest, some (.ok ())⟩ := by
  by_cases same : worker = changed <;> simp_all

/-- A store call made by a relay worker keeps the store's part of the invariant,
provided a marked id was accepted. -/
theorem noLoss_call (invariant : NoLoss messages system) (call : OutboxAction Payload)
    (notEnqueue : ∀ message, call ≠ .enqueue message)
    (called : next.outbox = (system.outbox.perform call).1)
    (same : next.accepted = system.accepted)
    (marked : ∀ id, call = .markPublished id → id ∈ system.accepted)
    {worker : Nat} {state : Option (RelayWorker Payload)}
    (workers : next.workers = Function.update system.workers worker state)
    (silent : ∀ nowMillis config report message rest,
      state ≠ some ⟨nowMillis, config, report, message :: rest, some (.ok ())⟩) :
    NoLoss messages next := by
  refine ⟨?_, ?_, ?_, ?_⟩
  · intro id published
    rw [same]
    rw [called] at published
    rcases perform_published notEnqueue published with before | byCall
    · exact invariant.published id before
    · exact marked id byCall
  · intro worker nowMillis config report message rest running
    rw [workers] at running
    rw [same]
    exact invariant.answered worker nowMillis config report message rest
      (answered_update silent running)
  · intro message member
    obtain ⟨_, found, content⟩ := invariant.stored message member
    obtain ⟨after, foundAfter, kept⟩ := perform_content notEnqueue found
    simp_all
  · rw [called]
    intro id message found publishing
    have effect := system.outbox.perform_effect call id
    rw [found] at effect
    generalize before : system.outbox.find? id = old, (system.outbox.perform call).2 = result at effect
    cases effect with
    | kept => exact invariant.leased id message before publishing
    | enqueued => simp_all
    | claimed nowMillis limit lease => exact ⟨lease, rfl⟩
    | published | failed => cases publishing

/-- A worker that leaves keeps the invariant: it only forgets its variables. -/
theorem noLoss_leave (invariant : NoLoss messages system) (worker : Nat) :
    NoLoss messages (system.setWorker worker none) where
  published := invariant.published
  answered other nowMillis config report message rest running :=
    invariant.answered other nowMillis config report message rest
      (answered_update (by simp) running)
  stored := invariant.stored
  leased := invariant.leased

/-- Every step of a relay worker keeps the invariant. -/
theorem noLoss_step (invariant : NoLoss messages system)
    (taken : system.step action = some (next, output))
    (relaying : ∀ message, action ≠ .enqueue message) : NoLoss messages next := by
  cases step_transition taken with
  | enqueued message => simp_all
  | started worker nowMillis config idle claim claimed =>
    subst claimed
    exact noLoss_call invariant (.claimPending nowMillis config.limit (leaseUntil nowMillis config))
      nofun rfl rfl nofun rfl (by simp)
  | offered worker nowMillis config report message rest answer =>
    have grows : ∀ id, id ∈ system.accepted →
        id ∈ acceptedAfter system.accepted message.id answer := by
      intro id member
      cases answer with
      | ok => exact List.mem_cons_of_mem message.id member
      | error => exact member
    refine ⟨fun id published => grows id (invariant.published id published), ?_,
      invariant.stored, invariant.leased⟩
    intro other otherNow otherConfig otherReport otherMessage otherRest otherRunning
    by_cases same : other = worker
    · subst same
      simp only [setWorker, Function.update_self, Option.some.injEq,
        RelayWorker.mk.injEq, List.cons.injEq] at otherRunning
      obtain ⟨_, _, _, ⟨rfl, _⟩, rfl⟩ := otherRunning
      exact List.mem_cons_self
    · simp only [setWorker, Function.update_of_ne same] at otherRunning
      exact grows _ (invariant.answered other otherNow otherConfig otherReport otherMessage
        otherRest otherRunning)
  | settled worker nowMillis config report message rest answer running =>
    refine noLoss_call invariant (settlement nowMillis config message answer) ?_ rfl rfl ?_ rfl
      (by simp)
    · intro fresh
      cases answer <;> exact fun impossible => by cases impossible
    · intro id marked
      cases answer with
      | ok =>
        obtain rfl := OutboxAction.markPublished.inj marked
        exact invariant.answered worker nowMillis config report message rest running
      | error => cases marked
  | finished worker | stopped worker => exact noLoss_leave invariant worker

/-- A stored message that is not published is returned by every claim that is late
enough and large enough: at the last representable time no retry or lease is still
ahead, and no more messages can precede it than the store holds. -/
theorem claim_reaches {message : OutboxMessage Payload} (found : outbox.find? id = some message)
    (unpublished : message.status ≠ .published) :
    ∃ (late : UInt64) (enough : Nat), ∀ nowMillis limit lease, late ≤ nowMillis → enough ≤ limit →
      id ∈ (outbox.claimPending nowMillis limit lease).2.map OutboxMessage.id := by
  refine ⟨UInt64.ofNat (2 ^ 64 - 1), outbox.values.length + 1, ?_⟩
  intro nowMillis limit lease reached large
  have last : nowMillis.toNat = 2 ^ 64 - 1 := by
    have upper : nowMillis.toNat < 2 ^ 64 := nowMillis.toNat_lt
    have lower : (UInt64.ofNat (2 ^ 64 - 1)).toNat ≤ nowMillis.toNat :=
      UInt64.le_iff_toNat_le.mp reached
    rw [UInt64.toNat_ofNat'] at lower
    omega
  have position : outbox.rank (OutboxMessage.claimable nowMillis) id ≤ outbox.values.length :=
    List.length_filter_le _ _
  exact (outbox.mem_claimPending_iff nowMillis limit lease id).mpr
    ⟨message, found, OutboxMessage.claimable_last unpublished last, by omega⟩

/-- Whatever the workers, the publisher and the clocks do: a published message was
accepted, and a message that was never accepted is still stored with its content,
pending, failed or in flight under a finite lease, so that a late and large enough
claim returns it. -/
theorem nothing_lost (messages : List (OutboxMessage Payload))
    (pending : ∀ message ∈ messages, message.status = .pending)
    (distinct : (messages.map OutboxMessage.id).Nodup)
    (events : List (RelayAction Payload × RelayOutput Payload)) (final : RelaySystem Payload)
    (relaying : ∀ event ∈ events, ∀ message, event.1 ≠ .enqueue message)
    (run : (relay Payload).Run
      (.idle (InMemoryOutbox.enqueueAll (KeyedMap.empty _) messages)) events final) :
    (∀ id, Published id final.outbox → id ∈ final.accepted) ∧
      ∀ message ∈ messages, message.id ∉ final.accepted →
        ∃ stored, final.outbox.find? message.id = some stored ∧
          stored.content = message.content ∧
          (stored.status = .pending ∨ stored.status = .failed ∨
            stored.status = .publishing ∧ ∃ lease, stored.leaseUntilMillis = some lease) ∧
          ∃ (late : UInt64) (enough : Nat), ∀ nowMillis limit lease, late ≤ nowMillis →
            enough ≤ limit →
            message.id ∈ (final.outbox.claimPending nowMillis limit lease).2.map
              OutboxMessage.id := by
  have along : (relay Payload).Along (fun _ action _ _ => ∀ message, action ≠ .enqueue message)
      (.idle (enqueueAll (KeyedMap.empty _) messages)) events :=
    Machine.along_of_forall_mem relaying
  have invariant : NoLoss messages final :=
    run.invariant_along along (noLoss_initial messages pending distinct)
      (fun _ _ _ _ holds taken notEnqueue => noLoss_step holds taken notEnqueue)
  refine ⟨invariant.published, ?_⟩
  intro message member refused
  obtain ⟨stored, found, content⟩ := invariant.stored message member
  have unpublished : stored.status ≠ .published := by
    intro published
    exact refused (invariant.published message.id ⟨stored, found, published⟩)
  refine ⟨stored, found, content, ?_, claim_reaches found unpublished⟩
  cases status : stored.status with
  | pending => exact .inl rfl
  | failed => exact .inr (.inl rfl)
  | publishing => exact .inr (.inr ⟨rfl, invariant.leased message.id stored found status⟩)
  | published => exact absurd status unpublished

/-- A worker claims two messages, gets the first one accepted and dies before
recording it. The second message was never accepted and can still be claimed. -/
theorem nothing_lost_abandoned_batch :
    let messages : List (OutboxMessage Unit) :=
      [.new "msg-1" "orders" "order-1" (), .new "msg-2" "orders" "order-2" ()]
    ∃ events final, (relay Unit).Run
        (.idle (enqueueAll (KeyedMap.empty _) messages)) events final ∧
      "msg-1" ∈ final.accepted ∧ "msg-2" ∉ final.accepted ∧
      ∃ stored, final.outbox.find? "msg-2" = some stored ∧ stored.status = .publishing ∧
        ∃ (late : UInt64) (enough : Nat), ∀ nowMillis limit lease, late ≤ nowMillis →
          enough ≤ limit →
          "msg-2" ∈ (final.outbox.claimPending nowMillis limit lease).2.map OutboxMessage.id := by
  intro messages
  let actions : List (RelayAction Unit) :=
    [.start 0 0 .default, .publish 0 (.ok ()), .stop 0]
  have evaluated : ((relay Unit).exec (.idle (enqueueAll (KeyedMap.empty _) messages))
      actions).map (fun result =>
      (result.1.accepted, (result.1.outbox.find? "msg-2").map OutboxMessage.status)) =
      some (["msg-1"], some .publishing) := by decide
  obtain ⟨events, final, run, made, same⟩ := Machine.exec_observed evaluated
  obtain ⟨accepted, status⟩ := Prod.mk.inj same
  have relaying : ∀ event ∈ events, ∀ message, event.1 ≠ .enqueue message := by
    intro event member message
    have listed := made ▸ List.mem_map_of_mem (f := Prod.fst) member
    rintro enqueued
    simp [enqueued, actions] at listed
  obtain ⟨_, kept⟩ := nothing_lost messages (by simp [messages, OutboxMessage.new])
    (by decide) events final relaying run
  dsimp only at accepted status
  have refused : "msg-2" ∉ final.accepted := by simp [accepted]
  obtain ⟨stored, found, _, _, reachable⟩ := kept (.new "msg-2" "orders" "order-2" ())
    (by simp [messages]) refused
  refine ⟨events, final, run, by simp [accepted], refused, stored, found, ?_, reachable⟩
  change final.outbox.find? "msg-2" = some stored at found
  rw [found] at status
  exact Option.some.inj status

end Roze.Transaction
