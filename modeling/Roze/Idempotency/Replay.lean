import Roze.Idempotency.Cell

/-!
# Stability of replayed responses

A begin that finds a response answers with it. A completion does not ask whose lease it ends, nor
whether there is a response already, and writes its own: a worker that comes late, after another
one has taken over and completed, changes what later begins are answered. A failure leaves a
completed record alone.
-/

namespace Roze.Idempotency

open Cell

open Roze.Library Machine

universe u v

variable {Response : Type u}

/-- A begin that was answered with a response. -/
def replayed (fingerprint : String) (now lease : UInt64) (response : Response) :
    Call Response × Answer Response :=
  (.begin fingerprint now lease, .decided (.ok (.replay response)))

/-- Once a begin was answered with a response, every later begin with its fingerprint is answered
with that response. -/
def ReplaysStay {State : Type v} (machine : Machine State (Call Response) (Answer Response))
    (start : State) (events : List (Call Response × Answer Response)) : Prop :=
  ∀ before fingerprint now lease response middle after state now' lease' next answer,
    events = before ++ replayed fingerprint now lease response :: (middle ++ after) →
    machine.Run start (before ++ replayed fingerprint now lease response :: middle) state →
    machine.step state (.begin fingerprint now' lease') = some (next, answer) →
      answer = .decided (.ok (.replay response))

/-- Once a begin was answered with a response, no completion for its fingerprint brings another
one. -/
def CompletionsAgree (events : List (Call Response × Answer Response)) : Prop :=
  ∀ before fingerprint now lease response later completion outcome,
    events = before ++ replayed fingerprint now lease response :: later →
    (.complete fingerprint completion, outcome) ∈ later → completion = response

/-- The record has a response for a fingerprint. -/
def Completed (fingerprint : String) (response : Response) (cell : Cell Response) : Prop :=
  ∃ lease, cell = some ⟨fingerprint, some response, lease⟩

/-! ## One record -/

section Records

variable {blocks : Nat → Nat → Bool} {cell : Cell Response} {fingerprint : String}
variable {response : Response}

/-- A begin is answered with a response exactly if the record has it. -/
theorem begin_replay_iff {now leaseEnd : Nat} :
    (cell.begin blocks fingerprint now leaseEnd).2 = .replay response ↔
      Completed fingerprint response cell := by
  constructor
  · intro answered
    unfold begin at answered
    split at answered
    · cases answered
    · rename_i entry
      split at answered
      · cases answered
      · rename_i same
        split at answered
        · rename_i done
          cases answered
          obtain ⟨_, _, lease⟩ := entry
          simp only [ne_eq, not_not] at same done
          subst same done
          exact ⟨lease, rfl⟩
        · grind
  · rintro ⟨_, rfl⟩
    simp [begin]

/-- A call keeps the response, unless it is a completion that brings another one. -/
theorem call_of_completed (completed : Completed fingerprint response cell) (call : Call Response)
    (agrees : ∀ completion, call = .complete fingerprint completion → completion = response) :
    Completed fingerprint response (cell.call blocks call).1 := by
  obtain ⟨lease, rfl⟩ := completed
  cases call with
  | begin other =>
    refine ⟨lease, ?_⟩
    by_cases same : fingerprint = other <;> simp [call, begin, same]
  | complete other completion =>
    by_cases same : fingerprint = other
    · subst same
      rw [agrees completion rfl]
      exact ⟨none, by simp [call, complete]⟩
    · exact ⟨lease, by simp [call, complete, same]⟩
  | fail => exact ⟨lease, by simp [call, fail]⟩

/-- A run whose completions agree keeps the response. -/
theorem run_of_completed {events : List (Call Response × Answer Response)} {final : Cell Response}
    {shown : Call Response → Answer Response → Answer Response}
    (run : (cells Response blocks shown).Run cell events final)
    (completed : Completed fingerprint response cell)
    (agree : ∀ completion outcome, (.complete fingerprint completion, outcome) ∈ events →
      completion = response) : Completed fingerprint response final := by
  induction run with
  | done => exact completed
  | @step cell next final call answer events taken rest ih =>
    obtain ⟨rfl, -⟩ := cells_step_iff.mp taken
    refine ih ?_ ?_
    · refine call_of_completed completed call ?_
      grind
    · grind

/-- The caller of a store is answered with a response exactly if the record is. -/
def ShowsReplays (shown : Call Response → Answer Response → Answer Response) : Prop :=
  ∀ call answer response, shown call answer = .decided (.ok (.replay response)) ↔
    answer = .decided (.ok (.replay response))

/-- A begin of the machine is answered with a response exactly if the record has it. -/
theorem answer_replay_iff {shown : Call Response → Answer Response → Answer Response}
    (shows : ShowsReplays shown) {now lease : UInt64} :
    shown (.begin fingerprint now lease) (cell.call blocks (.begin fingerprint now lease)).2 =
        .decided (.ok (.replay response)) ↔
      Completed fingerprint response cell := by
  rw [shows]
  simp only [call, Answer.decided.injEq, Except.ok.injEq]
  exact begin_replay_iff

end Records

variable {blocks : Nat → Nat → Bool} {shown : Call Response → Answer Response → Answer Response}

/-- After a replay that stays, the record has the response. -/
theorem ReplaysStay.completed (shows : ShowsReplays shown) {start state : Cell Response}
    {before middle after : List (Call Response × Answer Response)} {fingerprint : String}
    {now lease : UInt64} {response : Response}
    (stay : ReplaysStay (cells Response blocks shown) start
      (before ++ replayed fingerprint now lease response :: (middle ++ after)))
    (reached : (cells Response blocks shown).Run start
      (before ++ replayed fingerprint now lease response :: middle) state) :
    Completed fingerprint response state :=
  (answer_replay_iff shows).mp (stay before fingerprint now lease response middle after state now
    lease _ _ rfl reached (cells_step_iff.mpr ⟨rfl, rfl⟩))

/-- Replayed responses of one record stay exactly if the completions that follow agree.

Proof: a begin is answered with the response of the record. Only a completion changes it, and it
changes it to its own. -/
theorem cells_replaysStay_iff (shows : ShowsReplays shown) {start final : Cell Response}
    {events : List (Call Response × Answer Response)}
    (run : (cells Response blocks shown).Run start events final) :
    ReplaysStay (cells Response blocks shown) start events ↔ CompletionsAgree events := by
  constructor
  · rintro stay before fingerprint now lease response later completion outcome rfl member
    obtain ⟨first, second, rfl⟩ := List.append_of_mem member
    obtain ⟨cell, toCell, rest⟩ := run_append_iff.mp run
    obtain ⟨following, begun, rest⟩ := run_cons_iff.mp rest
    obtain ⟨earlier, toEarlier, rest⟩ := run_append_iff.mp rest
    obtain ⟨later, taken, -⟩ := run_cons_iff.mp rest
    -- the record has the replayed response before the completion and after it
    have reached := run_append_iff.mpr ⟨cell, toCell, Machine.Run.step begun toEarlier⟩
    have held : Completed fingerprint response earlier := stay.completed shows reached
    have split : first ++ (.complete fingerprint completion, outcome) :: second =
        (first ++ [(.complete fingerprint completion, outcome)]) ++ second := by simp
    rw [split] at stay
    have further := run_append_iff.mpr
      ⟨earlier, toEarlier, Machine.Run.step taken (.done later)⟩
    have kept : Completed fingerprint response later := stay.completed shows
      (run_append_iff.mpr ⟨cell, toCell, Machine.Run.step begun further⟩)
    obtain ⟨rfl, -⟩ := cells_step_iff.mp taken
    obtain ⟨_, rfl⟩ := held
    obtain ⟨_, same⟩ := kept
    rw [Cell.call, Cell.complete, if_neg (not_not_intro rfl)] at same
    cases same
    rfl
  · rintro agree before fingerprint now lease response middle after _ _ _ _ _
      rfl reached taken
    obtain ⟨_, rfl⟩ := cells_step_iff.mp taken
    obtain ⟨_, -, rest⟩ := run_append_iff.mp reached
    obtain ⟨_, begun, rest⟩ := run_cons_iff.mp rest
    obtain ⟨rfl, answered⟩ := cells_step_iff.mp begun
    have completed := (answer_replay_iff shows).mp answered
    refine (answer_replay_iff shows).mpr (run_of_completed rest ?_ ?_)
    · exact call_of_completed completed _ fun _ same => by cases same
    · intro completion outcome member
      exact agree before fingerprint now lease response (middle ++ after) completion outcome rfl
        (List.mem_append_left after member)

/-! ## The stores -/

/-- The calls on one scope and key of the store in memory. -/
def memoryAt (Response : Type u) (scope key : String) :
    Machine (InMemoryStore Response) (Call Response) (Answer Response) where
  step store call := some (store.call scope key call)

/-- The scripts on one key of Redis, which does not expire. -/
def scripts (server : RedisServer) (ttl : Nat) :
    Machine (Option RedisHash) (Call String) (Answer String) where
  step hash call := some ((runScript server ttl hash call).hash, (runScript server ttl hash call).reply)

/-- A machine that keeps more than a record keeps its replays when the record does. -/
theorem replaysStay_forget_iff {State Detailed : Type*}
    {machine : Machine State (Call Response) (Answer Response)}
    {detailed : Machine Detailed (Call Response) (Answer Response)} {forget : Detailed → State}
    (same : ∀ state call, machine.step (forget state) call =
      (detailed.step state call).map fun taken => (forget taken.1, taken.2))
    {start : Detailed} {events : List (Call Response × Answer Response)} :
    ReplaysStay detailed start events ↔ ReplaysStay machine (forget start) events := by
  constructor
  · intro stay before fingerprint now lease response middle after state now' lease' next answer
      split run taken
    obtain ⟨reached, detail, rfl⟩ := (run_forget_iff same).mp run
    rw [same] at taken
    obtain ⟨⟨following, _⟩, stepped, built⟩ := Option.map_eq_some_iff.mp taken
    cases built
    exact stay before fingerprint now lease response middle after reached now' lease' following _
      split detail stepped
  · intro stay before fingerprint now lease response middle after state now' lease' next answer
      split run taken
    have shown := (run_forget_iff same).mpr ⟨state, run, rfl⟩
    have stepped := same state (.begin fingerprint now' lease')
    rw [taken] at stepped
    exact stay before fingerprint now lease response middle after _ now' lease' _ answer split shown
      stepped

theorem memoryAt_cell (scope key : String) (store : InMemoryStore Response)
    (call : Call Response) :
    (cells Response untilEnd fun _ answer => answer).step (store.cell scope key) call =
      ((memoryAt Response scope key).step store call).map fun taken =>
        (InMemoryStore.cell taken.1 scope key, taken.2) := by
  simp only [cells, memoryAt, Option.map_some, ← InMemoryStore.call_cell]
  rfl

theorem scripts_cell (server : RedisServer) (ttl : Nat) (hash : Option RedisHash)
    (call : Call String) :
    (cells String server.untilEnd (server.shown ttl)).step (hash.map RedisHash.entry) call =
      ((scripts server ttl).step hash call).map fun taken =>
        (taken.1.map RedisHash.entry, taken.2) := by
  simp only [cells, scripts, Option.map_some, runScript_cell]

/-- A server that refuses the time to live answers with a response where the script does. -/
theorem shown_replays (server : RedisServer) (ttl : Nat) :
    ShowsReplays (server.shown ttl : Call Response → _) := by
  intro call answer response
  unfold RedisServer.shown
  split
  · rename_i refused
    constructor
    · intro same
      cases answer <;> cases same
    · rintro rfl
      cases call <;> contradiction
  · exact Iff.rfl

/-- In every run of calls on one scope and key, a response that was replayed is what every later
begin with its fingerprint is answered, if and only if no completion that follows the replay
brings another response for the fingerprint; in memory and for the scripts in Redis. -/
theorem replay_stable_iff (Response : Type u) :
    (∀ (scope key : String) (start final : InMemoryStore Response)
      (events : List (Call Response × Answer Response)),
      (memoryAt Response scope key).Run start events final →
        (ReplaysStay (memoryAt Response scope key) start events ↔ CompletionsAgree events)) ∧
    (∀ (server : RedisServer) (ttl : Nat) (start final : Option RedisHash)
      (events : List (Call String × Answer String)),
      (scripts server ttl).Run start events final →
        (ReplaysStay (scripts server ttl) start events ↔ CompletionsAgree events)) := by
  refine ⟨?_, ?_⟩
  · intro scope key start final events run
    have same : ∀ (store : InMemoryStore Response) call, _ := memoryAt_cell scope key
    rw [replaysStay_forget_iff same]
    exact cells_replaysStay_iff (fun _ _ _ => Iff.rfl) ((run_forget_iff same).mpr ⟨final, run, rfl⟩)
  · intro server ttl start final events run
    have same := scripts_cell server ttl
    rw [replaysStay_forget_iff same]
    exact cells_replaysStay_iff (shown_replays server ttl)
      ((run_forget_iff same).mpr ⟨final, run, rfl⟩)

/-! ### A worker that comes late -/

namespace LateWorker

/-- The first worker holds its lease from 100 to 110, the second one takes over and completes. -/
def calls (first second : String) : List (Call String) :=
  [.begin "body" 100 10, .begin "body" 110 10, .complete "body" second, .begin "body" 111 10,
    .complete "body" first, .begin "body" 112 10]

def replies (replay later : String) : List (Answer String) :=
  [.decided (.ok .execute), .decided (.ok .execute), .finished (.ok ()),
    .decided (.ok (.replay replay)), .finished (.ok ()), .decided (.ok (.replay later))]

end LateWorker

open LateWorker in
/-- A begin is answered with the response of the second worker, the first worker completes, and
the next begin is answered with the response of the first. -/
theorem late_completion_replaces_response :
    ((memoryAt String "orders" "key").exec (KeyedMap.empty _) (calls "one" "two")).map
        (fun run => run.2.map Prod.snd) = some (replies "two" "one") ∧
      ((scripts .exactIntegers 60000).exec none (calls "one" "two")).map
        (fun run => run.2.map Prod.snd) = some (replies "two" "one") := by
  decide +kernel

open LateWorker in
/-- Two workers that complete with one response. -/
theorem replay_stable_iff_same_response :
    ∃ events final, (memoryAt String "orders" "key").Run (KeyedMap.empty _) events final ∧
      events = (calls "one" "one").zip (replies "one" "one") ∧ CompletionsAgree events ∧
      ReplaysStay (memoryAt String "orders" "key") (KeyedMap.empty _) events := by
  have checked : ((memoryAt String "orders" "key").exec (KeyedMap.empty _) (calls "one" "one")).map
      Prod.snd = some ((calls "one" "one").zip (replies "one" "one")) := by decide +kernel
  obtain ⟨events, final, run, _, listed⟩ := exec_observed checked
  change events = _ at listed
  have agree : CompletionsAgree events := by
    intro before fingerprint now lease response later completion outcome split member
    have begun : replayed fingerprint now lease response ∈ events := by simp [split]
    have completed : (Call.complete fingerprint completion, outcome) ∈ events := by
      simp [split, member]
    have replay : response = "one" := by
      simp [listed, calls, replies, replayed] at begun
      grind
    have same : completion = "one" := by
      simp [listed, calls, replies] at completed
      grind
    rw [same, replay]
  exact ⟨events, final, run, listed, agree,
    ((replay_stable_iff String).1 _ _ _ _ _ run).mpr agree⟩

end Roze.Idempotency
