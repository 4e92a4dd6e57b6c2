import Roze.Library.ProcessPool

/-!
# Calls that share one load

The first caller of a key loads the value; the others wait for its notification and then take its
result. A caller decides under the lock of the entry whether it loads or waits, and registers for
the notification after that. The loader reports the result and notifies under the lock. A caller
can go away where it awaits: in the loader, or in its wait.
-/

namespace Roze.Singleflight

open Roze.Library

/-- The entry of a key. The notifications are counted; one wakes the callers that registered before
it. -/
structure FlightEntry (Kind Value : Type) where
  running : Bool
  result : Option (Except String (Kind × Value))
  notified : Nat
  locked : Bool

namespace FlightEntry

def new {Kind Value : Type} : FlightEntry Kind Value := ⟨false, none, 0, false⟩

end FlightEntry

/-- The entries that have been made for one key, by number, and the one that is in the map. -/
structure SingleFlightGroup (Kind Value : Type) where
  entries : Nat → FlightEntry Kind Value
  made : Nat
  current : Option Nat

namespace SingleFlightGroup

variable {Kind Value : Type}

def new : SingleFlightGroup Kind Value := ⟨fun _ => .new, 0, none⟩

/-- The entry of the map, made when there is none. -/
def entryFor (group : SingleFlightGroup Kind Value) : SingleFlightGroup Kind Value × Nat :=
  match group.current with
  | some entry => (group, entry)
  | none => ({ group with made := group.made + 1, current := some group.made }, group.made)

theorem entries_entryFor (group : SingleFlightGroup Kind Value) :
    group.entryFor.1.entries = group.entries := by
  rw [entryFor]
  split <;> rfl

def set (group : SingleFlightGroup Kind Value) (place : Nat) (entry : FlightEntry Kind Value) :
    SingleFlightGroup Kind Value :=
  { group with entries := Function.update group.entries place entry }

theorem entries_set_self (group : SingleFlightGroup Kind Value) (place : Nat)
    (entry : FlightEntry Kind Value) : (group.set place entry).entries place = entry := by
  simp [set]

theorem entries_set_of_ne (group : SingleFlightGroup Kind Value) {place other : Nat}
    (different : other ≠ place) (entry : FlightEntry Kind Value) :
    (group.set place entry).entries other = group.entries other := by
  simp [set, different]

end SingleFlightGroup

open SingleFlightGroup

/-- A caller of `do_call`, by what it does next, and a caller of `reset`. The kind is the type that
it asks for; the loader is consumed when it has run. -/
inductive Caller (Kind : Type) where
  | entering (kind : Kind)
  | looping (kind : Kind) (entry : Nat) (loader : Bool)
  | loading (kind : Kind) (entry : Nat)
  | publishing (kind : Kind) (entry : Nat)
  | deciding (kind : Kind) (entry : Nat)
  | waiting (kind : Kind) (entry : Nat) (seen : Nat)
  | resetting
  | gone
deriving DecidableEq

inductive CallerAction (Value : Type) where
  | proceed
  | loaded (output : Except String Value)
  | drop

namespace Caller

variable {Kind Value : Type}

/-- The result for a caller that asks for one kind. -/
def answer [DecidableEq Kind] (kind : Kind) : Except String (Kind × Value) → Except String Value
  | .ok (stored, value) => if stored = kind then .ok value else .error "singleflight type mismatch"
  | .error error => .error error

/-- The decision under the lock. -/
def lockSection [DecidableEq Kind] (group : SingleFlightGroup Kind Value) (kind : Kind) (entry : Nat)
    (loader : Bool) :
    SingleFlightGroup Kind Value × Caller Kind × Option (Except String Value) :=
  let state := group.entries entry
  match state.result with
  | some result => (group, .gone, some (answer kind result))
  | none =>
      if state.running then (group, .deciding kind entry, none)
      else
        -- without a loader the call panics, with the entry marked as running
        (group.set entry { state with running := true },
          if loader then .loading kind entry else .gone, none)

def step [DecidableEq Kind] (group : SingleFlightGroup Kind Value) : Caller Kind → CallerAction Value →
    Option (SingleFlightGroup Kind Value × Caller Kind × Option (Except String Value))
  | .entering kind, .proceed =>
      let (group, entry) := group.entryFor
      some (group, .looping kind entry true, none)
  | .looping kind entry loader, .proceed =>
      if (group.entries entry).locked then none else some (lockSection group kind entry loader)
  | .loading kind entry, .loaded output =>
      let state := group.entries entry
      if state.locked then none
      else
        some (group.set entry
          { state with result := some (output.map (kind, ·)), running := false, locked := true },
          .publishing kind entry, none)
  | .publishing kind entry, .proceed =>
      let state := group.entries entry
      some (group.set entry { state with notified := state.notified + 1, locked := false },
        .looping kind entry false, none)
  | .deciding kind entry, .proceed =>
      some (group, .waiting kind entry (group.entries entry).notified, none)
  | .waiting kind entry seen, .proceed =>
      if (group.entries entry).notified = seen then none
      else some (group, .looping kind entry true, none)
  | .resetting, .proceed => some ({ group with current := none }, .gone, none)
  | .loading _ _, .drop => some (group, .gone, none)
  | .waiting _ _ _, .drop => some (group, .gone, none)
  | .entering _, .drop => some (group, .gone, none)
  | _, _ => none

/-- The kind that a caller asks for. -/
def kind? : Caller Kind → Option Kind
  | .entering kind | .looping kind _ _ | .loading kind _ | .publishing kind _ | .deciding kind _
  | .waiting kind _ _ => some kind
  | .resetting | .gone => none

/-- The entry that a caller blocks on. -/
def blockedOn (group : SingleFlightGroup Kind Value) : Caller Kind → Option Nat
  | .waiting _ entry seen => if (group.entries entry).notified = seen then some entry else none
  | _ => none

/-- The entry that a caller loads, up to the notification. -/
def executes : Caller Kind → Option Nat
  | .loading _ entry => some entry
  | .publishing _ entry => some entry
  | _ => none

/-- The entry that a caller waits for, from its decision on. -/
def awaits (group : SingleFlightGroup Kind Value) : Caller Kind → Option Nat
  | .deciding _ entry => some entry
  | caller => caller.blockedOn group

/-- The caller goes away in the loader. -/
def abandons : Caller Kind → CallerAction Value → Bool
  | .loading _ _, .drop => true
  | _, _ => false

/-- What a caller does in a step, by where it is. -/
inductive Moves [DecidableEq Kind] (group : SingleFlightGroup Kind Value) : Caller Kind →
    CallerAction Value → SingleFlightGroup Kind Value → Caller Kind → Option (Except String Value) → Prop
  | enter (kind : Kind) : Moves group (.entering kind) .proceed group.entryFor.1
      (.looping kind group.entryFor.2 true) none
  | take {kind : Kind} {entry : Nat} {loader : Bool} {result : Except String (Kind × Value)} :
      Moves group (.looping kind entry loader) .proceed group .gone (some (answer kind result))
  | follow {kind : Kind} {entry : Nat} {loader : Bool} (running : (group.entries entry).running = true) :
      Moves group (.looping kind entry loader) .proceed group (.deciding kind entry) none
  | lead {kind : Kind} {entry : Nat} {loader : Bool} (unset : (group.entries entry).result = none)
      (stopped : (group.entries entry).running = false) :
      Moves group (.looping kind entry loader) .proceed
        (group.set entry { group.entries entry with running := true })
        (if loader then .loading kind entry else .gone) none
  | report {kind : Kind} {entry : Nat} (output : Except String Value) :
      Moves group (.loading kind entry) (.loaded output)
        (group.set entry { group.entries entry with
          result := some (output.map (kind, ·)), running := false, locked := true })
        (.publishing kind entry) none
  | notify {kind : Kind} {entry : Nat} : Moves group (.publishing kind entry) .proceed
      (group.set entry { group.entries entry with
        notified := (group.entries entry).notified + 1, locked := false })
      (.looping kind entry false) none
  | register {kind : Kind} {entry : Nat} : Moves group (.deciding kind entry) .proceed group
      (.waiting kind entry (group.entries entry).notified) none
  | wake {kind : Kind} {entry seen : Nat} (woken : (group.entries entry).notified ≠ seen) :
      Moves group (.waiting kind entry seen) .proceed group (.looping kind entry true) none
  | reset : Moves group .resetting .proceed { group with current := none } .gone none
  | leave {caller : Caller Kind} (idle : caller.executes = none ∨ caller.abandons (.drop : CallerAction Value) = true) :
      Moves group caller .drop group .gone none

theorem step_moves [DecidableEq Kind] {group group' : SingleFlightGroup Kind Value}
    {caller after : Caller Kind} {move : CallerAction Value} {output : Option (Except String Value)}
    (taken : caller.step group move = some (group', after, output)) :
    Moves group caller move group' after output := by
  cases caller with
  | looping kind entry =>
    cases move with
    | proceed =>
      obtain ⟨_, taken⟩ := Option.ite_none_left_eq_some.mp taken
      cases result : (group.entries entry).result with
      | some =>
        simp only [lockSection, result] at taken
        cases taken
        exact .take
      | none =>
        cases running : (group.entries entry).running with
        | true =>
          simp only [lockSection, result, running, if_true] at taken
          cases taken
          exact .follow running
        | false =>
          simp only [lockSection, result, running, Bool.false_eq_true, if_false] at taken
          cases taken
          simpa only [result] using Moves.lead result running
    | _ => cases taken
  | entering kind =>
    cases move with
    | proceed =>
      cases taken
      exact .enter kind
    | drop =>
      cases taken
      exact .leave (.inl rfl)
    | loaded => cases taken
  | loading =>
    cases move with
    | proceed => cases taken
    | drop =>
      cases taken
      exact .leave (.inr rfl)
    | loaded result =>
      obtain ⟨_, built⟩ := of_unless taken
      cases built
      exact .report result
  | waiting =>
    cases move with
    | proceed =>
      obtain ⟨woken, built⟩ := of_unless taken
      cases built
      exact .wake woken
    | drop =>
      cases taken
      exact .leave (.inl rfl)
    | loaded => cases taken
  | publishing => cases move <;> cases taken; exact .notify
  | deciding => cases move <;> cases taken; exact .register
  | resetting => cases move <;> cases taken; exact .reset
  | gone => cases move <;> cases taken

/-- A caller keeps its kind as long as it is there, and reports what it loaded under it. -/
theorem Moves.kind [DecidableEq Kind] {group group' : SingleFlightGroup Kind Value} {caller after : Caller Kind}
    {move : CallerAction Value} {output : Option (Except String Value)}
    (moved : Moves group caller move group' after output) :
    (∀ kind, after.kind? = some kind → caller.kind? = some kind) ∧
      ∀ entry stored value, (group'.entries entry).result = some (.ok (stored, value)) →
        (group.entries entry).result = some (.ok (stored, value)) ∨ caller.kind? = some stored := by
  have changed {place : Nat} {state : FlightEntry Kind Value}
      (kept : state.result = (group.entries place).result) (entry : Nat) :
      ((group.set place state).entries entry).result = (group.entries entry).result := by
    by_cases same : entry = place
    · rw [same, entries_set_self, kept]
    · rw [entries_set_of_ne _ same]
  cases moved with
  | enter =>
    rw [group.entries_entryFor]
    exact ⟨fun _ => id, fun _ _ _ => .inl⟩
  | @lead kind entry loader unset stopped =>
    refine ⟨fun asked same => ?_, fun place stored value found =>
      .inl ((changed (by rfl) place).symm.trans found)⟩
    cases loader with
    | true => exact same
    | false => cases same
  | @report kind entry result =>
    refine ⟨fun _ => id, fun place stored value found => ?_⟩
    by_cases same : place = entry
    · subst same
      rw [entries_set_self] at found
      cases result with
      | error => cases found
      | ok =>
        cases found
        exact .inr rfl
    · rw [entries_set_of_ne _ same] at found
      exact .inl found
  | notify =>
    exact ⟨fun _ => id, fun place _ _ found => .inl ((changed (by rfl) place).symm.trans found)⟩
  | follow | register | wake => exact ⟨fun _ => id, fun _ _ _ => .inl⟩
  | take | reset | leave => exact ⟨nofun, fun _ _ _ => .inl⟩

/-- The caller notifies, while another one has decided to wait and has not registered. -/
def outpaces (others : List (Caller Kind)) : Caller Kind → CallerAction Value → Bool
  | .publishing _ entry, .proceed => others.any (fun
      | .deciding _ waited => waited = entry
      | _ => false)
  | _, _ => false

end Caller

variable {Kind Value : Type}

/-- Any number of calls on one key. -/
def calls [DecidableEq Kind] : Process (SingleFlightGroup Kind Value) (Caller Kind) (CallerAction Value)
    (Option (Except String Value)) where
  initial
    | .entering _ | .resetting => true
    | _ => false
  step := Caller.step

/-- Whoever is blocked has somebody who loads. -/
def Attended (pool : Pool (SingleFlightGroup Kind Value) (Caller Kind)) : Prop :=
  ∀ caller ∈ pool.locals, ∀ entry, caller.blockedOn pool.shared = some entry →
    ∃ other ∈ pool.locals, other.executes = some entry

/-- The step neither abandons a load nor notifies before a caller that waits has registered. -/
def careful (pool : Pool (SingleFlightGroup Kind Value) (Caller Kind)) :
    PoolAction (Caller Kind) (CallerAction Value) → Bool
  | .spawn _ => true
  | .act index move => (pool.locals[index]?).all (fun caller =>
      !caller.abandons move && !caller.outpaces pool.locals move)

/-! ## Steps -/

/-- What a caller relies on: a registration is not ahead of the notifications, and what a caller
loaded is in the entry. -/
def Caller.Relies (group : SingleFlightGroup Kind Value) : Caller Kind → Prop
  | .waiting _ entry seen => seen ≤ (group.entries entry).notified
  | .publishing _ entry =>
      (group.entries entry).running = false ∧ (group.entries entry).result.isSome
  | .looping _ entry false => (group.entries entry).result.isSome
  | _ => True

/-- What holds as long as the steps are careful. Whoever waits, and whatever is marked as running,
has somebody who loads, and each caller has what it relies on. -/
structure Anchored (pool : Pool (SingleFlightGroup Kind Value) (Caller Kind)) : Prop where
  awaited : ∀ caller ∈ pool.locals, ∀ entry, caller.awaits pool.shared = some entry →
    ∃ other ∈ pool.locals, other.executes = some entry
  running : ∀ entry, (pool.shared.entries entry).running = true →
    ∃ other ∈ pool.locals, other.executes = some entry
  relies : pool.All (Caller.Relies pool.shared)

/-- What is kept is more than what is wanted. -/
theorem Anchored.attended {pool : Pool (SingleFlightGroup Kind Value) (Caller Kind)}
    (anchored : Anchored pool) : Attended pool := by
  intro caller member entry blocked
  cases caller with
  | waiting => exact anchored.awaited _ member entry blocked
  | _ => cases blocked

section Steps

variable {pool : Pool (SingleFlightGroup Kind Value) (Caller Kind)} {index : Nat}
  {current after : Caller Kind} {shared : SingleFlightGroup Kind Value}

/-- A step that leaves the entries as they are. -/
theorem Anchored.quiet (anchored : Anchored pool) (found : pool.locals[index]? = some current)
    (same : shared.entries = pool.shared.entries) (idle : current.executes = none)
    (awaited : ∀ entry, after.awaits pool.shared = some entry →
      ∃ other ∈ pool.locals, other.executes = some entry)
    (relies : after.Relies pool.shared) : Anchored ⟨shared, pool.locals.set index after⟩ := by
  have awaits (caller : Caller Kind) : caller.awaits shared = caller.awaits pool.shared := by
    cases caller <;> simp only [Caller.awaits, Caller.blockedOn, same]
  have goesOn {entry : Nat} (loads : ∃ other ∈ pool.locals, other.executes = some entry) :
      ∃ other ∈ pool.locals.set index after, other.executes = some entry := by
    refine Process.exists_mem_set found (fun loading => ?_) loads
    simp_all
  refine ⟨fun caller member entry waits => ?_, fun entry running => ?_, fun caller member => ?_⟩
  · rw [awaits] at waits
    rcases List.mem_or_eq_of_mem_set member with old | rfl
    · exact goesOn (anchored.awaited caller old entry waits)
    · exact goesOn (awaited entry waits)
  · rw [same] at running
    exact goesOn (anchored.running entry running)
  · have unchanged : caller.Relies shared = caller.Relies pool.shared := by
      unfold Caller.Relies
      rw [same]
    rw [unchanged]
    rcases List.mem_or_eq_of_mem_set member with old | rfl
    · exact anchored.relies caller old
    · exact relies

theorem awaits_waiting_iff {group : SingleFlightGroup Kind Value} {kind : Kind} {waited seen entry : Nat} :
    (Caller.waiting kind waited seen).awaits group = some entry ↔
      waited = entry ∧ (group.entries entry).notified = seen := by
  simp only [Caller.awaits, Caller.blockedOn]
  grind

theorem awaits_set_of_ne {group : SingleFlightGroup Kind Value} {place entry : Nat}
    {state : FlightEntry Kind Value} {caller : Caller Kind} (other : entry ≠ place)
    (waits : caller.awaits (group.set place state) = some entry) : caller.awaits group = some entry := by
  cases caller with
  | waiting =>
    obtain ⟨same, registered⟩ := awaits_waiting_iff.mp waits
    rw [entries_set_of_ne group other] at registered
    exact awaits_waiting_iff.mpr ⟨same, registered⟩
  | _ => exact waits

/-- An entry that forgets nothing is as good as the one before it. -/
theorem relies_set {group : SingleFlightGroup Kind Value} {place : Nat}
    {state : FlightEntry Kind Value} {caller : Caller Kind}
    (grows : (group.entries place).notified ≤ state.notified)
    (remembers : (group.entries place).result.isSome → state.result.isSome)
    (stopped : ∀ kind, caller = .publishing kind place → state.running = false)
    (relies : caller.Relies group) : caller.Relies (group.set place state) := by
  have result {entry : Nat} (stored : (group.entries entry).result.isSome) :
      ((group.set place state).entries entry).result.isSome := by
    by_cases same : entry = place
    · subst same
      rw [entries_set_self]
      exact remembers stored
    · rwa [entries_set_of_ne _ same]
  cases caller with
  | waiting kind entry =>
    rw [Caller.Relies] at relies ⊢
    by_cases same : entry = place
    · subst same
      rw [entries_set_self]
      exact relies.trans grows
    · rwa [entries_set_of_ne _ same]
  | publishing kind entry =>
    refine ⟨?_, result relies.2⟩
    by_cases same : entry = place
    · subst same
      rw [entries_set_self]
      exact stopped kind rfl
    · rw [entries_set_of_ne _ same]
      exact relies.1
  | looping kind entry loader =>
    cases loader with
    | true => trivial
    | false => exact result relies
  | _ => trivial

/-- A step that changes one entry. Either its caller loads that entry after it, or nobody waits for
the entry. -/
theorem Anchored.set {place : Nat} {state : FlightEntry Kind Value} (anchored : Anchored pool)
    (found : pool.locals[index]? = some current)
    (own : ∀ entry, current.executes = some entry → entry = place)
    (idle : ∀ entry, after.awaits (pool.shared.set place state) ≠ some entry)
    (attended : after.executes = some place ∨ (state.running = false ∧
      ∀ caller ∈ pool.locals, caller.awaits (pool.shared.set place state) ≠ some place))
    (grows : (pool.shared.entries place).notified ≤ state.notified)
    (remembers : (pool.shared.entries place).result.isSome → state.result.isSome)
    (published : (∃ kind, .publishing kind place ∈ pool.locals) → state.running = false)
    (relies : after.Relies (pool.shared.set place state)) :
    Anchored ⟨pool.shared.set place state, pool.locals.set index after⟩ := by
  have self : after ∈ pool.locals.set index after :=
    List.mem_set (List.getElem?_eq_some_iff.mp found).1 after
  have goesOn {entry : Nat} (other : entry ≠ place)
      (loads : ∃ other ∈ pool.locals, other.executes = some entry) :
      ∃ other ∈ pool.locals.set index after, other.executes = some entry :=
    Process.exists_mem_set found (fun loading => absurd (own entry loading) other) loads
  refine ⟨fun caller member entry waits => ?_, fun entry running => ?_, fun caller member => ?_⟩
  · rcases List.mem_or_eq_of_mem_set member with old | rfl
    · by_cases same : entry = place
      · subst same
        rcases attended with loads | ⟨-, none⟩
        · exact ⟨after, self, loads⟩
        · exact absurd waits (none caller old)
      · exact goesOn same (anchored.awaited caller old entry (awaits_set_of_ne same waits))
    · exact absurd waits (idle entry)
  · by_cases same : entry = place
    · subst same
      rw [entries_set_self] at running
      rcases attended with loads | ⟨stopped, -⟩
      · exact ⟨after, self, loads⟩
      · rw [stopped] at running
        cases running
    · rw [entries_set_of_ne _ same] at running
      exact goesOn same (anchored.running entry running)
  · rcases List.mem_or_eq_of_mem_set member with old | rfl
    · exact relies_set grows remembers (fun kind same => published ⟨kind, same ▸ old⟩)
        (anchored.relies caller old)
    · exact relies

variable [DecidableEq Kind]

/-- A careful step keeps what holds.

Proof: by cases on what the caller does next. Only a notification ends the execution of a load, and
then nobody has decided to wait without being registered, and who registered before is woken. -/
theorem Anchored.acted {move : CallerAction Value} {output : Option (Except String Value)}
    (anchored : Anchored pool) (found : pool.locals[index]? = some current)
    (taken : current.step pool.shared move = some (shared, after, output))
    (kept : current.abandons move = false) (paced : current.outpaces pool.locals move = false) :
    Anchored ⟨shared, pool.locals.set index after⟩ := by
  have member : current ∈ pool.locals := List.mem_of_getElem? found
  cases Caller.step_moves taken with
  | enter => exact anchored.quiet found pool.shared.entries_entryFor rfl nofun trivial
  | take | wake | reset => exact anchored.quiet found rfl rfl nofun trivial
  | leave idle =>
    rw [kept] at idle
    exact anchored.quiet found rfl (idle.resolve_right Bool.false_ne_true) nofun trivial
  | follow running =>
    refine anchored.quiet found rfl rfl (fun waited waits => ?_) trivial
    cases waits
    exact anchored.running _ running
  | @lead kind entry loader unset stopped =>
    have unstored : ¬ (pool.shared.entries entry).result.isSome := by simp_all
    -- a caller that has run its loader finds a result
    cases loader with
    | false => exact absurd (anchored.relies _ member) unstored
    | true =>
      exact anchored.set found nofun nofun (.inl rfl) le_rfl (absurd · unstored)
        (fun ⟨kind, publishing⟩ => absurd (anchored.relies _ publishing).2 unstored) trivial
  | report =>
    refine anchored.set found (fun waited same => ?_) nofun (.inl rfl) le_rfl (fun _ => rfl)
      (fun _ => rfl) ?_
    · cases same
      rfl
    · rw [Caller.Relies, entries_set_self]
      exact ⟨rfl, rfl⟩
  | @notify kind entry =>
    obtain ⟨stopped, stored⟩ := anchored.relies _ member
    refine anchored.set found (fun waited same => ?_) nofun (.inr ⟨stopped, ?_⟩) (Nat.le_succ _)
      id (fun _ => stopped) ?_
    · cases same
      rfl
    · intro caller old waits
      cases caller with
      | deciding kind' waited =>
        cases waits
        have early : pool.locals.any (fun
            | .deciding _ waited => waited = entry
            | _ => false) = true := List.any_eq_true.mpr ⟨_, old, decide_eq_true rfl⟩
        exact absurd (early.symm.trans paced) (by decide)
      | waiting kind' waited seen =>
        obtain ⟨rfl, registered⟩ := awaits_waiting_iff.mp waits
        rw [entries_set_self] at registered
        have before : seen ≤ (pool.shared.entries waited).notified := anchored.relies _ old
        dsimp only at registered
        omega
      | _ => cases waits
    · rw [Caller.Relies, entries_set_self]
      exact stored
  | register =>
    refine anchored.quiet found rfl rfl (fun waited waits => ?_) le_rfl
    obtain ⟨rfl, _⟩ := awaits_waiting_iff.mp waits
    exact anchored.awaited _ member _ rfl

end Steps

/-! ## Runs -/

section Runs

variable [DecidableEq Kind]

theorem Anchored.spawned {pool : Pool (SingleFlightGroup Kind Value) (Caller Kind)}
    (anchored : Anchored pool) {start : Caller Kind}
    (initial : (calls : Process _ _ (CallerAction Value) _).initial start = true) :
    Anchored { pool with locals := pool.locals ++ [start] } := by
  obtain ⟨idle, relies⟩ : (∀ entry, start.awaits pool.shared ≠ some entry) ∧
      start.Relies pool.shared := by
    cases start with
    | entering | resetting => exact ⟨nofun, trivial⟩
    | _ => cases initial
  have goesOn {entry : Nat} (loads : ∃ other ∈ pool.locals, other.executes = some entry) :
      ∃ other ∈ pool.locals ++ [start], other.executes = some entry := by simp_all
  have old {caller : Caller Kind} (member : caller ∈ pool.locals ++ [start]) :
      caller ∈ pool.locals ∨ caller = start := by
    simpa using member
  refine ⟨fun caller member entry waits => ?_, fun entry running => goesOn (anchored.running entry running),
    fun caller member => ?_⟩
  · rcases old member with before | rfl
    · exact goesOn (anchored.awaited caller before entry waits)
    · exact absurd waits (idle entry)
  · rcases old member with before | rfl
    · exact anchored.relies caller before
    · exact relies

theorem Anchored.step {pool next : Pool (SingleFlightGroup Kind Value) (Caller Kind)}
    {action : PoolAction (Caller Kind) (CallerAction Value)} {output : Option (Option (Except String Value))}
    (anchored : Anchored pool) (taken : calls.pool.step pool action = some (next, output))
    (cared : careful pool action = true) : Anchored next := by
  rcases Process.pool_step taken with ⟨_, rfl, initial, rfl, rfl⟩ |
    ⟨index, move, current, shared, after, result, rfl, found, stepped, rfl, rfl⟩
  · exact anchored.spawned initial
  · simp only [careful, found, Option.all_some, Bool.and_eq_true, Bool.not_eq_true'] at cared
    exact anchored.acted found stepped cared.1 cared.2

/-- When no caller goes away in the loader, and no notification is sent while a caller that decided
to wait has not registered, whoever is blocked has somebody who loads, in every state of the run. -/
theorem callers_attended
    {events : List (PoolAction (Caller Kind) (CallerAction Value) × Option (Option (Except String Value)))}
    (cared : calls.pool.Along (fun pool action _ _ => careful pool action = true) (.empty .new) events) :
    calls.pool.Throughout Attended (.empty .new) events := by
  intro before after state split run
  rw [split] at cared
  have initial : Anchored (.empty .new : Pool (SingleFlightGroup Kind Value) (Caller Kind)) :=
    ⟨nofun, nofun, nofun⟩
  have anchored : Anchored state := run.invariant_along cared.first initial
    fun _ _ _ _ anchored taken cared => anchored.step taken cared
  exact anchored.attended

end Runs

namespace Stranded

/-- Two callers; the first one loads, and the second one has decided to wait. -/
def opening : List (PoolAction (Caller Unit) (CallerAction Nat)) :=
  [.spawn (.entering ()), .act 0 .proceed, .act 0 .proceed, .spawn (.entering ()), .act 1 .proceed,
    .act 1 .proceed]

/-- The second caller registers, and the first one goes away in the loader. -/
def abandoned : List (PoolAction (Caller Unit) (CallerAction Nat)) :=
  opening ++ [.act 1 .proceed, .act 0 .drop]

/-- The first caller loads and notifies before the second one registers. -/
def outpaced : List (PoolAction (Caller Unit) (CallerAction Nat)) :=
  opening ++ [.act 0 (.loaded (.ok 42)), .act 0 .proceed, .act 0 .proceed, .act 1 .proceed]

/-- The first caller loads and notifies after the second one has registered. -/
def served : List (PoolAction (Caller Unit) (CallerAction Nat)) :=
  opening ++ [.act 1 .proceed, .act 0 (.loaded (.ok 42)), .act 0 .proceed, .act 0 .proceed,
    .act 1 .proceed, .act 1 .proceed]

/-- What the callers block on and what they load after some steps, and what is still in the entry. -/
def outcome (actions : List (PoolAction (Caller Unit) (CallerAction Nat))) :
    Option (List (Option Nat) × List (Option Nat) × Bool) :=
  (calls.pool.exec (.empty .new) actions).map (fun run =>
    (run.1.locals.map (Caller.blockedOn run.1.shared), run.1.locals.map Caller.executes,
      (run.1.shared.entries 0).running))

end Stranded

/-- Either way the second caller is blocked and nobody loads. -/
theorem waiters_stranded :
    Stranded.outcome Stranded.abandoned = some ([none, some 0], [none, none], true) ∧
      Stranded.outcome Stranded.outpaced = some ([none, some 0], [none, none], false) := by
  decide +kernel

theorem callers_attended_served :
    ∃ final events, calls.pool.exec (.empty .new) Stranded.served = some (final, events) ∧
      final.locals = [.gone, .gone] ∧
      calls.pool.Throughout Attended (.empty .new) events := by
  have last : (calls.pool.exec (.empty .new) Stranded.served).map (fun run => run.1.locals) =
      some [.gone, .gone] := by
    decide +kernel
  obtain ⟨⟨final, events⟩, executed, gone⟩ := Option.map_eq_some_iff.mp last
  exact ⟨final, events, executed, gone,
    callers_attended (Machine.along_of_checks executed (by decide +kernel))⟩

end Roze.Singleflight
