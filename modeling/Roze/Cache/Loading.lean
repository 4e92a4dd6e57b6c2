import Roze.Library.Clock
import Roze.Library.MachineInteger
import Roze.Singleflight.Group

/-!
# Loads through the cache

A call reads the key from Redis and, on a miss, joins the flight of the key. The caller that leads
the flight runs the loader and writes what it loaded to Redis. Every caller, whether it led or
followed, removes the entry of the key when its flight is over, and it removes whatever entry is in
the map by then. Both kinds of calls share the flights and the key in Redis.

The texts in Redis expire at any time, and Redis may fail.
-/

namespace Roze.Cache

open Roze.Library Roze.Singleflight List

/-- The type of what a flight returns, for a type of values: `Option<T>` or `CacheRead<T>`. -/
inductive FlightType (Ty : Type) where
  | option (ty : Ty)
  | cacheRead (ty : Ty)
deriving DecidableEq

inductive CachedEnvelope (Value : Type) where
  | value (value : Value)
  | missing
deriving DecidableEq

def CachedEnvelope.toOption {Value : Type} : CachedEnvelope Value → Option Value
  | .value held => some held
  | .missing => none

inductive CacheFreshness where
  | fresh
  | loaded
  | stale
deriving DecidableEq

structure CacheRead (Value : Type) where
  value : Option Value
  freshness : CacheFreshness
deriving DecidableEq

structure CacheConsistencyPolicy where
  freshTtl : Duration
  negativeTtl : Duration
  staleOnError : Bool
deriving DecidableEq

structure ConsistencyEnvelope (Value : Type) where
  value : Option Value
  freshUntilMillis : UInt64
deriving DecidableEq

def ConsistencyEnvelope.isFresh {Value : Type} (envelope : ConsistencyEnvelope Value)
    (nowMillis : UInt64) : Bool :=
  nowMillis < envelope.freshUntilMillis

/-- What a flight returns. -/
inductive Loaded (Value : Type) where
  | option (value : Option Value)
  | cacheRead (read : CacheRead Value)
deriving DecidableEq

/-- The texts of the envelopes. A type reads back what it wrote; what it makes of another text is
left open. -/
structure Serde (Ty Text Value : Type) where
  cachedText : Ty → CachedEnvelope Value → Text
  cachedOf : Ty → Text → Except String (CachedEnvelope Value)
  consistencyText : Ty → ConsistencyEnvelope Value → Text
  consistencyOf : Ty → Text → Except String (ConsistencyEnvelope Value)
  cached : ∀ ty envelope, cachedOf ty (cachedText ty envelope) = .ok envelope
  consistency : ∀ ty envelope, consistencyOf ty (consistencyText ty envelope) = .ok envelope

/-- A call: `get_or_set_json_option`, or `get_or_load_consistent_option` with the time at which it
began. -/
inductive Request (Ty : Type) where
  | option (ty : Ty)
  | consistent (ty : Ty) (policy : CacheConsistencyPolicy) (nowMillis : UInt64)
deriving DecidableEq

def Request.flightType {Ty : Type} : Request Ty → FlightType Ty
  | .option ty => .option ty
  | .consistent ty _ _ => .cacheRead ty

/-- Where the caller that leads a flight is. -/
inductive Stage (Value : Type) where
  | rereading
  | starting
  | running
  | storing (value : Option Value)
  | ready (output : Except String (Loaded Value))

/-- Only `get_or_set_json_option` reads Redis once more before it loads. -/
def Request.firstStage {Ty Value : Type} : Request Ty → Stage Value
  | .option _ => .rereading
  | .consistent _ _ _ => .starting

/-- Redis at the key, and the flights of the key. -/
structure RedisCache (Ty Text Value : Type) where
  redis : Option Text
  flights : SingleFlightGroup (FlightType Ty) (Loaded Value)

/-- A call by what it does next, and the end of the lifetime of the text in Redis. -/
inductive Task (Ty Value : Type) where
  | reading (request : Request Ty)
  | flying (request : Request Ty) (cached : Option (ConsistencyEnvelope Value))
      (caller : Caller (FlightType Ty))
  | loading (request : Request Ty) (cached : Option (ConsistencyEnvelope Value)) (entry : Nat)
      (stage : Stage Value)
  | resetting (result : Except String (Loaded Value))
  | expiring
  | gone

inductive TaskAction (Value : Type) where
  | proceed
  | failed (error : String)
  | loaded (output : Except String (Option Value))
  | drop

/-- What a call returns, when it ends. -/
abbrev Answer (Value : Type) := Option (Except String (Loaded Value))

section Steps

variable {Ty Text Value : Type}

/-- A text can be read by a call for a type. -/
def Serde.readable (serde : Serde Ty Text Value) : FlightType Ty → Text → Bool
  | .option ty, text => (serde.cachedOf ty text).isOk
  | .cacheRead ty, text => (serde.consistencyOf ty text).isOk

/-- The read before the flight. -/
def Request.read (serde : Serde Ty Text Value) (request : Request Ty) (redis : Option Text) :
    Task Ty Value × Answer Value :=
  match redis with
  | none => (.flying request none (.entering request.flightType), none)
  | some text =>
      match request with
      | .option ty =>
          (.gone, some ((serde.cachedOf ty text).map (fun envelope => .option envelope.toOption)))
      | .consistent ty _ nowMillis =>
          match serde.consistencyOf ty text with
          | .error error => (.gone, some (.error error))
          | .ok envelope =>
              if envelope.isFresh nowMillis then
                (.gone, some (.ok (.cacheRead ⟨envelope.value, .fresh⟩)))
              else (.flying request (some envelope) (.entering request.flightType), none)

/-- After the read a call ends or joins the flight. -/
theorem Request.read_task (serde : Serde Ty Text Value) (request : Request Ty) (redis : Option Text) :
    (request.read serde redis).1 = .gone ∨
      ∃ cached, (request.read serde redis).1 = .flying request cached (.entering request.flightType) := by
  cases redis with
  | none => exact .inr ⟨none, rfl⟩
  | some text =>
    cases request with
    | option => exact .inl rfl
    | consistent ty =>
      cases read : serde.consistencyOf ty text with
      | error => exact .inl (by simp only [Request.read, read])
      | ok envelope =>
        simp only [Request.read, read]
        grind

/-- The read of the caller that leads the flight. -/
def Request.reread (serde : Serde Ty Text Value) (request : Request Ty) (redis : Option Text) :
    Stage Value :=
  match request, redis with
  | .option ty, some text =>
      .ready ((serde.cachedOf ty text).map (fun envelope => .option envelope.toOption))
  | _, _ => .starting

/-- What follows the loader. -/
def Request.receive (request : Request Ty) (cached : Option (ConsistencyEnvelope Value)) :
    Except String (Option Value) → Stage Value
  | .ok value => .storing value
  | .error error =>
      match request, cached with
      | .consistent _ policy _, some envelope =>
          if policy.staleOnError then .ready (.ok (.cacheRead ⟨envelope.value, .stale⟩))
          else .ready (.error error)
      | _, _ => .ready (.error error)

/-- The text that is written for a value. -/
def Request.textOf (serde : Serde Ty Text Value) (request : Request Ty) (value : Option Value) : Text :=
  match request with
  | .option ty => serde.cachedText ty (value.elim .missing .value)
  | .consistent ty policy nowMillis =>
      let freshTtl := if value.isSome then policy.freshTtl else policy.negativeTtl
      serde.consistencyText ty
        ⟨value, saturatingAddU64 nowMillis (UInt64.ofNat freshTtl.asMillis)⟩

/-- What the flight returns for a value that was loaded. -/
def Request.loadedOf (request : Request Ty) (value : Option Value) : Loaded Value :=
  match request with
  | .option _ => .option value
  | .consistent _ _ _ => .cacheRead ⟨value, .loaded⟩

/-- Where a call is after a step of its flight. -/
def Task.land (request : Request Ty) (cached : Option (ConsistencyEnvelope Value))
    (caller : Caller (FlightType Ty)) : Answer Value → Task Ty Value
  | some result => .resetting result
  | none =>
      match caller with
      | .loading _ entry => .loading request cached entry request.firstStage
      | .gone => .gone
      | caller => .flying request cached caller

/-- A step of the flight. -/
def RedisCache.fly [DecidableEq Ty] (cache : RedisCache Ty Text Value) (request : Request Ty)
    (cached : Option (ConsistencyEnvelope Value)) (caller : Caller (FlightType Ty))
    (move : CallerAction (Loaded Value)) :
    Option (RedisCache Ty Text Value × Task Ty Value × Answer Value) :=
  (caller.step cache.flights move).map (fun taken =>
    ({ cache with flights := taken.1 }, Task.land request cached taken.2.1 taken.2.2, none))

def Task.step [DecidableEq Ty] (serde : Serde Ty Text Value) (cache : RedisCache Ty Text Value) :
    Task Ty Value → TaskAction Value → Option (RedisCache Ty Text Value × Task Ty Value × Answer Value)
  | .reading request, .proceed => some (cache, request.read serde cache.redis)
  | .reading _, .failed error => some (cache, .gone, some (.error error))
  | .reading _, .drop => some (cache, .gone, none)
  | .flying request cached caller, .proceed => cache.fly request cached caller .proceed
  | .flying request cached caller, .drop => cache.fly request cached caller .drop
  | .loading request cached entry .rereading, .proceed =>
      some (cache, .loading request cached entry (request.reread serde cache.redis), none)
  | .loading request cached entry .rereading, .failed error =>
      some (cache, .loading request cached entry (.ready (.error error)), none)
  | .loading request cached entry .starting, .proceed =>
      some (cache, .loading request cached entry .running, none)
  | .loading request cached entry .running, .loaded output =>
      some (cache, .loading request cached entry (request.receive cached output), none)
  | .loading request cached entry (.storing value), .proceed =>
      some ({ cache with redis := some (request.textOf serde value) },
        .loading request cached entry (.ready (.ok (request.loadedOf value))), none)
  | .loading request cached entry (.storing _), .failed error =>
      some (cache, .loading request cached entry (.ready (.error error)), none)
  | .loading request cached entry (.ready output), .proceed =>
      cache.fly request cached (.loading request.flightType entry) (.loaded output)
  | .loading request cached entry _, .drop =>
      cache.fly request cached (.loading request.flightType entry) .drop
  | .resetting result, .proceed =>
      ((Caller.resetting).step cache.flights (.proceed : CallerAction (Loaded Value))).map (fun taken =>
        ({ cache with flights := taken.1 }, .gone, some result))
  | .expiring, .proceed => some ({ cache with redis := none }, .gone, none)
  | _, _ => none

/-- A call that leads a flight takes a step of the flight, or leaves the flights as they are and
writes at most a text of its own. -/
theorem Task.step_loading [DecidableEq Ty] {serde : Serde Ty Text Value}
    {cache cache' : RedisCache Ty Text Value} {request : Request Ty}
    {cached : Option (ConsistencyEnvelope Value)} {entry : Nat} {stage : Stage Value}
    {move : TaskAction Value} {after : Task Ty Value} {output : Answer Value}
    (taken : (Task.loading request cached entry stage).step serde cache move =
      some (cache', after, output)) :
    (∃ flown, cache.fly request cached (.loading request.flightType entry) flown =
        some (cache', after, output)) ∨
      cache'.flights = cache.flights ∧ (∃ later, after = .loading request cached entry later) ∧
        (cache'.redis = cache.redis ∨ ∃ value, cache'.redis = some (request.textOf serde value)) := by
  cases move with
  | drop =>
    refine .inl ⟨.drop, ?_⟩
    cases stage <;> exact taken
  | proceed =>
    cases stage with
    | ready => exact .inl ⟨_, taken⟩
    | running => cases taken
    | rereading | starting =>
      cases taken
      simp
    | storing value =>
      cases taken
      simp
  | failed | loaded =>
    cases stage <;> cases taken <;> simp

end Steps

section Pool

variable {Ty Text Value : Type}

/-- Any number of calls for one key. -/
def calls [DecidableEq Ty] (serde : Serde Ty Text Value) :
    Process (RedisCache Ty Text Value) (Task Ty Value) (TaskAction Value) (Answer Value) where
  initial
    | .reading _ | .expiring => true
    | _ => false
  step := Task.step serde

/-- The loaders that a call runs. -/
def Task.loads : Task Ty Value → Nat
  | .loading _ _ _ .running => 1
  | _ => 0

/-- The call fails with its next step, as what it finds in Redis, or in the entry of its flight, is of
another type than it asks for. -/
def Task.confused [DecidableEq Ty] (serde : Serde Ty Text Value) (cache : RedisCache Ty Text Value) :
    Task Ty Value → Bool
  | .reading request => cache.redis.any (fun text => !serde.readable request.flightType text)
  | .loading request _ _ .rereading => cache.redis.any (fun text => !serde.readable request.flightType text)
  | .flying _ _ (.looping kind entry _) => (cache.flights.entries entry).result.any (fun
      | .ok (stored, _) => stored ≠ kind
      | .error _ => false)
  | _ => false

/-- The entry that a call loads, or that it is about to look at for the first time. -/
def Task.holds : Task Ty Value → Option Nat
  | .loading _ _ entry _ => some entry
  | .flying _ _ (.looping _ entry true) => some entry
  | _ => none

def Task.resets : Task Ty Value → Bool
  | .resetting _ => true
  | .flying _ _ .resetting => true
  | _ => false

/-- The entry in the map has no result yet, and a call loads it or is about to. -/
def Unsettled (pool : Pool (RedisCache Ty Text Value) (Task Ty Value)) : Bool :=
  pool.shared.flights.current.any (fun entry =>
    (pool.shared.flights.entries entry).result.isNone &&
      pool.locals.any (fun task => task.holds = some entry))

/-- The step does not remove an entry that a call loads or is about to load. -/
def patient (pool : Pool (RedisCache Ty Text Value) (Task Ty Value)) :
    PoolAction (Task Ty Value) (TaskAction Value) → Bool
  | .act index .proceed => (pool.locals[index]?).all (fun task => !(task.resets && Unsettled pool))
  | _ => true

/-- A call that begins asks for the type. -/
def asksFor [DecidableEq Ty] (kind : FlightType Ty) :
    PoolAction (Task Ty Value) (TaskAction Value) → Bool
  | .spawn (.reading request) => request.flightType = kind
  | _ => true

end Pool

/-! ## One loader at a time -/

section Exclusion

variable {Ty Text Value : Type}

/-- Whether a call runs the flight of an entry, as a number. -/
def Task.executes (entry : Nat) : Task Ty Value → Nat
  | .loading _ _ place _ => if place = entry then 1 else 0
  | _ => 0

/-- The entry of which a call knows that it has a result. -/
def Task.informed : Task Ty Value → Option Nat
  | .flying _ _ (.publishing _ entry) => some entry
  | .flying _ _ (.waiting _ entry seen) => if 0 < seen then some entry else none
  | _ => none

/-- The number of calls that an entry has room for: one while it is marked as running and has no
result. -/
def room {Kind : Type} (group : SingleFlightGroup Kind (Loaded Value)) (entry : Nat) : Nat :=
  if (group.entries entry).running && (group.entries entry).result.isNone then 1 else 0

/-- What holds as long as no unsettled entry is removed. An entry is loaded once; the one that is
loaded, or about to be, is in the map; and whoever was notified finds a result. -/
structure Exclusive (pool : Pool (RedisCache Ty Text Value) (Task Ty Value)) : Prop where
  single : ∀ entry, pool.total (Task.executes entry) ≤ room pool.shared.flights entry
  present : ∀ task ∈ pool.locals, ∀ entry, task.holds = some entry →
    (pool.shared.flights.entries entry).result = none → pool.shared.flights.current = some entry
  notified : ∀ entry, 0 < (pool.shared.flights.entries entry).notified →
    (pool.shared.flights.entries entry).result ≠ none
  informed : ∀ task ∈ pool.locals, ∀ entry, task.informed = some entry →
    (pool.shared.flights.entries entry).result ≠ none

theorem executes_le_total {entry : Nat} {task : Task Ty Value}
    {pool : Pool (RedisCache Ty Text Value) (Task Ty Value)} (member : task ∈ pool.locals) :
    task.executes entry ≤ pool.total (Task.executes entry) :=
  le_sum_of_mem (mem_map_of_mem member)

/-- At most one loader runs: whoever runs one holds the entry of the map, which has room for one. -/
theorem Exclusive.loads_le_one {pool : Pool (RedisCache Ty Text Value) (Task Ty Value)}
    (exclusive : Exclusive pool) : pool.total Task.loads ≤ 1 := by
  have mapped (task : Task Ty Value) (member : task ∈ pool.locals) (loads : task.loads ≠ 0) :
      ∃ entry, pool.shared.flights.current = some entry ∧ task.executes entry = 1 := by
    cases task with
    | loading request cached entry stage =>
      have executes : (Task.loading request cached entry stage).executes entry = 1 := if_pos rfl
      have bound := (executes_le_total member).trans (exclusive.single entry)
      rw [executes, room] at bound
      split at bound
      · rename_i opened
        have unset : (pool.shared.flights.entries entry).result = none :=
          Option.isNone_iff_eq_none.mp (Bool.and_eq_true_iff.mp opened).2
        exact ⟨entry, exclusive.present _ member entry rfl unset, executes⟩
      · omega
    | _ => exact absurd rfl loads
  cases here : pool.shared.flights.current with
  | none =>
    have nothing : pool.total Task.loads = 0 := by
      refine sum_eq_zero (fun number member => ?_)
      grind
    omega
  | some entry =>
    have one : pool.total Task.loads ≤ pool.total (Task.executes entry) := by
      refine sum_le_sum (fun task inside => ?_)
      by_cases loads : task.loads = 0
      · omega
      · obtain ⟨_, current, executes⟩ := mapped task inside loads
        rw [here] at current
        cases current
        rw [executes]
        cases task with
        | loading request cached entry stage => cases stage <;> simp [Task.loads]
        | _ => exact Nat.zero_le _
    have bound := exclusive.single entry
    rw [room] at bound
    split at bound <;> omega

section Change

variable {pool : Pool (RedisCache Ty Text Value) (Task Ty Value)} {index : Nat}
  {current after : Task Ty Value} {cache : RedisCache Ty Text Value}

/-- Nothing is asked of a task that has no entry. -/
theorem of_eq_none {own : Option Nat} {fact : Nat → Prop} (none : own = none) (entry : Nat)
    (some : own = some entry) : fact entry := by
  rw [none] at some
  cases some

section

variable (exclusive : Exclusive pool)
include exclusive

section

variable (found : pool.locals[index]? = some current)
include found

/-- What a step has to keep. -/
theorem Exclusive.change
    (counted : ∀ entry others, others + current.executes entry ≤ room pool.shared.flights entry →
      others + after.executes entry ≤ room cache.flights entry)
    (remembers : ∀ entry, (cache.flights.entries entry).result = none →
      (pool.shared.flights.entries entry).result = none)
    (stays : ∀ task ∈ pool.locals, ∀ entry, task.holds = some entry →
      (pool.shared.flights.entries entry).result = none → pool.shared.flights.current = some entry →
      cache.flights.current = some entry)
    (present : ∀ entry, after.holds = some entry → (cache.flights.entries entry).result = none →
      cache.flights.current = some entry)
    (notified : ∀ entry, 0 < (cache.flights.entries entry).notified →
      (cache.flights.entries entry).result ≠ none)
    (informed : ∀ entry, after.informed = some entry → (cache.flights.entries entry).result ≠ none) :
    Exclusive ⟨cache, pool.locals.set index after⟩ := by
  refine ⟨fun entry => ?_, fun task member entry holds unset => ?_, notified,
    fun task member entry knows => ?_⟩
  · have moved := Process.sum_map_set (Task.executes entry) found after
    have before := exclusive.single entry
    have own : current.executes entry ≤ pool.total (Task.executes entry) :=
      executes_le_total (mem_of_getElem? found)
    simp only [Pool.total] at before own ⊢
    have kept :=
      counted entry ((pool.locals.map (Task.executes entry)).sum - current.executes entry) (by omega)
    omega
  · rcases mem_or_eq_of_mem_set member with old | rfl
    · exact stays task old entry holds (remembers entry unset)
        (exclusive.present task old entry holds (remembers entry unset))
    · exact present entry holds unset
  · rcases mem_or_eq_of_mem_set member with old | rfl
    · exact fun unset => exclusive.informed task old entry knows (remembers entry unset)
    · exact informed entry knows

/-- A step that leaves the entries and the map as they are. -/
theorem Exclusive.quiet (same : cache.flights = pool.shared.flights)
    (fewer : ∀ entry, after.executes entry ≤ current.executes entry)
    (held : ∀ entry, after.holds = some entry → current.holds = some entry)
    (knows : ∀ entry, after.informed = some entry → (pool.shared.flights.entries entry).result ≠ none) :
    Exclusive ⟨cache, pool.locals.set index after⟩ := by
  refine exclusive.change found (fun entry others bound => ?_) ?_ ?_ ?_ ?_ ?_ <;> rw [same]
  · have less := fewer entry
    omega
  · simp
  · simp
  · exact fun entry holds unset =>
      exclusive.present current (mem_of_getElem? found) entry (held entry holds) unset
  · exact exclusive.notified
  · exact knows

/-- A task that ends, or that has looked up no entry yet. -/
theorem Exclusive.leave (same : cache.flights = pool.shared.flights)
    (fewer : ∀ entry, after.executes entry ≤ current.executes entry) (free : after.holds = none)
    (unaware : after.informed = none) : Exclusive ⟨cache, pool.locals.set index after⟩ :=
  exclusive.quiet found same fewer (of_eq_none free) (of_eq_none unaware)

/-- A step that changes one entry, and forgets no result. -/
theorem Exclusive.set {place : Nat} {state : FlightEntry (FlightType Ty) (Loaded Value)}
    (flights : cache.flights = pool.shared.flights.set place state)
    (elsewhere : ∀ entry, entry ≠ place → after.executes entry ≤ current.executes entry)
    (here : ∀ others, others + current.executes place ≤ room pool.shared.flights place →
      others + after.executes place ≤ room (pool.shared.flights.set place state) place)
    (remembers : state.result = none → (pool.shared.flights.entries place).result = none)
    (held : ∀ entry, after.holds = some entry → current.holds = some entry)
    (notified : 0 < state.notified → state.result ≠ none)
    (informed : ∀ entry, after.informed = some entry → entry = place ∧ state.result ≠ none) :
    Exclusive ⟨cache, pool.locals.set index after⟩ := by
  have kept (entry : Nat) (unset : ((pool.shared.flights.set place state).entries entry).result = none) :
      (pool.shared.flights.entries entry).result = none := by
    by_cases same : entry = place
    · subst same
      rw [SingleFlightGroup.entries_set_self] at unset
      exact remembers unset
    · rwa [SingleFlightGroup.entries_set_of_ne _ same] at unset
  refine exclusive.change found (fun entry others bound => ?_) ?_ ?_ ?_ ?_ ?_ <;> rw [flights]
  · by_cases same : entry = place
    · subst same
      exact here others bound
    · have less := elsewhere entry same
      rw [room, SingleFlightGroup.entries_set_of_ne _ same]
      rw [room] at bound
      omega
  · exact kept
  · exact fun task member entry holds unset there => there
  · exact fun entry holds unset => exclusive.present current (mem_of_getElem? found) entry
      (held entry holds) (kept entry unset)
  · intro entry
    by_cases same : entry = place
    · subst same
      rw [SingleFlightGroup.entries_set_self]
      exact notified
    · rw [SingleFlightGroup.entries_set_of_ne _ same]
      exact exclusive.notified entry
  · intro entry knows
    obtain ⟨rfl, _⟩ := informed entry knows
    rwa [SingleFlightGroup.entries_set_self]

/-- A step that removes a settled entry from the map. -/
theorem Exclusive.reset (quiet : Unsettled pool = false)
    (same : cache.flights.entries = pool.shared.flights.entries)
    (fewer : ∀ entry, after.executes entry ≤ current.executes entry) (free : after.holds = none)
    (plain : after.informed = none) : Exclusive ⟨cache, pool.locals.set index after⟩ := by
  refine exclusive.change found (fun entry others bound => ?_) ?_
    (fun task member entry holds unset here => ?_) (fun entry holds => ?_) ?_ (fun entry knows => ?_)
  · have less := fewer entry
    rw [room, same]
    rw [room] at bound
    omega
  · simp_all
  · have loaded : Unsettled pool = true := by
      simp only [Unsettled, here, Option.any_some, unset, Option.isNone_none, Bool.true_and]
      grind
    simp_all
  · simp_all
  · rw [same]
    exact exclusive.notified
  · simp_all

end

/-- A caller that enters takes the entry of the map. -/
theorem Exclusive.entered {request : Request Ty} {cached : Option (ConsistencyEnvelope Value)}
    {kind : FlightType Ty}
    (found : pool.locals[index]? = some (.flying request cached (.entering kind))) :
    Exclusive ⟨{ pool.shared with flights := pool.shared.flights.entryFor.1 },
      pool.locals.set index
        (.flying request cached (.looping kind pool.shared.flights.entryFor.2 true))⟩ := by
  have same := pool.shared.flights.entries_entryFor
  refine exclusive.change found (fun entry others bound => ?_) ?_
    (fun task _ entry _ _ here => by simp only [SingleFlightGroup.entryFor, here])
    (fun entry holds _ => ?_) ?_ (of_eq_none rfl)
  · rw [room, same]
    exact bound
  · simp_all
  · cases holds
    cases here : pool.shared.flights.current with
    | none | some => simp only [SingleFlightGroup.entryFor, here]
  · rw [same]
    exact exclusive.notified

end

end Change

section Acts

variable [DecidableEq Ty] {pool : Pool (RedisCache Ty Text Value) (Task Ty Value)} {index : Nat}
  {request : Request Ty} {cached : Option (ConsistencyEnvelope Value)} {after : Task Ty Value}
  {cache : RedisCache Ty Text Value} {output : Answer Value}

section

variable (exclusive : Exclusive pool)
include exclusive

omit [DecidableEq Ty] in
/-- Only a caller that finds the entry neither running nor with a result loads, and then nobody else
loads that entry. -/
theorem Exclusive.led {kind : FlightType Ty} {entry : Nat} {loader : Bool}
    (found : pool.locals[index]? = some (.flying request cached (.looping kind entry loader)))
    (unset : (pool.shared.flights.entries entry).result = none)
    (stopped : (pool.shared.flights.entries entry).running = false) :
    Exclusive ⟨⟨pool.shared.redis,
        pool.shared.flights.set entry { pool.shared.flights.entries entry with running := true }⟩,
      pool.locals.set index
        (.land request cached (if loader then .loading kind entry else .gone) none)⟩ := by
  have silent : ¬ 0 < (pool.shared.flights.entries entry).notified :=
    fun told => exclusive.notified entry told unset
  have opened : room (pool.shared.flights.set entry
      { pool.shared.flights.entries entry with running := true }) entry = 1 := by
    simp [room, SingleFlightGroup.entries_set_self, unset]
  have alone {others : Nat} (bound : others + 0 ≤ room pool.shared.flights entry) : others = 0 := by
    simpa [room, stopped] using bound
  cases loader with
  | true =>
    refine exclusive.set found rfl (fun place other => ?_) (fun others bound => ?_) (fun _ => unset)
      (fun place holds => ?_) (fun told => absurd told silent) (of_eq_none rfl)
    · simp [Task.land, Task.executes, Ne.symm other]
    · rw [opened, alone bound]
      simp [Task.land, Task.executes]
    · cases holds
      rfl
  | false =>
    refine exclusive.set found rfl (fun _ _ => le_rfl) (fun others bound => ?_) (fun _ => unset)
      (of_eq_none rfl) (fun told => absurd told silent) (of_eq_none rfl)
    rw [alone bound]
    exact Nat.zero_le _

/-- The steps of a flight that is not led yet. -/
theorem Exclusive.flew {caller : Caller (FlightType Ty)} {move : CallerAction (Loaded Value)}
    (found : pool.locals[index]? = some (.flying request cached caller))
    (quiet : caller = .resetting → Unsettled pool = false)
    (taken : pool.shared.fly request cached caller move = some (cache, after, output))
    (unloaded : ∀ result, move ≠ .loaded result) :
    Exclusive ⟨cache, pool.locals.set index after⟩ := by
  have member := mem_of_getElem? found
  obtain ⟨⟨_, _, _⟩, stepped, built⟩ := Option.map_eq_some_iff.mp taken
  cases built
  cases Caller.step_moves stepped with
  | enter => exact exclusive.entered found
  | take | follow | leave => exact exclusive.leave found rfl (fun _ => le_rfl) rfl rfl
  | lead unset stopped => exact exclusive.led found unset stopped
  | report result => simp_all
  | @notify kind entry =>
    have set := exclusive.informed _ member entry rfl
    refine exclusive.set found rfl (fun _ _ => le_rfl) (fun others bound => ?_) id (of_eq_none rfl)
      (fun _ => set) (of_eq_none rfl)
    rw [room, SingleFlightGroup.entries_set_self]
    exact bound
  | @register kind entry =>
    refine exclusive.quiet found rfl (fun _ => le_rfl) (of_eq_none rfl) (fun place knows => ?_)
    obtain ⟨told, rfl⟩ := of_guard knows
    exact exclusive.notified entry told
  | @wake kind entry seen woken =>
    -- either the caller registered after a notification, or there has been one since
    have set : (pool.shared.flights.entries entry).result ≠ none := by
      by_cases late : 0 < seen
      · exact exclusive.informed _ member entry (if_pos late)
      · exact exclusive.notified entry (by omega)
    refine exclusive.change found (fun _ _ bound => bound) (fun _ unset => unset)
      (fun _ _ _ _ _ here => here) (fun place holds unset => ?_) exclusive.notified (of_eq_none rfl)
    cases holds
    exact absurd unset set
  | reset => exact exclusive.reset found (quiet rfl) rfl (fun _ => le_rfl) rfl rfl

/-- The caller that loads reports what it loaded, or goes away. -/
theorem Exclusive.landed {entry : Nat} {stage : Stage Value} {kind : FlightType Ty}
    {move : CallerAction (Loaded Value)}
    (found : pool.locals[index]? = some (.loading request cached entry stage))
    (taken : pool.shared.fly request cached (.loading kind entry) move = some (cache, after, output)) :
    Exclusive ⟨cache, pool.locals.set index after⟩ := by
  obtain ⟨⟨_, _, _⟩, stepped, built⟩ := Option.map_eq_some_iff.mp taken
  cases built
  cases Caller.step_moves stepped with
  | leave => exact exclusive.leave found rfl (fun _ => Nat.zero_le _) rfl rfl
  | report =>
    refine exclusive.set found rfl (fun _ _ => Nat.zero_le _) (fun others bound => ?_) nofun
      (of_eq_none rfl) (fun _ => Option.some_ne_none _) (fun place knows => ?_)
    · have own : (Task.loading request cached entry stage).executes entry = 1 := if_pos rfl
      rw [own, room] at bound
      have none : others = 0 := by
        split at bound <;> omega
      subst none
      exact Nat.zero_le _
    · cases knows
      simp

/-- A step that removes no unsettled entry keeps what holds. -/
theorem Exclusive.acted {serde : Serde Ty Text Value} {current : Task Ty Value}
    {move : TaskAction Value} (found : pool.locals[index]? = some current)
    (taken : current.step serde pool.shared move = some (cache, after, output))
    (waited : patient pool (.act index move) = true) :
    Exclusive ⟨cache, pool.locals.set index after⟩ := by
  have quiet (proceeds : move = .proceed) (resets : current.resets = true) : Unsettled pool = false := by
    subst proceeds
    simpa [patient, found, resets] using waited
  cases current with
  | reading request =>
    cases move with
    | proceed =>
      obtain ⟨rfl, left⟩ := Prod.mk.inj (Option.some.inj taken)
      have same : (request.read serde pool.shared.redis).1 = after := congrArg Prod.fst left
      rcases request.read_task serde pool.shared.redis with ends | ⟨_, joins⟩
      · rw [← same, ends]
        exact exclusive.leave found rfl (fun _ => le_rfl) rfl rfl
      · rw [← same, joins]
        exact exclusive.leave found rfl (fun _ => le_rfl) rfl rfl
    | failed | drop =>
      cases taken
      exact exclusive.leave found rfl (fun _ => le_rfl) rfl rfl
    | loaded => cases taken
  | flying =>
    cases move with
    | proceed =>
      refine exclusive.flew found (fun same => ?_) taken (fun _ same => by cases same)
      subst same
      exact quiet rfl rfl
    | drop =>
      refine exclusive.flew found (fun same => ?_) taken (fun _ same => by cases same)
      subst same
      cases taken
    | failed | loaded => cases taken
  | loading =>
    rcases Task.step_loading taken with ⟨_, flown⟩ | ⟨same, ⟨_, rfl⟩, -⟩
    · exact exclusive.landed found flown
    · exact exclusive.quiet found same (fun _ => le_rfl) (fun _ => id) (of_eq_none rfl)
  | resetting =>
    cases move with
    | proceed =>
      cases taken
      exact exclusive.reset found (quiet rfl rfl) rfl (fun _ => le_rfl) rfl rfl
    | _ => cases taken
  | expiring =>
    cases move with
    | proceed =>
      cases taken
      exact exclusive.leave found rfl (fun _ => le_rfl) rfl rfl
    | _ => cases taken
  | gone => cases move <;> cases taken

end

end Acts

end Exclusion

/-! ## One type -/

section Typing

variable {Ty Text Value : Type}

/-- The call asks for the type. -/
def Task.Typed (kind : FlightType Ty) : Task Ty Value → Prop
  | .reading request => request.flightType = kind
  | .flying request _ caller =>
      request.flightType = kind ∧ ∀ asked, caller.kind? = some asked → asked = kind
  | .loading request _ _ _ => request.flightType = kind
  | _ => True

/-- The results in the entries are of the type. -/
def Stores (kind : FlightType Ty) (group : SingleFlightGroup (FlightType Ty) (Loaded Value)) : Prop :=
  ∀ entry stored value, (group.entries entry).result = some (.ok (stored, value)) → stored = kind

/-- All calls ask for one type, and what they left in Redis and in the entries is of that type. -/
structure Uniform (serde : Serde Ty Text Value) (kind : FlightType Ty)
    (pool : Pool (RedisCache Ty Text Value) (Task Ty Value)) : Prop where
  redis : ∀ text, pool.shared.redis = some text → serde.readable kind text = true
  results : Stores kind pool.shared.flights
  tasks : ∀ task ∈ pool.locals, task.Typed kind

variable [DecidableEq Ty] {serde : Serde Ty Text Value} {kind : FlightType Ty}
  {pool : Pool (RedisCache Ty Text Value) (Task Ty Value)}

/-- No call finds what it cannot take. -/
theorem Uniform.clear (uniform : Uniform serde kind pool) :
    ∀ task ∈ pool.locals, task.confused serde pool.shared = false := by
  have readable : pool.shared.redis.any (fun text => !serde.readable kind text) = false := by
    cases stored : pool.shared.redis with
    | none => rfl
    | some text => simp [uniform.redis text stored]
  intro task member
  have typed := uniform.tasks task member
  cases task with
  | reading =>
    rw [Task.confused, typed]
    exact readable
  | loading request cached entry stage =>
    cases stage with
    | rereading =>
      rw [Task.confused, typed]
      exact readable
    | _ => rfl
  | flying request cached caller =>
    cases caller with
    | looping asked entry =>
      have same : asked = kind := typed.2 asked rfl
      rw [Task.confused, same]
      cases found : (pool.shared.flights.entries entry).result with
      | none => rfl
      | some result =>
        cases result with
        | error => rfl
        | ok pair =>
          have stored := uniform.results entry pair.1 pair.2 found
          simp [stored]
    | _ => rfl
  | _ => rfl

/-- A step of a flight keeps the type. -/
theorem fly_typed {cache cache' : RedisCache Ty Text Value} {request : Request Ty}
    {cached : Option (ConsistencyEnvelope Value)} {caller : Caller (FlightType Ty)}
    {move : CallerAction (Loaded Value)} {after : Task Ty Value} {output : Answer Value}
    (taken : cache.fly request cached caller move = some (cache', after, output))
    (stores : Stores kind cache.flights) (typed : (Task.flying request cached caller).Typed kind) :
    cache'.redis = cache.redis ∧ Stores kind cache'.flights ∧ after.Typed kind := by
  obtain ⟨⟨_, caller', answer⟩, stepped, built⟩ := Option.map_eq_some_iff.mp taken
  cases built
  obtain ⟨asks, reports⟩ := (Caller.step_moves stepped).kind
  refine ⟨rfl, fun entry stored value found => ?_, ?_⟩
  · rcases reports entry stored value found with old | own
    · exact stores entry stored value old
    · exact typed.2 stored own
  · cases answer with
    | some => trivial
    | none =>
      have kept : ∀ asked, caller'.kind? = some asked → asked = kind :=
        fun asked same => typed.2 asked (asks asked same)
      cases caller' with
      | loading => exact typed.1
      | gone => trivial
      | _ => exact ⟨typed.1, kept⟩

/-- A step of a call that asks for the type keeps the type. -/
theorem step_typed {cache cache' : RedisCache Ty Text Value} {current after : Task Ty Value}
    {move : TaskAction Value} {output : Answer Value}
    (taken : current.step serde cache move = some (cache', after, output))
    (readable : ∀ text, cache.redis = some text → serde.readable kind text = true)
    (stores : Stores kind cache.flights) (typed : current.Typed kind) :
    (∀ text, cache'.redis = some text → serde.readable kind text = true) ∧
      Stores kind cache'.flights ∧ after.Typed kind := by
  cases current with
  | reading request =>
    cases move with
    | proceed =>
      obtain ⟨rfl, left⟩ := Prod.mk.inj (Option.some.inj taken)
      have same : (request.read serde cache.redis).1 = after := congrArg Prod.fst left
      refine ⟨readable, stores, ?_⟩
      rcases request.read_task serde cache.redis with ends | ⟨_, joins⟩
      · rw [← same, ends]
        trivial
      · rw [← same, joins]
        refine ⟨typed, fun asked own => ?_⟩
        cases own
        exact typed
    | failed | drop =>
      cases taken
      exact ⟨readable, stores, trivial⟩
    | loaded => cases taken
  | flying =>
    cases move with
    | proceed | drop =>
      obtain ⟨same, kept, after_typed⟩ := fly_typed taken stores typed
      simp_all
    | failed | loaded => cases taken
  | loading request =>
    have same : request.flightType = kind := typed
    subst same
    rcases Task.step_loading taken with ⟨_, flown⟩ | ⟨kept, ⟨_, rfl⟩, written⟩
    · obtain ⟨unwritten, kept, after_typed⟩ :=
        fly_typed flown stores ⟨rfl, fun asked own => (Option.some.inj own).symm⟩
      simp_all
    · rw [kept]
      refine ⟨fun text stored => ?_, stores, rfl⟩
      rcases written with same | ⟨value, own⟩
      · simp_all
      · obtain rfl := Option.some.inj (own.symm.trans stored)
        cases request with
        | option =>
          rw [Request.flightType, Request.textOf, Serde.readable, serde.cached]
          rfl
        | consistent =>
          rw [Request.flightType, Request.textOf, Serde.readable, serde.consistency]
          rfl
  | resetting =>
    cases move with
    | proceed =>
      cases taken
      exact ⟨readable, stores, trivial⟩
    | _ => cases taken
  | expiring =>
    cases move with
    | proceed =>
      cases taken
      exact ⟨nofun, stores, trivial⟩
    | _ => cases taken
  | gone => cases move <;> cases taken

end Typing

/-! ## Runs -/

section Runs

variable {Ty Text Value : Type} [DecidableEq Ty] {serde : Serde Ty Text Value}
  {pool next : Pool (RedisCache Ty Text Value) (Task Ty Value)}
  {action : PoolAction (Task Ty Value) (TaskAction Value)} {output : Option (Answer Value)}

theorem Exclusive.step (exclusive : Exclusive pool)
    (taken : (calls serde).pool.step pool action = some (next, output))
    (waited : patient pool action = true) : Exclusive next := by
  rcases Process.pool_step taken with ⟨start, rfl, initial, rfl, rfl⟩ |
    ⟨index, move, current, cache, after, result, rfl, found, stepped, rfl, rfl⟩
  · have plain : start.holds = none ∧ start.informed = none ∧ ∀ entry, start.executes entry = 0 := by
      cases start with
      | reading | expiring => exact ⟨rfl, rfl, fun _ => rfl⟩
      | _ => cases initial
    obtain ⟨free, unknown, idle⟩ := plain
    refine ⟨fun entry => ?_, fun task member entry holds => ?_, exclusive.notified,
      fun task member entry knows => ?_⟩
    · have before := exclusive.single entry
      simpa [Pool.total, idle entry] using before
    · rcases mem_append.mp member with old | new
      · exact exclusive.present task old entry holds
      · simp_all
    · rcases mem_append.mp member with old | new
      · exact exclusive.informed task old entry knows
      · simp_all
  · exact exclusive.acted found stepped waited

theorem Uniform.step {kind : FlightType Ty} (uniform : Uniform serde kind pool)
    (taken : (calls serde).pool.step pool action = some (next, output))
    (asked : asksFor kind action = true) :
    Uniform serde kind next := by
  rcases Process.pool_step taken with ⟨_, rfl, initial, rfl, rfl⟩ |
    ⟨index, move, current, cache, after, result, rfl, found, stepped, rfl, rfl⟩
  · refine ⟨uniform.redis, uniform.results, fun task member => ?_⟩
    rcases mem_append.mp member with old | new
    · exact uniform.tasks task old
    · obtain rfl := mem_singleton.mp new
      cases task with
      | reading request =>
        have same : request.flightType = kind := of_decide_eq_true asked
        exact same
      | expiring => trivial
      | _ => cases initial
  · obtain ⟨readable, stores, typed⟩ := step_typed stepped uniform.redis uniform.results
      (uniform.tasks current (mem_of_getElem? found))
    refine ⟨readable, stores, fun task member => ?_⟩
    rcases mem_or_eq_of_mem_set member with old | rfl
    · exact uniform.tasks task old
    · exact typed

/-- When no call removes an entry that another call loads or is about to load, at most one loader
runs in every state of the run. When all calls ask for one type, no call fails in the run for the
type of what another one loaded. -/
theorem loads_deduplicated {redis : Option Text}
    {events : List (PoolAction (Task Ty Value) (TaskAction Value) × Option (Answer Value))} :
    ((calls serde).pool.Along (fun pool action _ _ => patient pool action = true)
        (.empty ⟨redis, .new⟩) events →
      (calls serde).pool.Throughout (fun pool => pool.total Task.loads ≤ 1)
        (.empty ⟨redis, .new⟩) events) ∧
    ∀ kind, (∀ text, redis = some text → serde.readable kind text = true) →
      (calls serde).pool.Along (fun _ action _ _ => asksFor kind action = true)
        (.empty ⟨redis, .new⟩) events →
      (calls serde).pool.Throughout (fun pool => ∀ task ∈ pool.locals,
        task.confused serde pool.shared = false) (.empty ⟨redis, .new⟩) events := by
  constructor
  · intro waited before after state split run
    rw [split] at waited
    have initial : Exclusive (.empty ⟨redis, .new⟩ : Pool (RedisCache Ty Text Value) (Task Ty Value)) :=
      { single := fun _ => Nat.zero_le _
        present := fun _ member => absurd member not_mem_nil
        notified := fun _ told => absurd told (Nat.lt_irrefl 0)
        informed := fun _ member => absurd member not_mem_nil }
    have exclusive : Exclusive state := run.invariant_along waited.first initial
      fun _ _ _ _ exclusive taken waited => exclusive.step taken waited
    exact exclusive.loads_le_one
  · intro kind readable asked before after state split run
    rw [split] at asked
    have initial : Uniform serde kind (.empty ⟨redis, .new⟩) :=
      ⟨readable, nofun, fun _ member => absurd member not_mem_nil⟩
    have uniform : Uniform serde kind state := run.invariant_along asked.first initial
      fun _ _ _ _ uniform taken asked => uniform.step taken asked
    exact uniform.clear

end Runs

/-! ## Examples -/

namespace Sample

/-- A text that tells by which type it was written. -/
inductive TaggedText where
  | cached (envelope : CachedEnvelope Nat)
  | consistency (envelope : ConsistencyEnvelope Nat)
deriving DecidableEq

/-- One type of values. What one kind of calls writes, the other one cannot read. -/
def serde : Serde Unit TaggedText Nat where
  cachedText _ envelope := .cached envelope
  cachedOf _
    | .cached envelope => .ok envelope
    | .consistency _ => .error "unknown variant"
  consistencyText _ envelope := .consistency envelope
  consistencyOf _
    | .consistency envelope => .ok envelope
    | .cached _ => .error "missing field"
  cached _ _ := rfl
  consistency _ _ := rfl

abbrev Actions := List (PoolAction (Task Unit Nat) (TaskAction Nat))

/-- A call and its steps up to the loader, when it leads. -/
def leads (index : Nat) : Actions :=
  [.spawn (.reading (.option ())), .act index .proceed, .act index .proceed, .act index .proceed,
    .act index .proceed, .act index .proceed]

/-- A call and its steps up to the wait, when it follows. -/
def follows (request : Request Unit) (index : Nat) : Actions :=
  [.spawn (.reading request), .act index .proceed, .act index .proceed, .act index .proceed,
    .act index .proceed]

/-- The end of a load that fails, with the notification and the removal of the entry. -/
def fails (index : Nat) : Actions :=
  [.act index (.loaded (.error "unavailable")), .act index .proceed, .act index .proceed,
    .act index .proceed, .act index .proceed]

/-- The end of a call that followed. -/
def finishes (index : Nat) : Actions := [.act index .proceed, .act index .proceed, .act index .proceed]

/-- The second call removes the entry of the third one. -/
def duplicated : Actions :=
  leads 0 ++ follows (.option ()) 1 ++ fails 0 ++ leads 2 ++ finishes 1 ++ leads 3

/-- The second call is over before the third one begins. -/
def served : Actions :=
  leads 0 ++ follows (.option ()) 1 ++ fails 0 ++ finishes 1 ++ leads 2

/-- Calls of both kinds share a flight that loads a value. -/
def mixed : Actions :=
  leads 0 ++ follows (.consistent () ⟨.second, .second, true⟩ 0) 1 ++
    [.act 0 (.loaded (.ok (some 7))), .act 0 .proceed, .act 0 .proceed, .act 0 .proceed,
      .act 0 .proceed, .act 0 .proceed] ++ finishes 1

def start : Pool (RedisCache Unit TaggedText Nat) (Task Unit Nat) := .empty ⟨none, .new⟩

end Sample

/-- Two loaders run at once; and a call fails as the other one loads for another type. -/
theorem loads_duplicated :
    ((calls Sample.serde).pool.exec Sample.start Sample.duplicated).map
        (fun run => run.1.total Task.loads) = some 2 ∧
      (((calls Sample.serde).pool.exec Sample.start Sample.mixed).bind (fun run =>
        run.2.getLast?)).bind (fun event => event.2) =
          some (some (.error "singleflight type mismatch")) := by
  decide +kernel

theorem loads_deduplicated_served :
    ∃ final events, (calls Sample.serde).pool.exec Sample.start Sample.served = some (final, events) ∧
      final.total Task.loads = 1 ∧
      (calls Sample.serde).pool.Throughout (fun pool => pool.total Task.loads ≤ 1) Sample.start events ∧
      (calls Sample.serde).pool.Throughout (fun pool => ∀ task ∈ pool.locals,
        task.confused Sample.serde pool.shared = false) Sample.start events := by
  have last : ((calls Sample.serde).pool.exec Sample.start Sample.served).map
      (fun run => run.1.total Task.loads) = some 1 := by
    decide +kernel
  obtain ⟨⟨final, events⟩, executed, one⟩ := Option.map_eq_some_iff.mp last
  have ⟨single, typed⟩ := @loads_deduplicated Unit Sample.TaggedText Nat _ Sample.serde none events
  exact ⟨final, events, executed, one,
    single (Machine.along_of_checks executed (by decide +kernel)),
    typed (.option ()) nofun (Machine.along_of_checks executed (by decide +kernel))⟩

end Roze.Cache
