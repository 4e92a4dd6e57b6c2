import Mathlib.Data.Set.Function
import Roze.Idempotency.Cell
import Roze.Library.FramedFields
import Roze.Library.JsonReader

/-!
# The two idempotency stores against one record for each request

Both stores are compared with a table that has one record for each scope and key. The store in
Redis answers as that table does as long as the server takes its time to live and every response
is read back from its own text; its key has the length of the scope, so any scopes and keys will do.
The store in memory does so as long as no two of the requests it is used for have one joined text.
-/

namespace Roze.Idempotency

open InMemoryStore

open Roze.Library List

universe u

variable {Response : Type u}

/-- A call with its scope and key. -/
structure Request (Response : Type u) where
  scope : String
  key : String
  call : Call Response
deriving DecidableEq

namespace Request

/-- The scope and the key of a request. -/
def pair (request : Request Response) : String × String := (request.scope, request.key)

/-- The request to begin, for one millisecond from the start of the clock. -/
def first (pair : String × String) : Request Response :=
  ⟨pair.1, pair.2, .begin "body" 0 1⟩

end Request

/-- The response that a call completes its request with. -/
def Call.response? : Call Response → Option Response
  | .complete _ response => some response
  | _ => none

/-- The request is for a scope and key of one set, and completed with a response of another. -/
structure Request.Inside (pairs : Set (String × String)) (responses : Set Response)
    (request : Request Response) : Prop where
  pair : request.pair ∈ pairs
  response : ∀ response ∈ request.call.response?, response ∈ responses

/-- All requests are for the scopes and keys, and with the responses, of two sets. -/
def Within (pairs : Set (String × String)) (responses : Set Response)
    (requests : List (Request Response)) : Prop :=
  ∀ request ∈ requests, request.Inside pairs responses

/-- The answer of the store in memory. -/
def memoryRespond (store : InMemoryStore Response) (request : Request Response) :
    InMemoryStore Response × Answer Response :=
  store.call request.scope request.key request.call

/-- The answer of the store in Redis. -/
def redisRespond (redis : RedisIdempotencyStore) (server : RedisServer) (codec : JsonCodec Response)
    (database : Entries String RedisHash) (request : Request Response) :
    Entries String RedisHash × Answer Response :=
  redis.call server codec database request.scope request.key request.call

/-- Calls on one scope and key are answered as if there were no others. -/
def Independent {State : Type*} (respond : State → Request Response → State × Answer Response)
    (start : State) (pairs : Set (String × String)) (responses : Set Response) : Prop :=
  ∀ requests, Within pairs responses requests → ∀ pair,
    (answers respond start requests).filter (fun event => decide (event.1.pair = pair)) =
      answers respond start (requests.filter (fun request => decide (request.pair = pair)))

/-! ## A record for each scope and key -/

/-- What is known of each scope and key. -/
abbrev Table (Response : Type u) := String × String → Cell Response

def Table.empty : Table Response := fun _ => none

/-- The answer of the table. -/
def tableRespond (table : Table Response) (request : Request Response) :
    Table Response × Answer Response :=
  (Function.update table request.pair ((table request.pair).call untilEnd request.call).1,
    ((table request.pair).call untilEnd request.call).2)

/-- A request changes its own record. -/
theorem tableRespond_own (table : Table Response) (request : Request Response) :
    (tableRespond table request).1 request.pair =
      ((table request.pair).call untilEnd request.call).1 :=
  Function.update_self _ _ _

/-- It changes no other. -/
theorem tableRespond_other {table : Table Response} {request : Request Response}
    {pair : String × String} (other : pair ≠ request.pair) :
    (tableRespond table request).1 pair = table pair :=
  Function.update_of_ne other _ _

/-- The answers for one scope and key depend on its record alone. -/
theorem answers_table_congr (pair : String × String) {first second : Table Response}
    (same : first pair = second pair) {requests : List (Request Response)}
    (all : ∀ request ∈ requests, request.pair = pair) :
    answers tableRespond first requests = answers tableRespond second requests := by
  have kept : ∀ (first second : Table Response) (request : Request Response), request.pair = pair →
      first pair = second pair →
      (tableRespond first request).1 pair = (tableRespond second request).1 pair ∧
        (tableRespond first request).2 = (tableRespond second request).2 := by
    rintro _ _ _ rfl same
    simp [tableRespond, same]
  exact answers_eq_of_related kept same all

/-- The table keeps the records apart. -/
theorem table_independent (table : Table Response) (requests : List (Request Response))
    (pair : String × String) :
    (answers tableRespond table requests).filter (fun event => decide (event.1.pair = pair)) =
      answers tableRespond table (requests.filter (fun request => decide (request.pair = pair))) := by
  induction requests generalizing table with
  | nil => rfl
  | cons request rest ih =>
    have later := ih (tableRespond table request).1
    by_cases own : request.pair = pair
    · simp only [answers, filter_cons, own, decide_true, if_true, later]
    · simp only [answers, filter_cons, own, decide_false, Bool.false_eq_true, if_false, later]
      refine answers_table_congr pair ?_ ?_
      · exact tableRespond_other (Ne.symm own)
      · simp

/-! ## In memory -/

/-- The text under which the store in memory files a pair. -/
def joined (pair : String × String) : String := InMemoryStore.joinedKey pair.1 pair.2

/-- The store shows the records of the table. -/
def Shows (pairs : Set (String × String)) (store : InMemoryStore Response)
    (table : Table Response) : Prop :=
  ∀ pair ∈ pairs, store.cell pair.1 pair.2 = table pair

/-- With different texts, the store in memory is the table. -/
theorem memory_simulates {pairs : Set (String × String)} (injective : Set.InjOn joined pairs)
    (store : InMemoryStore Response) (table : Table Response) (request : Request Response)
    (inside : request.pair ∈ pairs) (shows : Shows pairs store table) :
    Shows pairs (memoryRespond store request).1 (tableRespond table request).1 ∧
      (memoryRespond store request).2 = (tableRespond table request).2 := by
  have called := call_cell store request.scope request.key request.call
  have shown : store.cell request.scope request.key = table request.pair := shows _ inside
  rw [shown] at called
  refine ⟨?_, congrArg Prod.snd called⟩
  intro pair member
  by_cases same : pair = request.pair
  · subst same
    rw [tableRespond_own]
    exact congrArg Prod.fst called
  · have other : joined request.pair ≠ joined pair :=
      fun text => same (injective member inside text.symm)
    rw [tableRespond_other same, ← shows pair member]
    exact call_frame other request.call

/-! ## In Redis -/

namespace RedisIdempotencyStore

/-- Lengths in bytes, and colons. -/
def framing : Framing where
  opening := ':'
  separator := ':'
  weight := Char.utf8Size
  separator_not_digit := isDigit_colon
  weight_pos := Char.utf8Size_pos

/-- The length of the scope frames it. -/
theorem storageKey_toList (redis : RedisIdempotencyStore) (scope key : String) :
    (redis.storageKey scope key).toList = redis.keyPrefix.toList ++ framing.opening ::
      (Nat.toDigits 10 (framing.size scope.toList) ++ framing.separator ::
        (scope.toList ++ ':' :: key.toList)) := by
  simp [storageKey, framing, Framing.size, utf8ByteSize_eq]

/-- The length of the scope says where it ends, whatever it contains. -/
theorem storageKey_injective (redis : RedisIdempotencyStore) {scope key scope' key' : String}
    (same : redis.storageKey scope key = redis.storageKey scope' key') :
    scope = scope' ∧ key = key' := by
  have text := congrArg String.toList same
  rw [storageKey_toList, storageKey_toList] at text
  obtain ⟨scopes, rest⟩ :=
    Framing.sized_inj (tail_eq_of_cons_eq (append_cancel_left text))
  exact ⟨String.toList_injective scopes, String.toList_injective (tail_eq_of_cons_eq rest)⟩

end RedisIdempotencyStore

/-- The record with its response as a text. -/
def Entry.encode (codec : JsonCodec Response) (entry : Entry Response) : Entry String :=
  ⟨entry.fingerprint, entry.response.map codec.encode, entry.lease⟩

/-- The response is read back from its own text. -/
def JsonCodec.ReadsBack (codec : JsonCodec Response) (response : Response) : Prop :=
  codec.decode (codec.encode response) = .ok response

/-- The response of the record, if there is one, is read back. -/
def Cell.Readable (codec : JsonCodec Response) (cell : Cell Response) : Prop :=
  ∀ entry ∈ cell, ∀ response ∈ entry.response, codec.ReadsBack response

/-- Only a completion puts a response into a record. -/
theorem Cell.Readable.call {codec : JsonCodec Response} {cell : Cell Response}
    (readable : cell.Readable codec) (blocks : Nat → Nat → Bool) {call : Call Response}
    (back : ∀ response ∈ call.response?, codec.ReadsBack response) :
    (cell.call blocks call).1.Readable codec := by
  cases call with
  | begin =>
    cases cell with
    | none => rintro _ ⟨⟩ _ ⟨⟩
    | some entry =>
      simp only [Cell.call, Cell.begin]
      repeat' split
      · exact readable
      · exact readable
      · exact readable
      · rintro _ ⟨⟩
        exact readable entry rfl
  | complete fingerprint response =>
    simp only [Cell.call, Cell.complete]
    repeat' split
    · exact readable
    · exact readable
    · rintro _ ⟨⟩ _ ⟨⟩
      exact back response rfl
  | fail =>
    simp only [Cell.call, Cell.fail]
    repeat' split
    · rintro _ ⟨⟩
    · rintro _ ⟨⟩
    · exact readable

namespace RedisIdempotencyStore

section Encoding

variable {codec : JsonCodec Response}

/-- To begin, a text is as good as its response. -/
theorem begin_encode (blocks : Nat → Nat → Bool) {cell : Cell Response}
    (readable : cell.Readable codec) (fingerprint : String) (now leaseEnd : Nat) :
    ((Cell.begin blocks (cell.map (Entry.encode codec)) fingerprint now leaseEnd).1,
        decodeDecision codec
          (Cell.begin blocks (cell.map (Entry.encode codec)) fingerprint now leaseEnd).2) =
      ((cell.begin blocks fingerprint now leaseEnd).1.map (Entry.encode codec),
        .ok (cell.begin blocks fingerprint now leaseEnd).2) := by
  cases cell with
  | none => rfl
  | some entry =>
    by_cases same : entry.fingerprint = fingerprint
    · cases done : entry.response with
      | some response =>
        have back : codec.decode (codec.encode response) = .ok response :=
          readable entry rfl response done
        simp [Cell.begin, Entry.encode, same, done, decodeDecision, back, Except.map]
      | none =>
        cases blocked : entry.lease.any (fun lease => blocks lease now) with
        | true | false => simp [Cell.begin, Entry.encode, same, done, blocked, decodeDecision]
    · simp [Cell.begin, Entry.encode, same, decodeDecision]

/-- To complete, too. -/
theorem complete_encode (cell : Cell Response) (fingerprint : String) (response : Response) :
    Cell.complete (cell.map (Entry.encode codec)) fingerprint (codec.encode response) =
      ((cell.complete fingerprint response).1.map (Entry.encode codec),
        (cell.complete fingerprint response).2) := by
  cases cell with
  | none => rfl
  | some entry =>
    by_cases same : entry.fingerprint = fingerprint <;> simp [Cell.complete, Entry.encode, same]

/-- And to fail. -/
theorem fail_encode (cell : Cell Response) (fingerprint : String) :
    Cell.fail (cell.map (Entry.encode codec)) fingerprint =
      (cell.fail fingerprint).map (Entry.encode codec) := by
  cases cell with
  | none => rfl
  | some entry =>
    by_cases released : entry.fingerprint = fingerprint ∧ entry.response = none
    · simp [Cell.fail, Entry.encode, released]
    · simp [Cell.fail, Entry.encode, released]

/-- A call with its response as a text does to a record of texts what it does to the record. -/
theorem call_encode (blocks : Nat → Nat → Bool) {cell : Cell Response}
    (readable : cell.Readable codec) (call : Call Response) :
    ((Cell.call blocks (cell.map (Entry.encode codec)) (encodeCall codec call)).1,
        decodeAnswer codec
          (Cell.call blocks (cell.map (Entry.encode codec)) (encodeCall codec call)).2) =
      ((cell.call blocks call).1.map (Entry.encode codec), (cell.call blocks call).2) := by
  cases call with
  | begin fingerprint now lease =>
    obtain ⟨record, decision⟩ := Prod.mk.inj (begin_encode blocks readable fingerprint now.toNat
      (saturatingAddU64 now lease).toNat)
    simp only [encodeCall, Cell.call, decodeAnswer, Except.bind, record, decision]
  | complete =>
    simp only [encodeCall, Cell.call, decodeAnswer, complete_encode]
  | fail => simp only [encodeCall, Cell.call, decodeAnswer, fail_encode]

end Encoding

/-- The database has the records of the table, with their responses as texts that are read back. -/
structure Shows (redis : RedisIdempotencyStore) (codec : JsonCodec Response)
    (database : Entries String RedisHash) (table : Table Response) : Prop where
  record : ∀ pair : String × String,
    (database.get? (redis.storageKey pair.1 pair.2)).map RedisHash.entry =
      (table pair).map (Entry.encode codec)
  readable : ∀ pair, (table pair).Readable codec

section Simulation

variable {redis : RedisIdempotencyStore} {server : RedisServer} {codec : JsonCodec Response}
variable (exact : ∀ number, server.read number = number)
variable (taken : redis.recordTtlMillis.toNat ≤ server.longest)
include exact taken

/-- A call on a database that shows the table's records is answered from the record of its pair. -/
theorem runScript_shows {database : Entries String RedisHash} {table : Table Response}
    (shows : redis.Shows codec database table) (request : Request Response) :
    let run := runScript server redis.recordTtlMillis.toNat
      (database.get? (redis.storageKey request.scope request.key)) (encodeCall codec request.call)
    run.hash.map RedisHash.entry =
        ((table request.pair).call untilEnd request.call).1.map (Entry.encode codec) ∧
      decodeAnswer codec run.reply = ((table request.pair).call untilEnd request.call).2 := by
  have ran := scriptOf_cell server redis.recordTtlMillis.toNat
    (database.get? (redis.storageKey request.scope request.key)) (encodeCall codec request.call)
  have shown : (database.get? (redis.storageKey request.scope request.key)).map RedisHash.entry =
      (table request.pair).map (Entry.encode codec) := shows.record request.pair
  have whole : server.untilEnd = untilEnd := by
    funext lease now
    rw [RedisServer.untilEnd, exact, exact, untilEnd]
  rw [shown, whole] at ran
  obtain ⟨record, answer⟩ := Prod.mk.inj
    (call_encode untilEnd (shows.readable request.pair) request.call)
  rw [← ran] at record answer
  rw [runScript_of_taken taken]
  exact ⟨record, answer⟩

/-- With readable responses, the store in Redis is the table. -/
theorem simulates (database : Entries String RedisHash) (table : Table Response)
    (request : Request Response) (back : ∀ response ∈ request.call.response?, codec.ReadsBack response)
    (shows : redis.Shows codec database table) :
    redis.Shows codec (redisRespond redis server codec database request).1
        (tableRespond table request).1 ∧
      (redisRespond redis server codec database request).2 = (tableRespond table request).2 := by
  obtain ⟨record, answer⟩ := runScript_shows exact taken shows request
  refine ⟨⟨?_, ?_⟩, answer⟩
  · intro pair
    by_cases same : pair = request.pair
    · subst same
      rw [tableRespond_own, ← record]
      simp [redisRespond, call, Request.pair, Entries.get?_set]
    · have other : redis.storageKey request.scope request.key ≠ redis.storageKey pair.1 pair.2 := by
        intro text
        obtain ⟨scopes, keys⟩ := redis.storageKey_injective text
        exact same (Prod.ext scopes.symm keys.symm)
      rw [tableRespond_other same, ← shows.record pair]
      simp [redisRespond, call, Entries.get?_set, other]
  · intro pair
    by_cases same : pair = request.pair
    · subst same
      rw [tableRespond_own]
      exact (shows.readable _).call untilEnd back
    · rw [tableRespond_other same]
      exact shows.readable pair

end Simulation

end RedisIdempotencyStore

/-! ## The stores against each other -/

section Stores

variable {redis : RedisIdempotencyStore} {server : RedisServer} {codec : JsonCodec Response}
variable {pairs : Set (String × String)} {responses : Set Response}
variable {requests : List (Request Response)}

/-- So are its answers. -/
theorem redis_answers (exact : ∀ number, server.read number = number)
    (taken : redis.recordTtlMillis.toNat ≤ server.longest)
    (back : ∀ response ∈ responses, codec.ReadsBack response)
    (within : Within pairs responses requests) :
    answers (redisRespond redis server codec) (KeyedMap.empty _) requests =
      answers tableRespond Table.empty requests := by
  have nothing : redis.Shows codec (KeyedMap.empty _) Table.empty := ⟨fun _ => rfl, fun _ => nofun⟩
  refine answers_eq_of_related (fun database table request inside shows => ?_) nothing within
  exact RedisIdempotencyStore.simulates exact taken database table request
    (fun response completed => back response (inside.response response completed)) shows

/-- So are its answers, with different texts. -/
theorem memory_answers (injective : Set.InjOn joined pairs)
    (within : Within pairs responses requests) :
    answers memoryRespond (KeyedMap.empty _) requests =
      answers tableRespond Table.empty requests := by
  have nothing : Shows pairs (KeyedMap.empty _) (Table.empty : Table Response) := fun _ _ => rfl
  exact answers_eq_of_related
    (fun store table request inside => memory_simulates injective store table request inside.pair)
    nothing within

/-- A history that is the table's keeps the calls apart. -/
theorem independent_of_table {State : Type*}
    {respond : State → Request Response → State × Answer Response} {start : State}
    (same : ∀ requests, Within pairs responses requests →
      answers respond start requests = answers tableRespond Table.empty requests) :
    Independent respond start pairs responses := by
  intro requests within pair
  have kept :
      Within pairs responses (requests.filter (fun request => decide (request.pair = pair))) :=
    fun request member => within request (mem_filter.mp member).1
  rw [same requests within, same _ kept]
  exact table_independent Table.empty requests pair

/-- Two requests with one joined text: in memory, the second one finds the lease of the first. -/
theorem memory_collision {first second : String × String} (text : joined first = joined second) :
    answers memoryRespond (KeyedMap.empty _) [Request.first first, Request.first second] =
      [((Request.first first : Request Response), .decided (.ok .execute)),
        (Request.first second, .decided (.ok .inFlight))] := by
  have nothing : ∀ key, Entries.get? (KeyedMap.empty _ : InMemoryStore Response) key = none :=
    fun _ => rfl
  have same : joinedKey first.1 first.2 =
      joinedKey second.1 second.2 := text
  have leased : (0 : UInt64) < saturatingAddU64 0 1 := by decide
  simp [answers, memoryRespond, Request.first, call, begin, nothing,
    Entries.get?_put, same, leased]

/-- With a time to live that the server refuses, nothing can be begun. -/
theorem redis_refused (refused : server.longest < redis.recordTtlMillis.toNat)
    (codec : JsonCodec Response) (pair : String × String) :
    (answers (redisRespond redis server codec) (KeyedMap.empty _) [Request.first pair]).map Prod.snd =
      [.decided (.error expiryRefused)] := by
  have nothing : ∀ key, Entries.get? (KeyedMap.empty _ : Entries String RedisHash) key = none :=
    fun _ => rfl
  simp [answers, redisRespond, RedisIdempotencyStore.call, Request.first, nothing, runScript, scriptOf,
    beginScript, RedisIdempotencyStore.encodeCall, RedisIdempotencyStore.decodeAnswer,
    Nat.not_le.mpr refused, Answer.refused, Except.bind]

/-- A request that is begun, completed and begun again. -/
def Request.repeated (pair : String × String) (response : Response) : List (Request Response) :=
  [.first pair, ⟨pair.1, pair.2, .complete "body" response⟩, .first pair]

/-- In memory a response is replayed as it is. -/
theorem memory_repeated (pair : String × String) (response : Response) :
    (answers memoryRespond (KeyedMap.empty _) (Request.repeated pair response)).map Prod.snd =
      [.decided (.ok .execute), .finished (.ok ()), .decided (.ok (.replay response))] := by
  have nothing : ∀ key, Entries.get? (KeyedMap.empty _ : InMemoryStore Response) key = none :=
    fun _ => rfl
  simp [answers, memoryRespond, Request.repeated, Request.first, call, begin, complete, nothing,
    Entries.get?_put]

/-- In Redis it is read from its text. -/
theorem redis_repeated (taken : redis.recordTtlMillis.toNat ≤ server.longest)
    (pair : String × String) (response : Response) :
    (answers (redisRespond redis server codec) (KeyedMap.empty _)
        (Request.repeated pair response)).map Prod.snd =
      [.decided (.ok .execute), .finished (.ok ()),
        .decided ((codec.decode (codec.encode response)).map .replay)] := by
  have nothing : ∀ key, Entries.get? (KeyedMap.empty _ : Entries String RedisHash) key = none :=
    fun _ => rfl
  simp [answers, redisRespond, RedisIdempotencyStore.call, Request.repeated, Request.first, nothing,
    runScript_of_taken taken, scriptOf, beginScript, completeScript, decisionOf, completionOf,
    RedisIdempotencyStore.encodeCall, RedisIdempotencyStore.decodeAnswer,
    RedisIdempotencyStore.decodeDecision, Except.bind, Entries.get?_set]

/-- The stores agree on the requests of two sets. -/
def Agree (redis : RedisIdempotencyStore) (server : RedisServer) (codec : JsonCodec Response)
    (pairs : Set (String × String)) (responses : Set Response) : Prop :=
  ∀ requests, Within pairs responses requests →
    answers memoryRespond (KeyedMap.empty _) requests =
      answers (redisRespond redis server codec) (KeyedMap.empty _) requests

/-- A time to live that is refused shows in the answers. -/
theorem Agree.taken (agree : Agree redis server codec pairs responses) {pair : String × String}
    (member : pair ∈ pairs) : redis.recordTtlMillis.toNat ≤ server.longest := by
  by_contra refused
  have within : Within pairs responses [Request.first pair] := by
    intro request first
    rw [mem_singleton.mp first]
    exact ⟨member, nofun⟩
  have same := redis_refused (Nat.lt_of_not_le refused) codec pair
  rw [← agree _ within] at same
  simp [answers, memoryRespond, Request.first, call, begin] at same

/-- So does a response that is not read back. -/
theorem Agree.readsBack (agree : Agree redis server codec pairs responses) {pair : String × String}
    (member : pair ∈ pairs) {response : Response} (used : response ∈ responses) :
    codec.ReadsBack response := by
  have within : Within pairs responses (Request.repeated pair response) := by
    intro request inside
    simp only [Request.repeated, mem_cons, not_mem_nil, or_false] at inside
    rcases inside with rfl | rfl | rfl
    · exact ⟨member, nofun⟩
    · exact ⟨member, by rintro _ ⟨⟩; exact used⟩
    · exact ⟨member, nofun⟩
  have same := memory_repeated pair response
  rw [agree _ within, redis_repeated (agree.taken member)] at same
  unfold JsonCodec.ReadsBack
  cases read : codec.decode (codec.encode response) with
  | error => simp [read, Except.map] at same
  | ok => simpa [read, Except.map] using same

/-- And so do two pairs with one text. -/
theorem Agree.injOn (agree : Agree redis server codec pairs responses)
    (exact : ∀ number, server.read number = number) : Set.InjOn joined pairs := by
  intro first here second there text
  by_contra other
  have begins : ∀ responses : Set Response,
      Within pairs responses [Request.first first, (Request.first second : Request Response)] := by
    intro responses request member
    rcases mem_pair.mp member with rfl | rfl
    · exact ⟨here, nofun⟩
    · exact ⟨there, nofun⟩
  have unused : ∀ response ∈ (∅ : Set Response), codec.ReadsBack response := nofun
  have same := agree _ (begins responses)
  rw [memory_collision text, redis_answers exact (agree.taken here) unused (begins ∅)] at same
  -- in the table, each of the two requests has its own record
  simp [answers, tableRespond, Table.empty, Request.first, Request.pair, Cell.call, Cell.begin,
    Function.update_of_ne (Ne.symm other)] at same

end Stores

/-- On the requests of a set of scopes and keys, completed with responses of another set, the two
stores answer alike and each keeps the requests apart, if and only if no two of the scopes and keys
have one joined text, the server takes the time to live of the store in Redis, and every response is
read back from its own text. -/
theorem stores_agree_iff (redis : RedisIdempotencyStore) (server : RedisServer)
    (codec : JsonCodec Response) (exact : ∀ number, server.read number = number)
    (pairs : Set (String × String)) (responses : Set Response) :
    ((∀ requests, Within pairs responses requests →
        answers memoryRespond (KeyedMap.empty _) requests =
          answers (redisRespond redis server codec) (KeyedMap.empty _) requests) ∧
      Independent memoryRespond (KeyedMap.empty _) pairs responses ∧
      Independent (redisRespond redis server codec) (KeyedMap.empty _) pairs responses) ↔
    Set.InjOn joined pairs ∧ (pairs.Nonempty → redis.recordTtlMillis.toNat ≤ server.longest ∧
      ∀ response ∈ responses, codec.ReadsBack response) := by
  constructor
  · rintro ⟨agree, -, -⟩
    refine ⟨Agree.injOn agree exact, ?_⟩
    rintro ⟨pair, member⟩
    exact ⟨Agree.taken agree member, fun response used => Agree.readsBack agree member used⟩
  · rintro ⟨injective, reads⟩
    have inMemory := fun requests (within : Within pairs responses requests) =>
      memory_answers injective within
    have inRedis : ∀ requests, Within pairs responses requests →
        answers (redisRespond redis server codec) (KeyedMap.empty _) requests =
          answers tableRespond Table.empty requests := by
      intro requests within
      cases requests with
      | nil => rfl
      | cons request rest =>
        obtain ⟨taken, back⟩ := reads ⟨_, (within request mem_cons_self).pair⟩
        exact redis_answers exact taken back within
    refine ⟨?_, independent_of_table inMemory, independent_of_table inRedis⟩
    intro requests within
    rw [inMemory requests within, inRedis requests within]

/-! ### A colon in the scope -/

namespace ColonInScope

def redis : RedisIdempotencyStore := ⟨"roze:idempotency:v1", 86400000⟩

/-- Responses that are texts already. -/
def codec : JsonCodec String := ⟨id, .ok⟩

def requests : List (Request String) := [.first ("a:b", "c"), .first ("a", "b:c")]

end ColonInScope

open ColonInScope in
/-- The key `c` of the scope `a:b` and the key `b:c` of the scope `a`. -/
theorem colon_in_scope_shares_record :
    (answers memoryRespond (KeyedMap.empty _) requests).map Prod.snd =
        [.decided (.ok .execute), .decided (.ok .inFlight)] ∧
      (answers (redisRespond redis .exactIntegers codec) (KeyedMap.empty _) requests).map Prod.snd =
        [.decided (.ok .execute), .decided (.ok .execute)] := by
  decide +kernel

/-- Responses in JSON, with natural numbers. A text nested as deep as the limit is refused. -/
noncomputable def jsonCodec : JsonCodec (Json.Value Nat) where
  encode response := response.json.text Json.decimal
  decode text :=
    match Json.canonicalRead Json.decimal Json.recursionLimit text with
    | some response => .ok response
    | none => .error "recursion limit exceeded"

/-- Only the depth of a response matters. -/
theorem jsonCodec_readsBack_iff (response : Json.Value Nat) :
    jsonCodec.ReadsBack response ↔ response.json.depth < Json.recursionLimit := by
  have read : Json.canonicalRead Json.decimal Json.recursionLimit (response.json.text Json.decimal) =
      some response ↔ _ := Json.canonicalRead_eq_some_iff Json.decimal_injective
  rw [and_iff_left (Json.spells_text _)] at read
  rw [← read]
  simp only [JsonCodec.ReadsBack, jsonCodec]
  grind

open ColonInScope in
/-- With one scope, the keys may contain anything, and the responses anything that is not nested too
deep. -/
theorem stores_agree_iff_one_scope :
    let pairs : Set (String × String) := {pair | pair.1 = "orders"}
    let responses : Set (Json.Value Nat) := {response | response.json.depth < Json.recursionLimit}
    (∀ requests, Within pairs responses requests →
        answers memoryRespond (KeyedMap.empty _) requests =
          answers (redisRespond redis .exactIntegers jsonCodec) (KeyedMap.empty _) requests) ∧
      Independent memoryRespond (KeyedMap.empty _) pairs responses ∧
      Independent (redisRespond redis .exactIntegers jsonCodec) (KeyedMap.empty _) pairs responses := by
  intro pairs responses
  have injective : Set.InjOn joined pairs := by
    rintro ⟨_, _⟩ here ⟨_, _⟩ there text
    cases here
    cases there
    have rest := congrArg String.toList text
    simp only [joined, joinedKey, String.toList_append, append_cancel_left_eq]
      at rest
    rw [String.toList_injective rest]
  have taken : redis.recordTtlMillis.toNat ≤ RedisServer.exactIntegers.longest := by decide
  have back : ∀ response ∈ responses, jsonCodec.ReadsBack response :=
    fun response shallow => (jsonCodec_readsBack_iff response).mpr shallow
  exact (stores_agree_iff redis .exactIntegers jsonCodec (fun _ => rfl) _ _).mpr
    ⟨injective, fun _ => ⟨taken, back⟩⟩

end Roze.Idempotency
