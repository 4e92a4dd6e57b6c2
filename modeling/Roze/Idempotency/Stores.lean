import Roze.Library.Execution
import Roze.Library.KeyedMap
import Roze.Library.MachineInteger
import Roze.Library.Text

/-!
# Idempotency stores

A worker begins a request under a scope and a key, with a fingerprint of the request. It is told
to execute, or gets the response of a completed request, or learns that another worker holds the
lease or that the key was used for another request. A worker that was told to execute completes
or fails the request.

The store in memory keeps records under the joined text of scope and key. The one in Redis keeps a
hash under a text that also has the length of the scope, and runs a script for each call; a script
may set the time to live of its key. The numbers of a script are read by `tonumber`, which is
exact up to `2 ^ 53`. `connect` takes any time to live but zero, and the server refuses the longest of
them. How a response is written as a text is a parameter.
-/

namespace Roze.Idempotency

open Roze.Library

universe u

/-- What a worker is told. -/
inductive Decision (Response : Type u) where
  | execute
  | replay (response : Response)
  | inFlight
  | conflict
deriving DecidableEq

/-- A call for one scope and key. -/
inductive Call (Response : Type u) where
  | begin (fingerprint : String) (nowMillis leaseMillis : UInt64)
  | complete (fingerprint : String) (response : Response)
  | fail (fingerprint : String)
deriving DecidableEq

/-- What a call returns. -/
inductive Answer (Response : Type u) where
  | decided (decision : Except String (Decision Response))
  | finished (outcome : Except String Unit)
deriving DecidableEq

def notStarted : String := "idempotency request was not started"

def fingerprintChanged : String := "idempotency request fingerprint changed"

/-! ## In memory -/

/-- A request that was begun. -/
structure IdempotencyRecord (Response : Type u) where
  fingerprint : String
  response : Option Response
  leaseUntilMillis : Option UInt64
deriving DecidableEq

/-- The records by the joined text. -/
abbrev InMemoryStore (Response : Type u) := Entries String (IdempotencyRecord Response)

namespace InMemoryStore

variable {Response : Type u}

def joinedKey (scope key : String) : String := scope ++ ":" ++ key

/-- Begin a request, or learn why not. -/
def begin (store : InMemoryStore Response) (scope key fingerprint : String)
    (nowMillis leaseMillis : UInt64) : InMemoryStore Response × Decision Response :=
  match store.get? (joinedKey scope key) with
  | some record =>
      if record.fingerprint ≠ fingerprint then (store, .conflict)
      else
        match record.response with
        | some response => (store, .replay response)
        | none =>
            if record.leaseUntilMillis.any (fun lease => decide (nowMillis < lease)) then
              (store, .inFlight)
            else
              (store.put (joinedKey scope key) { record with
                leaseUntilMillis := some (saturatingAddU64 nowMillis leaseMillis) }, .execute)
  | none =>
      (store.put (joinedKey scope key)
        ⟨fingerprint, none, some (saturatingAddU64 nowMillis leaseMillis)⟩, .execute)

/-- Store the response, whoever holds the lease. -/
def complete (store : InMemoryStore Response) (scope key fingerprint : String)
    (response : Response) : InMemoryStore Response × Except String Unit :=
  match store.get? (joinedKey scope key) with
  | none => (store, .error notStarted)
  | some record =>
      if record.fingerprint ≠ fingerprint then (store, .error fingerprintChanged)
      else
        (store.put (joinedKey scope key)
          { record with response := some response, leaseUntilMillis := none }, .ok ())

/-- Drop a record that has no response. -/
def fail (store : InMemoryStore Response) (scope key fingerprint : String) :
    InMemoryStore Response × Except String Unit :=
  if (store.get? (joinedKey scope key)).any (fun record =>
      decide (record.fingerprint = fingerprint) && record.response.isNone) then
    (store.erase (joinedKey scope key), .ok ())
  else (store, .ok ())

def call (store : InMemoryStore Response) (scope key : String) :
    Call Response → InMemoryStore Response × Answer Response
  | .begin fingerprint nowMillis leaseMillis =>
      (store.begin scope key fingerprint nowMillis leaseMillis).map id (fun decision =>
        .decided (.ok decision))
  | .complete fingerprint response =>
      (store.complete scope key fingerprint response).map id .finished
  | .fail fingerprint => (store.fail scope key fingerprint).map id .finished

end InMemoryStore

/-! ## The scripts in Redis -/

/-- How the scripts of a server read a number, and the longest time to live that `PEXPIRE` takes, a
signed number of 64 bits. -/
structure RedisServer where
  read : Nat → Nat
  exact : ∀ number, number ≤ 2 ^ 53 → read number = number
  longest : Nat
  signed : longest < 2 ^ 63

/-- A server that reads every number as it is and takes every signed time to live. -/
def RedisServer.exactIntegers : RedisServer := ⟨id, fun _ _ => rfl, 2 ^ 63 - 1, by decide⟩

/-- The fields of a hash that the scripts use. -/
structure RedisHash where
  fingerprint : String
  response : Option String
  leaseUntil : Option Nat
deriving DecidableEq, Repr

/-- What a script leaves under its key, the time to live it sets, and what it returns. -/
structure ScriptRun (Reply : Type) where
  hash : Option RedisHash
  pexpire : Option Nat
  reply : Reply

/-- `REDIS_IDEMPOTENCY_BEGIN` -/
def beginScript (server : RedisServer) (hash : Option RedisHash) (fingerprint : String)
    (now leaseUntil ttl : Nat) : ScriptRun (String × String) :=
  match hash with
  | some found =>
      if found.fingerprint ≠ fingerprint then ⟨hash, none, "conflict", ""⟩
      else
        match found.response with
        | some response => ⟨hash, none, "replay", response⟩
        | none =>
            if server.read now < server.read (found.leaseUntil.getD 0) then
              ⟨hash, none, "in_flight", ""⟩
            else ⟨some { found with leaseUntil := some leaseUntil }, some ttl, "execute", ""⟩
  | none => ⟨some ⟨fingerprint, none, some leaseUntil⟩, some ttl, "execute", ""⟩

/-- `REDIS_IDEMPOTENCY_COMPLETE` -/
def completeScript (hash : Option RedisHash) (fingerprint response : String) (ttl : Nat) :
    ScriptRun Int :=
  match hash with
  | none => ⟨hash, none, 0⟩
  | some found =>
      if found.fingerprint ≠ fingerprint then ⟨hash, none, -1⟩
      else ⟨some { found with response := some response, leaseUntil := none }, some ttl, 1⟩

/-- `REDIS_IDEMPOTENCY_FAIL` -/
def failScript (hash : Option RedisHash) (fingerprint : String) : ScriptRun Int :=
  match hash with
  | some found =>
      if found.fingerprint = fingerprint ∧ found.response = none then ⟨none, none, 1⟩
      else ⟨hash, none, 0⟩
  | none => ⟨hash, none, 0⟩

/-- The decision that a reply of the first script stands for. -/
def decisionOf (reply : String × String) : Except String (Decision String) :=
  if reply.1 = "execute" then .ok .execute
  else if reply.1 = "in_flight" then .ok .inFlight
  else if reply.1 = "conflict" then .ok .conflict
  else if reply.1 = "replay" then .ok (.replay reply.2)
  else .error ("unknown Redis idempotency decision: " ++ reply.1)

def completionOf (reply : Int) : Except String Unit :=
  if reply = 1 then .ok ()
  else if reply = 0 then .error notStarted
  else if reply = -1 then .error fingerprintChanged
  else .error ("unknown Redis idempotency completion result: " ++ toString reply)

/-- The script of a call for one key, with the responses as texts. -/
def scriptOf (server : RedisServer) (ttl : Nat) (hash : Option RedisHash) :
    Call String → ScriptRun (Answer String)
  | .begin fingerprint nowMillis leaseMillis =>
      let run := beginScript server hash fingerprint nowMillis.toNat
        (saturatingAddU64 nowMillis leaseMillis).toNat ttl
      ⟨run.hash, run.pexpire, .decided (decisionOf run.reply)⟩
  | .complete fingerprint response =>
      let run := completeScript hash fingerprint response ttl
      ⟨run.hash, run.pexpire, .finished (completionOf run.reply)⟩
  | .fail fingerprint =>
      let run := failScript hash fingerprint
      ⟨run.hash, run.pexpire, .finished (.ok ())⟩

def expiryRefused : String := "value is not an integer or out of range"

/-- The answer of a call whose script failed. -/
def Answer.refused {Response : Type u} : Answer Response → Answer Response
  | .decided _ => .decided (.error expiryRefused)
  | .finished _ => .finished (.error expiryRefused)

/-- A call for one key. `PEXPIRE` comes after the writes of a script; when the server refuses the time
to live, the script fails there and its writes stay. -/
def runScript (server : RedisServer) (ttl : Nat) (hash : Option RedisHash) (call : Call String) :
    ScriptRun (Answer String) :=
  let run := scriptOf server ttl hash call
  if run.pexpire.all (fun time => decide (time ≤ server.longest)) then run
  else ⟨run.hash, none, run.reply.refused⟩

/-! ## The store in Redis -/

/-- How responses are written as JSON and read back. -/
structure JsonCodec (Response : Type u) where
  encode : Response → String
  decode : String → Except String Response

structure RedisIdempotencyStore where
  keyPrefix : String
  recordTtlMillis : UInt64
deriving DecidableEq, Repr

namespace RedisIdempotencyStore

variable {Response : Type u}

def trimEndMatches (ch : Char) (text : String) : String :=
  String.ofList (text.toList.rdropWhile (· == ch))

/-- The checks of the store in Redis. -/
def connect (keyPrefix : String) (recordTtlMillis : UInt64) :
    Except String RedisIdempotencyStore :=
  if (trim keyPrefix).isEmpty then .error "Redis idempotency key prefix must not be empty"
  else if recordTtlMillis = 0 then .error "Redis idempotency record TTL must be positive"
  else .ok ⟨trimEndMatches ':' keyPrefix, recordTtlMillis⟩

/-- The length is the one in bytes. -/
def storageKey (store : RedisIdempotencyStore) (scope key : String) : String :=
  store.keyPrefix ++ ":" ++ toString scope.utf8ByteSize ++ ":" ++ scope ++ ":" ++ key

def encodeCall (codec : JsonCodec Response) : Call Response → Call String
  | .begin fingerprint nowMillis leaseMillis => .begin fingerprint nowMillis leaseMillis
  | .complete fingerprint response => .complete fingerprint (codec.encode response)
  | .fail fingerprint => .fail fingerprint

def decodeDecision (codec : JsonCodec Response) :
    Decision String → Except String (Decision Response)
  | .execute => .ok .execute
  | .replay response => (codec.decode response).map .replay
  | .inFlight => .ok .inFlight
  | .conflict => .ok .conflict

def decodeAnswer (codec : JsonCodec Response) : Answer String → Answer Response
  | .decided decision => .decided (decision.bind (decodeDecision codec))
  | .finished outcome => .finished outcome

/-- A call on a database whose keys do not expire. -/
def call (store : RedisIdempotencyStore) (server : RedisServer) (codec : JsonCodec Response)
    (database : Entries String RedisHash) (scope key : String) (call : Call Response) :
    Entries String RedisHash × Answer Response :=
  let run := runScript server store.recordTtlMillis.toNat
    (database.get? (store.storageKey scope key)) (encodeCall codec call)
  (database.set (store.storageKey scope key) run.hash, decodeAnswer codec run.reply)

end RedisIdempotencyStore

end Roze.Idempotency
