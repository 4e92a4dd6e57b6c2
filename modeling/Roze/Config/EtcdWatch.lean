import Roze.Library.Execution
import Roze.Library.JsonReader
import Roze.Library.LineStream

/-!
# Watching a configuration in etcd

The initial value is read, and then a watch is created that delivers the later ones. The watch is
created again when its stream fails, from the revision after the last one that was seen. Until one
was seen it is created without a revision, and then delivers only what is written after its
creation.
-/

namespace Roze.Config

open Roze.Library Roze.Library.Json List Option

variable {Number : Type} {format : NumberFormat Number}

/-! ## Responses -/

/-- A key with its value, in base64. -/
structure EtcdKv where
  value : String
  modRevision : Option String

/-- The revision of the store at a response. -/
structure EtcdWatchHeader where
  revision : Option String

/-- A write of the key. -/
structure EtcdWatchEvent where
  kv : Option EtcdKv

/-- The events of a response. -/
structure EtcdWatchResult where
  header : Option EtcdWatchHeader
  events : List EtcdWatchEvent

/-- A response, which may have no result. -/
structure EtcdWatchResponse where
  result : Option EtcdWatchResult

/-- What an event says: a new value, a revision, or both. -/
structure EtcdWatchUpdate where
  value : Option String
  revision : Option Int

section Fields

/-- A text, and nothing else. -/
def readString : Json Number → Option String
  | .string text => some text
  | _ => none

/-- The members of an object; other values have no fields. -/
def readObject {Value : Type} (read : Json Number → Option Value) (json : Json Number) : Option Value :=
  match json with
  | .object _ => read json
  | _ => none

/-- A field that may be missing or null. -/
def readOptional {Value : Type} (read : Json Number → Option Value) :
    Option (Json Number) → Option (Option Value)
  | none => some none
  | some .null => some none
  | some json => (read json).map some

/-- A list that may be missing. -/
def readList {Value : Type} (read : Json Number → Option Value) :
    Option (Json Number) → Option (List Value)
  | none => some []
  | some (.array items) => items.mapM read
  | some _ => none

/-- A value that is missing is empty. -/
def EtcdKv.read : Json Number → Option EtcdKv :=
  readObject (fun json => do
    let value ← (json.get? "value").elim (some "") readString
    let modRevision ← readOptional readString (json.get? "mod_revision")
    some ⟨value, modRevision⟩)

/-- The revision is a text. -/
def EtcdWatchHeader.read : Json Number → Option EtcdWatchHeader :=
  readObject (fun json => (readOptional readString (json.get? "revision")).map EtcdWatchHeader.mk)

/-- The key may be missing. -/
def EtcdWatchEvent.read : Json Number → Option EtcdWatchEvent :=
  readObject (fun json => (readOptional EtcdKv.read (json.get? "kv")).map EtcdWatchEvent.mk)

/-- Without a list there are no events. -/
def EtcdWatchResult.read : Json Number → Option EtcdWatchResult :=
  readObject (fun json => do
    let header ← readOptional EtcdWatchHeader.read (json.get? "header")
    let events ← readList EtcdWatchEvent.read (json.get? "events")
    some ⟨header, events⟩)

/-- The result may be missing. -/
def EtcdWatchResponse.read : Json Number → Option EtcdWatchResponse :=
  readObject (fun json => (readOptional EtcdWatchResult.read (json.get? "result")).map EtcdWatchResponse.mk)

end Fields

/-- Why a stream fails: a line, a value or bytes that cannot be read. -/
inductive WatchFailure where
  | json
  | value
  | utf8
deriving DecidableEq

/-- Base64 texts. A text is read from them when the bytes are those of a text. -/
structure Base64 where
  encode : String → String
  decode : String → Option String
  decode_encode : ∀ text, decode (encode text) = some text
  encode_empty : encode "" = ""

/-- An empty value is no value, and only its revision counts. -/
def EtcdWatchEvent.update (codec : Base64) (headerRevision : Option Int) (event : EtcdWatchEvent) :
    Except WatchFailure (Option EtcdWatchUpdate) :=
  match event.kv with
  | some kv =>
      let revision := (kv.modRevision.bind parseSigned64).or headerRevision
      if kv.value = "" then .ok (some ⟨none, revision⟩)
      else
        match codec.decode kv.value with
        | some value => .ok (some ⟨some value, revision⟩)
        | none => .error .value
  | none => .ok (headerRevision.map (fun revision => ⟨none, some revision⟩))

/-- The updates of a response, or the first failure. -/
def EtcdWatchResponse.updates (codec : Base64) (response : EtcdWatchResponse) :
    Except WatchFailure (List EtcdWatchUpdate) :=
  match response.result with
  | none => .ok []
  | some result =>
      let headerRevision := (result.header.bind EtcdWatchHeader.revision).bind parseSigned64
      (result.events.mapM (EtcdWatchEvent.update codec headerRevision)).map List.reduceOption

/-- The updates of a line. A blank one has none. -/
def etcdWatchUpdates (reader : Reader format recursionLimit) (codec : Base64) (raw : String) :
    Except WatchFailure (List EtcdWatchUpdate) :=
  if trim raw = "" then .ok []
  else
    match (reader.read raw).bind (fun value => EtcdWatchResponse.read value.json) with
    | none => .error .json
    | some response => response.updates codec

/-! ## The watch -/

/-- A value that is written to the key. Revisions are 64-bit numbers. -/
structure Write where
  revision : Nat
  value : String
  representable : revision < 2 ^ 63
deriving DecidableEq

/-- The event of a write. -/
def Write.event (codec : Base64) (write : Write) : EtcdWatchEvent :=
  ⟨some ⟨codec.encode write.value, some (toString write.revision)⟩⟩

/-- A response of the watch: an object on a line of its own, with the events of some writes. A
response to the creation, or one that only reports progress, has none. -/
structure WatchResponse (reader : Reader format recursionLimit) (codec : Base64) where
  text : String
  value : Json.Value Number
  writes : List Write
  reads : reader.read text = some value
  opens : text.toList.head? = some '{'
  closes : text.toList.getLast? = some '}'
  single : '\n' ∉ text.toList
  carries : ∃ response, EtcdWatchResponse.read value.json = some response ∧
    (response.result.elim [] EtcdWatchResult.events) = writes.map (Write.event codec)

/-- A stream of the watch, with what the server has sent on it and what has not yet been received. -/
structure Connection (reader : Reader format recursionLimit) (codec : Base64) where
  /-- The first revision that is delivered. -/
  start : Int
  responses : List (WatchResponse reader codec)
  left : ByteArray
  buffer : String

/-- What outlives the streams: the last revision, and the channel. -/
structure WatchSession where
  lastRevision : Int
  sent : List String

/-- The revision never goes back, and a value is sent on. -/
def WatchSession.apply (session : WatchSession) (update : EtcdWatchUpdate) : WatchSession where
  lastRevision := update.revision.elim session.lastRevision (max session.lastRevision)
  sent := session.sent ++ update.value.toList

/-- The key in etcd and the task that watches it. The history begins after the read of the initial
value. -/
structure EtcdWatch (reader : Reader format recursionLimit) (codec : Base64) where
  history : List Write
  session : WatchSession
  connection : Option (Connection reader codec)

/-- What happens to the key and to its watch. -/
inductive EtcdAction (reader : Reader format recursionLimit) (codec : Base64) where
  | write (write : Write)
  /-- A watch is created. -/
  | connect
  /-- The server sends a response. -/
  | respond (response : WatchResponse reader codec)
  /-- Some bytes of the stream arrive. -/
  | chunk (count : Nat)
  /-- The stream ends or fails. -/
  | fail

/-- A value that is written is not empty. -/
def EtcdAction.filled {reader : Reader format recursionLimit} {codec : Base64} :
    EtcdAction reader codec → Bool
  | .write written => written.value != ""
  | _ => true

namespace EtcdWatch

variable {reader : Reader format recursionLimit} {codec : Base64}

/-- Nothing is written and no stream is open. -/
def new : EtcdWatch reader codec := ⟨[], ⟨0, []⟩, none⟩

variable (readRevision : Nat)

/-- The revision of the last write. -/
def latest (watch : EtcdWatch reader codec) : Nat :=
  watch.history.getLast?.elim readRevision Write.revision

/-- The first revision that a new watch delivers: the requested one, or the next one. -/
def startRevision (watch : EtcdWatch reader codec) : Int :=
  if 0 < watch.session.lastRevision then watch.session.lastRevision + 1 else watch.latest readRevision + 1

/-- The writes that a stream delivers. -/
def delivers (watch : EtcdWatch reader codec) (start : Int) : List Write :=
  watch.history.filter (fun write => start ≤ write.revision)

/-- One more write. -/
def append (watch : EtcdWatch reader codec) (write : Write) : EtcdWatch reader codec :=
  { watch with history := watch.history ++ [write] }

/-- A new stream, from the revision after the last one seen. -/
def create (watch : EtcdWatch reader codec) : EtcdWatch reader codec :=
  { watch with connection := some ⟨watch.startRevision readRevision, [], .empty, ""⟩ }

/-- The stream is gone. -/
def disconnect (watch : EtcdWatch reader codec) : EtcdWatch reader codec :=
  { watch with connection := none }

/-- The server sends the next writes, in their order. -/
def respond (watch : EtcdWatch reader codec) (connection : Connection reader codec)
    (response : WatchResponse reader codec) : Option (EtcdWatch reader codec) :=
  let responses := connection.responses ++ [response]
  if responses.flatMap WatchResponse.writes <+: watch.delivers connection.start then
    some { watch with
      connection := some { connection with
        responses
        left := connection.left ++ (response.text ++ "\n").toByteArray } }
  else none

/-- One round of the loop over the chunks. -/
def takeChunk (watch : EtcdWatch reader codec) (connection : Connection reader codec) (count : Nat) :
    EtcdWatch reader codec :=
  match String.fromUTF8? (connection.left.extract 0 count) with
  | none => watch.disconnect
  | some text =>
      let taken := LineStream.take (etcdWatchUpdates reader codec) (connection.buffer ++ text)
      let session := taken.1.foldl WatchSession.apply watch.session
      match taken.2 with
      | .error _ => { watch with session }.disconnect
      | .ok buffer =>
          { watch with
            session
            connection := some { connection with
              left := connection.left.extract count connection.left.size
              buffer } }

/-- One step; there is none when its condition does not hold. -/
def step (watch : EtcdWatch reader codec) :
    EtcdAction reader codec → Option (EtcdWatch reader codec)
  | .write write =>
      if watch.latest readRevision < write.revision then some (watch.append write) else none
  | .connect =>
      match watch.connection with
      | some _ => none
      | none => some (watch.create readRevision)
  | .respond response => watch.connection.bind (fun connection => watch.respond connection response)
  | .chunk count => watch.connection.map (fun connection => watch.takeChunk connection count)
  | .fail => watch.connection.map (fun _ => watch.disconnect)

/-- Writes, failures and reconnects in any order. -/
def machine : Machine (EtcdWatch reader codec) (EtcdAction reader codec) Unit where
  step watch action := (watch.step readRevision action).map (fun next => (next, ()))

/-- The stream has delivered all that it has to, and everything was received. -/
def CaughtUp (watch : EtcdWatch reader codec) (connection : Connection reader codec) : Prop :=
  connection.left = .empty ∧
    connection.responses.flatMap WatchResponse.writes = watch.delivers connection.start

/-- The values that were sent are the first ones that were written, in order and each once; and when a
stream has caught up they are all of them. -/
structure Delivered (watch : EtcdWatch reader codec) : Prop where
  ordered : watch.session.sent <+: watch.history.map Write.value
  complete : ∀ connection, watch.connection = some connection → watch.CaughtUp connection →
    watch.session.sent = watch.history.map Write.value

/-- A watch is created without a revision only when nothing was written since the read. -/
def covered (watch : EtcdWatch reader codec) : EtcdAction reader codec → Bool
  | .connect => decide (0 < watch.session.lastRevision) || watch.history.isEmpty
  | _ => true

end EtcdWatch

/-! ## What a response holds -/

/-- An event without a value carries its revision only. -/
def Write.update (write : Write) : EtcdWatchUpdate :=
  ⟨if write.value = "" then none else some write.value, some write.revision⟩

/-- Only the empty value has the empty text. -/
theorem Base64.encode_eq_empty_iff (codec : Base64) (text : String) :
    codec.encode text = "" ↔ text = "" := by
  constructor
  · intro empty
    have read := codec.decode_encode text
    rw [empty, ← codec.encode_empty, codec.decode_encode] at read
    simp_all
  · rintro rfl
    exact codec.encode_empty

/-- The event of a write says what was written. -/
theorem update_event (codec : Base64) (headerRevision : Option Int) (write : Write) :
    (write.event codec).update codec headerRevision = .ok (some write.update) := by
  have revision : parseSigned64 (toString write.revision) = some (write.revision : Int) :=
    parseSigned64_toString write.representable
  simp only [EtcdWatchEvent.update, Write.event, Write.update, bind_some, revision,
    some_or, codec.encode_eq_empty_iff, codec.decode_encode]
  split <;> rfl

/-- So do the events of several writes. -/
theorem mapM_update (codec : Base64) (headerRevision : Option Int) (writes : List Write) :
    (writes.map (Write.event codec)).mapM (EtcdWatchEvent.update codec headerRevision) =
      .ok (writes.map (fun write => some write.update)) := by
  induction writes with
  | nil => rfl
  | cons write writes ih =>
    rw [map_cons, mapM_cons, update_event, ih]
    rfl

namespace WatchResponse

variable {reader : Reader format recursionLimit} {codec : Base64}

section

variable (response : WatchResponse reader codec)
include response

/-- A response is not a blank line. -/
theorem text_ne_empty : response.text ≠ "" := by
  intro empty
  have opens := response.opens
  simp_all

/-- Nothing is cut off a response. -/
theorem trim_text : trim response.text = response.text :=
  trim_of_ends response.opens response.closes (by decide) (by decide)

/-- The updates of a response are those of its writes. -/
theorem updates_eq :
    etcdWatchUpdates reader codec response.text = .ok (response.writes.map Write.update) := by
  obtain ⟨body, read, carried⟩ := response.carries
  rw [etcdWatchUpdates, response.trim_text, if_neg response.text_ne_empty, response.reads,
    bind_some, read]
  dsimp only
  rw [EtcdWatchResponse.updates]
  cases result : body.result with
  | none => simp_all
  | some =>
    rw [result] at carried
    dsimp only [elim_some] at carried ⊢
    rw [carried, mapM_update]
    simp [Except.map, List.reduceOption]

end

/-- A response is a text of the stream: no beginning of it can be read. -/
def frame (response : WatchResponse reader codec) :
    LineStream.Frame (etcdWatchUpdates reader codec) where
  text := response.text
  items := response.writes.map Write.update
  decodes := response.updates_eq
  filled := response.text_ne_empty
  trimmed := response.trim_text
  single := response.single
  whole first last split begun unfinished := by
    have unread : reader.read first = none := by
      rw [← Option.not_isSome_iff_eq_none]
      intro readable
      exact unfinished (reader.eq_empty_of_readable response.opens response.closes
        (by rw [response.reads]; rfl) split begun readable)
    have begins : first.toList.head? = some '{' := by
      have opens := response.opens
      simp_all
    have dark : trim first ≠ "" := trim_ne_empty (List.mem_of_mem_head? begins) (by decide)
    exact ⟨.json, by rw [etcdWatchUpdates, if_neg dark, unread]; rfl⟩

/-- The updates of several responses. -/
theorem flatMap_items (responses : List (WatchResponse reader codec)) :
    (responses.map frame).flatMap LineStream.Frame.items =
      (responses.flatMap WatchResponse.writes).map Write.update := by
  induction responses with
  | nil => rfl
  | cons response responses ih =>
    rw [map_cons, flatMap_cons, flatMap_cons, map_append, ih]
    rfl

end WatchResponse

/-! ## What has been seen -/

/-- The session after some writes have been seen. -/
def sessionOf (seen : List Write) : WatchSession where
  lastRevision := seen.foldl (fun revision write => max revision (write.revision : Int)) 0
  sent := (seen.filter (fun write => write.value ≠ "")).map Write.value

/-- One more write is seen. -/
theorem sessionOf_snoc (seen : List Write) (write : Write) :
    (sessionOf seen).apply write.update = sessionOf (seen ++ [write]) := by
  simp only [WatchSession.apply, sessionOf, Write.update, foldl_append, filter_append,
    map_append, foldl_cons, foldl_nil, elim_some]
  grind

/-- More writes are seen. -/
theorem sessionOf_append (seen writes : List Write) :
    (writes.map Write.update).foldl WatchSession.apply (sessionOf seen) = sessionOf (seen ++ writes) := by
  induction writes generalizing seen with
  | nil => simp
  | cons write writes ih =>
    rw [map_cons, foldl_cons, sessionOf_snoc, ih, append_assoc,
      singleton_append]

/-- The last revision is that of some write that has been seen, and not below that of another. -/
theorem lastRevision_sessionOf (seen : List Write) :
    (∀ write ∈ seen, (write.revision : Int) ≤ (sessionOf seen).lastRevision) ∧
      ((sessionOf seen).lastRevision = 0 ∨
        ∃ write ∈ seen, (sessionOf seen).lastRevision = write.revision) := by
  induction seen using List.reverseRecOn with
  | nil => exact ⟨nofun, .inl rfl⟩
  | append_singleton seen write ih =>
    obtain ⟨bound, reached⟩ := ih
    have last : (sessionOf (seen ++ [write])).lastRevision =
        max (sessionOf seen).lastRevision (write.revision : Int) := by
      rw [sessionOf, foldl_append]
      rfl
    rw [last]
    constructor
    · grind
    · rcases max_choice (sessionOf seen).lastRevision (write.revision : Int) with old | new
      · grind
      · simp_all

/-- Revisions grow from the read of the initial value on. -/
def Ascending (readRevision : Nat) (history : List Write) : Prop :=
  (readRevision :: history.map Write.revision).Pairwise (· < ·)

/-- What precedes a revision and what follows it. -/
theorem Ascending.split {readRevision : Nat} {history : List Write}
    (ascending : Ascending readRevision history) (start : Int) :
    history.filter (fun write => ¬ start ≤ write.revision) ++
      history.filter (fun write => start ≤ write.revision) = history := by
  have ordered : (history.map Write.revision).Pairwise (· < ·) := (pairwise_cons.mp ascending).2
  clear ascending
  induction history with
  | nil => rfl
  | cons write history ih =>
    rw [map_cons, pairwise_cons] at ordered
    by_cases late : start ≤ write.revision
    · -- then all that follow are late too
      have later (other : Write) (member : other ∈ history) : start ≤ other.revision := by
        have above := ordered.1 _ (mem_map_of_mem member)
        omega
      have none : history.filter (fun write => ¬ start ≤ write.revision) = [] := by
        rw [filter_eq_nil_iff]
        simp_all
      have all : history.filter (fun write => start ≤ write.revision) = history := by
        rw [filter_eq_self]
        intro other member
        simpa using later other member
      grind
    · simp_all

/-- The writes up to the last revision that has been seen are those that have been seen. -/
theorem Ascending.filter_seen {readRevision : Nat} {seen unseen : List Write}
    (ascending : Ascending readRevision (seen ++ unseen))
    (some : 0 < (sessionOf seen).lastRevision) :
    (seen ++ unseen).filter (fun write => ¬ (sessionOf seen).lastRevision + 1 ≤ write.revision) = seen := by
  obtain ⟨bound, reached⟩ := lastRevision_sessionOf seen
  obtain ⟨last, inside, same⟩ : ∃ write ∈ seen, (sessionOf seen).lastRevision = write.revision := by
    grind
  have all : seen.filter (fun write => ¬ (sessionOf seen).lastRevision + 1 ≤ write.revision) = seen := by
    rw [filter_eq_self]
    simp_all
  have none : unseen.filter (fun write => ¬ (sessionOf seen).lastRevision + 1 ≤ write.revision) = [] := by
    rw [filter_eq_nil_iff]
    intro write member
    have ordered := (pairwise_cons.mp ascending).2
    grind
  rw [filter_append, all, none, append_nil]

namespace EtcdWatch

variable {reader : Reader format recursionLimit} {codec : Base64} {readRevision : Nat}
  {watch next : EtcdWatch reader codec}

/-- Revisions up to the latest one. -/
theorem le_latest (ascending : Ascending readRevision watch.history) :
    readRevision ≤ watch.latest readRevision ∧
      ∀ write ∈ watch.history, write.revision ≤ watch.latest readRevision := by
  obtain ⟨first, ordered⟩ := pairwise_cons.mp ascending
  rw [latest]
  rcases eq_nil_or_concat watch.history with none | ⟨_, _, some⟩
  · simp_all
  · rw [some] at first ordered ⊢
    rw [concat_eq_append] at first ordered ⊢
    rw [getLast?_concat, elim_some]
    constructor
    · exact (first _ (mem_map_of_mem (mem_append_right _ (mem_singleton_self _)))).le
    · grind

/-- The stream goes on where the earlier ones ended. Some responses are done with, and what is left of
the stream begins in the next one. -/
structure Linked (watch : EtcdWatch reader codec) (readRevision : Nat) (seen : List Write)
    (connection : Connection reader codec) (done rest : List (WatchResponse reader codec))
    (left : String) : Prop where
  responses : connection.responses = done ++ rest
  seen : seen = watch.history.filter (fun write => ¬ connection.start ≤ write.revision) ++
    done.flatMap WatchResponse.writes
  delivered : connection.responses.flatMap WatchResponse.writes <+: watch.delivers connection.start
  bytes : connection.left = left.toByteArray
  standing : LineStream.Standing connection.buffer left (rest.map WatchResponse.frame)
  start : connection.start ≤ watch.latest readRevision + 1

/-- The writes that have been seen are the first ones. -/
structure Tracks (watch : EtcdWatch reader codec) (readRevision : Nat) (seen : List Write) : Prop where
  ascending : Ascending readRevision watch.history
  first : seen <+: watch.history
  session : watch.session = sessionOf seen
  linked : ∀ connection, watch.connection = some connection →
    ∃ done rest left, watch.Linked readRevision seen connection done rest left

/-- At first nothing is seen. -/
theorem Tracks.new (readRevision : Nat) : (new : EtcdWatch reader codec).Tracks readRevision [] :=
  ⟨pairwise_singleton _ _, prefix_refl _, rfl, nofun⟩

variable {seen : List Write}

/-- A watch that ends keeps what has been seen. -/
theorem Tracks.disconnect (tracks : watch.Tracks readRevision seen) :
    watch.disconnect.Tracks readRevision seen :=
  ⟨tracks.ascending, tracks.first, tracks.session, nofun⟩

/-- A write is not seen at once. -/
theorem Tracks.append {write : Write} (tracks : watch.Tracks readRevision seen)
    (later : watch.latest readRevision < write.revision) :
    (watch.append write).Tracks readRevision seen where
  ascending := by
    obtain ⟨above, bound⟩ := le_latest tracks.ascending
    rw [Ascending, EtcdWatch.append, map_append, ← cons_append, pairwise_append]
    refine ⟨tracks.ascending, pairwise_singleton _ _, fun earlier member last same => ?_⟩
    grind
  first := tracks.first.trans (prefix_append _ _)
  session := tracks.session
  linked connection same := by
    obtain ⟨done, rest, left, linked⟩ := tracks.linked connection same
    have late : connection.start ≤ write.revision := by
      have start := linked.start
      omega
    refine ⟨done, rest, left, linked.responses, ?_, ?_, linked.bytes, linked.standing, ?_⟩
    · rw [EtcdWatch.append, filter_append, filter_cons_of_neg (by simpa using late),
        filter_nil, append_nil]
      exact linked.seen
    · refine linked.delivered.trans ?_
      rw [delivers, delivers, EtcdWatch.append, filter_append]
      exact prefix_append _ _
    · rw [latest, EtcdWatch.append, getLast?_concat, elim_some]
      omega

/-- A new watch begins after what has been seen. -/
theorem Tracks.create (tracks : watch.Tracks readRevision seen)
    (covered : watch.covered .connect = true) : (watch.create readRevision).Tracks readRevision seen where
  ascending := tracks.ascending
  first := tracks.first
  session := tracks.session
  linked connection same := by
    cases same
    refine ⟨[], [], "", rfl, ?_, nil_prefix, rfl, .between [], ?_⟩
    · rw [flatMap_nil, append_nil, EtcdWatch.create, startRevision, tracks.session]
      rw [EtcdWatch.covered, tracks.session, Bool.or_eq_true, decide_eq_true_eq] at covered
      obtain ⟨_, whole⟩ := tracks.first
      have ascending := tracks.ascending
      rw [← whole] at ascending ⊢
      by_cases some : 0 < (sessionOf seen).lastRevision
      · rw [if_pos some, ascending.filter_seen some]
      · rcases covered with positive | none
        · exact absurd positive some
        · simp_all
    · change watch.startRevision readRevision ≤ watch.latest readRevision + 1
      rw [startRevision, tracks.session]
      split
      · rcases (lastRevision_sessionOf seen).2 with _ | ⟨write, member, _⟩
        · omega
        · have bound := (le_latest tracks.ascending).2 write (tracks.first.subset member)
          omega
      · exact Int.le_refl _

variable {connection : Connection reader codec} {response : WatchResponse reader codec}

/-- A response changes nothing until it is received. -/
theorem Tracks.respond (tracks : watch.Tracks readRevision seen)
    (same : watch.connection = some connection)
    (taken : watch.respond connection response = some next) : next.Tracks readRevision seen := by
  obtain ⟨done, rest, left, linked⟩ := tracks.linked connection same
  obtain ⟨delivered, rfl⟩ := of_guard taken
  refine ⟨tracks.ascending, tracks.first, tracks.session, fun connection same => ?_⟩
  cases same
  refine ⟨done, rest ++ [response], left ++ LineStream.streamText [response.frame], ?_, linked.seen,
    delivered, ?_, ?_, linked.start⟩
  · rw [linked.responses, append_assoc]
  · have line : LineStream.streamText [response.frame] = response.text ++ "\n" := by rfl
    rw [linked.bytes, line, ← String.toByteArray_append]
  · rw [map_append]
    exact linked.standing.append _

/-- The empty line has no updates. -/
theorem etcdWatchUpdates_empty : etcdWatchUpdates reader codec "" = .ok [] := by rfl

/-- A chunk completes some responses, and their writes are sent; or it breaks a character, and the
stream ends. -/
theorem Tracks.takeChunk {count : Nat} (tracks : watch.Tracks readRevision seen)
    (same : watch.connection = some connection) :
    ∃ more, (watch.takeChunk connection count).Tracks readRevision (seen ++ more) := by
  obtain ⟨done, _, left, linked⟩ := tracks.linked connection same
  rw [EtcdWatch.takeChunk]
  cases read : String.fromUTF8? (connection.left.extract 0 count) with
  | none =>
    refine ⟨[], ?_⟩
    rw [append_nil]
    exact tracks.disconnect
  | some text =>
    -- the bytes after the chunk are the bytes of a text as well
    have halves : text.toByteArray ++ connection.left.extract count connection.left.size =
        left.toByteArray := by
      rw [← toByteArray_of_fromUTF8? read, ByteArray.extract_append_extract, Nat.zero_min,
        ByteArray.extract_zero_max_size, linked.bytes]
    obtain ⟨last, rfl, remaining⟩ := exists_text_of_append halves
    obtain ⟨_, _, _, frames, taken, standing⟩ :=
      linked.standing.take etcdWatchUpdates_empty
    obtain ⟨more, later, rfl, rfl, rfl⟩ := map_eq_append_iff.mp frames
    rw [WatchResponse.flatMap_items] at taken
    refine ⟨more.flatMap WatchResponse.writes, ?_⟩
    dsimp only
    rw [taken]
    have responses : connection.responses = (done ++ more) ++ later := by
      rw [linked.responses, append_assoc]
    have seenNow : seen ++ more.flatMap WatchResponse.writes =
        watch.history.filter (fun write => ¬ connection.start ≤ write.revision) ++
          (done ++ more).flatMap WatchResponse.writes := by
      rw [flatMap_append, ← append_assoc, ← linked.seen]
    refine ⟨tracks.ascending, ?_, ?_, fun connection same => ?_⟩
    · have first : (done ++ more).flatMap WatchResponse.writes <+: watch.delivers connection.start := by
        refine List.IsPrefix.trans ?_ linked.delivered
        simp_all
      obtain ⟨unsent, whole⟩ := first
      refine ⟨unsent, ?_⟩
      rw [seenNow, append_assoc, whole]
      exact tracks.ascending.split connection.start
    · rw [tracks.session, sessionOf_append]
    · cases same
      exact ⟨done ++ more, later, last, responses, seenNow, linked.delivered, remaining, standing,
        linked.start⟩

/-- What a step can be. -/
inductive Stepped (watch : EtcdWatch reader codec) (readRevision : Nat) :
    EtcdAction reader codec → EtcdWatch reader codec → Prop
  | write {write : Write} (later : watch.latest readRevision < write.revision) :
      Stepped watch readRevision (.write write) (watch.append write)
  | connect : Stepped watch readRevision .connect (watch.create readRevision)
  | respond {connection : Connection reader codec} {response : WatchResponse reader codec}
      {next : EtcdWatch reader codec} (connected : watch.connection = some connection)
      (responds : watch.respond connection response = some next) :
      Stepped watch readRevision (.respond response) next
  | chunk {connection : Connection reader codec} {count : Nat}
      (connected : watch.connection = some connection) :
      Stepped watch readRevision (.chunk count) (watch.takeChunk connection count)
  | fail : Stepped watch readRevision .fail watch.disconnect

variable {action : EtcdAction reader codec}

/-- Every step is one of these. -/
theorem stepped_of_step (taken : watch.step readRevision action = some next) :
    watch.Stepped readRevision action next := by
  cases action with
  | write =>
    obtain ⟨later, rfl⟩ := of_guard taken
    exact .write later
  | connect =>
    rw [EtcdWatch.step] at taken
    split at taken
    · cases taken
    · cases taken
      exact .connect
  | respond =>
    obtain ⟨connection, connected, responds⟩ := bind_eq_some_iff.mp taken
    exact .respond connected responds
  | chunk =>
    obtain ⟨connection, connected, rfl⟩ := map_eq_some_iff.mp taken
    exact .chunk connected
  | fail =>
    obtain ⟨_, -, rfl⟩ := map_eq_some_iff.mp taken
    exact .fail

/-- A covered step loses no write. -/
theorem Tracks.step (tracks : watch.Tracks readRevision seen)
    (stepped : watch.Stepped readRevision action next) (covered : watch.covered action = true) :
    ∃ more, next.Tracks readRevision (seen ++ more) := by
  have same {other : EtcdWatch reader codec} (tracks : other.Tracks readRevision seen) :
      ∃ more, other.Tracks readRevision (seen ++ more) := ⟨[], by rwa [append_nil]⟩
  cases stepped with
  | write later => exact same (tracks.append later)
  | connect => exact same (tracks.create covered)
  | respond connected responds => exact same (tracks.respond connected responds)
  | chunk connected => exact tracks.takeChunk connected
  | fail => exact same tracks.disconnect

/-- What has been seen of values that are not empty has been sent. -/
theorem Tracks.delivered (tracks : watch.Tracks readRevision seen)
    (filled : ∀ write ∈ watch.history, write.value ≠ "") : watch.Delivered := by
  have sent : watch.session.sent = seen.map Write.value := by
    have all : seen.filter (fun write => write.value ≠ "") = seen := by
      rw [filter_eq_self]
      intro write member
      exact decide_eq_true (filled write (tracks.first.subset member))
    rw [tracks.session, sessionOf, all]
  refine ⟨?_, fun connection same caughtUp => ?_⟩
  · rw [sent]
    exact tracks.first.map _
  · obtain ⟨_, rest, left, linked⟩ := tracks.linked connection same
    have empty : left = "" := by
      have none := linked.bytes.symm.trans caughtUp.1
      simp_all
    have standing := linked.standing
    rw [empty] at standing
    have finished : rest = [] := map_eq_nil_iff.mp standing.exhausted
    have whole : seen = watch.history := by
      have halves := tracks.ascending.split connection.start
      rw [← delivers, ← caughtUp.2, linked.responses, finished, append_nil] at halves
      exact linked.seen.trans halves
    rw [sent, whole]

/-- A watch that is created without a revision after something was written has caught up at once, and
nothing was sent. -/
theorem Tracks.covered_of_delivered (tracks : watch.Tracks readRevision seen)
    (delivered : (watch.create readRevision).Delivered) : watch.covered .connect = true := by
  rw [covered, Bool.or_eq_true, decide_eq_true_eq, List.isEmpty_iff]
  by_cases some : 0 < watch.session.lastRevision
  · exact .inl some
  · refine .inr ?_
    have late : watch.startRevision readRevision = watch.latest readRevision + 1 := if_neg some
    have caughtUp : (watch.create readRevision).CaughtUp
        ⟨watch.startRevision readRevision, [], .empty, ""⟩ := by
      refine ⟨rfl, ?_⟩
      rw [flatMap_nil, delivers, eq_comm, filter_eq_nil_iff, late]
      intro write member
      have bound := (le_latest tracks.ascending).2 write member
      simp_all
    have unseen : seen = [] := by
      rw [eq_nil_iff_forall_not_mem]
      intro write member
      have bound := (lastRevision_sessionOf seen).1 write member
      have positive := (pairwise_cons.mp tracks.ascending).1 _
        (mem_map_of_mem (tracks.first.subset member))
      rw [tracks.session] at some
      omega
    have sent : watch.session.sent = watch.history.map Write.value := delivered.complete _ rfl caughtUp
    rw [tracks.session, unseen] at sent
    exact map_eq_nil_iff.mp sent.symm

/-- The writes are tracked, and none is empty. -/
def Kept (readRevision : Nat) (watch : EtcdWatch reader codec) : Prop :=
  (∃ seen, watch.Tracks readRevision seen) ∧ ∀ write ∈ watch.history, write.value ≠ ""

/-- At first nothing is to be delivered. -/
theorem Kept.new (readRevision : Nat) : (new : EtcdWatch reader codec).Kept readRevision :=
  ⟨⟨[], Tracks.new readRevision⟩, nofun⟩

section

variable (kept : watch.Kept readRevision)
include kept

/-- What is kept is delivered. -/
theorem Kept.delivered : watch.Delivered := by
  obtain ⟨⟨_, tracks⟩, filled⟩ := kept
  exact tracks.delivered filled

/-- A covered step keeps it so. -/
theorem Kept.step (filled : action.filled = true) (stepped : watch.Stepped readRevision action next)
    (covered : watch.covered action = true) :
    next.Kept readRevision := by
  obtain ⟨⟨_, tracks⟩, before⟩ := kept
  obtain ⟨_, tracksNext⟩ := tracks.step stepped covered
  refine ⟨⟨_, tracksNext⟩, ?_⟩
  -- only a write changes the history
  cases stepped with
  | write =>
    intro other member
    rcases mem_append.mp member with old | last
    · exact before other old
    · rw [mem_singleton.mp last]
      exact bne_iff_ne.mp filled
  | respond connected responds =>
    obtain ⟨_, rfl⟩ := of_guard responds
    exact before
  | chunk =>
    rw [EtcdWatch.takeChunk]
    split
    · exact before
    · dsimp only
      split <;> exact before
  | connect | fail => exact before

/-- A step that is not covered loses a write. -/
theorem Kept.covered_of_delivered (stepped : watch.Stepped readRevision action next)
    (delivered : next.Delivered) :
    watch.covered action = true := by
  obtain ⟨⟨_, tracks⟩, -⟩ := kept
  cases stepped with
  | connect => exact tracks.covered_of_delivered delivered
  | write | respond | chunk | fail => rfl

end

/-- In a run in which no empty value is written, the values are sent in order and each once, and all
of them whenever a stream has caught up, exactly when each watch is created from a revision or before
anything is written. -/
theorem updates_delivered_iff (readRevision : Nat) {events : List (EtcdAction reader codec × Unit)}
    {final : EtcdWatch reader codec} (run : (machine readRevision).Run .new events final)
    (filled : ∀ event ∈ events, event.1.filled = true) :
    (machine readRevision).Throughout Delivered (.new : EtcdWatch reader codec) events ↔
      (machine readRevision).Along (fun watch action _ _ => watch.covered action = true)
        (.new : EtcdWatch reader codec) events := by
  have initial : (new : EtcdWatch reader codec).Kept readRevision := Kept.new readRevision
  refine Machine.Run.throughout_iff_along_of_allowed (fun action => action.filled = true)
    (Kept readRevision) ?_ ?_ run filled initial initial.delivered
  · intro watch action output next kept filled taken
    have stepped := stepped_of_step (Machine.of_map_unit taken)
    exact ⟨kept.covered_of_delivered stepped, fun covered => (kept.step filled stepped covered).delivered⟩
  · intro watch action output next kept filled taken delivered
    have stepped := stepped_of_step (Machine.of_map_unit taken)
    exact kept.step filled stepped (kept.covered_of_delivered stepped delivered)

/-- A response that arrives as one chunk. -/
theorem takeChunk_line (kept : connection.buffer = "")
    (left : connection.left = (response.text ++ "\n").toByteArray) :
    watch.takeChunk connection connection.left.size =
      { watch with
        session := (response.writes.map Write.update).foldl WatchSession.apply watch.session
        connection := some { connection with left := .empty, buffer := "" } } := by
  have whole : connection.left.extract 0 connection.left.size = (response.text ++ "\n").toByteArray := by
    rw [ByteArray.extract_zero_size, left]
  have decodes : if trim response.text = "" then response.writes.map Write.update = []
      else etcdWatchUpdates reader codec (trim response.text) = .ok (response.writes.map Write.update) := by
    rw [response.trim_text, if_neg response.text_ne_empty]
    exact response.updates_eq
  have rest : LineStream.take (etcdWatchUpdates reader codec) "" = ([], .ok "") :=
    LineStream.take_of_ok (by decide) etcdWatchUpdates_empty
  have taken : LineStream.take (etcdWatchUpdates reader codec) ("" ++ (response.text ++ ("\n" ++ ""))) =
      (response.writes.map Write.update, .ok "") := by
    rw [String.empty_append, LineStream.take_line response.single decodes, rest, append_nil]
  rw [String.append_empty] at taken
  rw [takeChunk, whole, fromUTF8?_toByteArray, kept]
  simp_all

end EtcdWatch

open EtcdWatch

namespace EtcdSample

/-- The text of "b" is that of base64. The others matter to no run below and stay as they are. -/
def codec : Base64 where
  encode := Equiv.swap "b" "Yg=="
  decode text := some (Equiv.swap "b" "Yg==" text)
  decode_encode text := congrArg some (Equiv.swap_apply_self "b" "Yg==" text)
  encode_empty := by decide

/-- A write of a value. -/
def written : Write := ⟨2, "b", by decide⟩

/-- A write of the empty value. -/
def cleared : Write := ⟨2, "", by decide⟩

variable (reader : Reader decimal recursionLimit)

/-- The response with the event of a write of revision 2. -/
def body (value : String) : Json Nat :=
  .object [("result", .object [("events", .array [.object [("kv",
    .object [("mod_revision", .string "2"), ("value", .string value)])]])])]

/-- No name is there twice. -/
theorem distinct_body (value : String) : (body value).Distinct := by simp [body, Distinct]

/-- The reader reads the body back. -/
theorem read_body (value : String) :
    reader.read ((body value).text decimal) = some ⟨body value, distinct_body value⟩ :=
  (reader.written ⟨body value, distinct_body value⟩).mpr ⟨by change 5 < 128; decide, by simp [body]⟩

/-- The response with the value. -/
def update : WatchResponse reader codec where
  text := (body "Yg==").text decimal
  value := ⟨body "Yg==", distinct_body "Yg=="⟩
  writes := [written]
  reads := read_body reader "Yg=="
  opens := by decide
  closes := by decide
  single := by decide
  carries := ⟨⟨some ⟨none, [written.event codec]⟩⟩, rfl, rfl⟩

/-- The response with the empty value. -/
def clearing : WatchResponse reader codec where
  text := (body "").text decimal
  value := ⟨body "", distinct_body ""⟩
  writes := [cleared]
  reads := read_body reader ""
  opens := by decide
  closes := by decide
  single := by decide
  carries := ⟨⟨some ⟨none, [cleared.event codec]⟩⟩, rfl, rfl⟩

/-- After a read at revision 1 and the actions a stream has caught up. The first values were written,
the others were sent. -/
def Sends (actions : List (EtcdAction reader codec)) (values sent : List String) : Prop :=
  ∃ final events, (EtcdWatch.machine 1).exec .new actions = some (final, events) ∧
    final.history.map Write.value = values ∧ final.session.sent = sent ∧
    ∃ connection, final.connection = some connection ∧ final.CaughtUp connection

/-- The line of a response. -/
def line (response : WatchResponse reader codec) : ByteArray := (response.text ++ "\n").toByteArray

/-- The write, its response and the chunk on one stream. -/
def delivery (write : Write) (response : WatchResponse reader codec) : List (EtcdAction reader codec) :=
  [.connect, .write write, .respond response, .chunk (line reader response).size]

/-- Nothing was sent yet on the stream. -/
def before (history : List Write) (responses : List (WatchResponse reader codec)) (left : ByteArray) :
    EtcdWatch reader codec :=
  ⟨history, ⟨0, []⟩, some ⟨2, responses, left, ""⟩⟩

/-- The run of a delivery. -/
theorem exec_delivery {write : Write} {response : WatchResponse reader codec}
    (later : 1 < write.revision) (carried : response.writes = [write]) :
    (EtcdWatch.machine 1).exec .new (delivery reader write response) =
      some (⟨[write], WatchSession.apply ⟨0, []⟩ write.update,
        some ⟨2, [response], .empty, ""⟩⟩, (delivery reader write response).map (·, ())) := by
  have connects : new.step 1 .connect = some (before reader [] [] .empty) := rfl
  have writes : (before reader [] [] .empty).step 1 (.write write) =
      some (before reader [write] [] .empty) := if_pos later
  have responds : (before reader [write] [] .empty).step 1 (.respond response) =
      some (before reader [write] [response] (line reader response)) := by
    have delivers : [response].flatMap WatchResponse.writes <+:
        (before reader [write] [] .empty).delivers 2 := by
      have late : (2 : Int) ≤ write.revision := by omega
      rw [flatMap_singleton, carried, delivers, before,
        filter_cons_of_pos (by simpa using late)]
      exact prefix_append [write] _
    refine (if_pos delivers).trans ?_
    rfl
  have arrives : (before reader [write] [response] (line reader response)).step 1
      (.chunk (line reader response).size) = some ⟨[write], WatchSession.apply ⟨0, []⟩ write.update,
        some ⟨2, [response], .empty, ""⟩⟩ := by
    have taken : (before reader [write] [response] (line reader response)).takeChunk
        ⟨2, [response], line reader response, ""⟩ (line reader response).size = _ :=
      takeChunk_line rfl rfl
    rw [carried] at taken
    exact congrArg some taken
  simp only [delivery, Machine.exec, machine, connects, writes, responds, arrives,
    map_some, bind_some, map_cons, map_nil]

end EtcdSample

open EtcdSample

/-- A value that is written before the watch is created, or after a stream has failed on which none
was seen, is not sent; nor is an empty one. -/
theorem updates_lost :
    let reader : Reader decimal recursionLimit := canonical decimal_injective recursionLimit
    EtcdSample.Sends reader [.write written, .connect] ["b"] [] ∧
    EtcdSample.Sends reader [.connect, .write written, .fail, .connect] ["b"] [] ∧
    EtcdSample.Sends reader (delivery reader cleared (clearing reader))
      [""] [] := by
  intro reader
  refine ⟨⟨_, _, rfl, rfl, rfl, _, rfl, rfl, rfl⟩, ⟨_, _, rfl, rfl, rfl, _, rfl, rfl, rfl⟩, ?_⟩
  exact ⟨_, _, exec_delivery reader (by decide) rfl, rfl, rfl, _, rfl, rfl, rfl⟩

/-- A watch that is created before the value is written. -/
theorem updates_delivered_iff_created :
    let reader : Reader decimal recursionLimit := canonical decimal_injective recursionLimit
    let actions := delivery reader written (update reader)
    EtcdSample.Sends reader actions ["b"] ["b"] ∧
      (machine 1).Throughout EtcdWatch.Delivered .new (actions.map (·, ())) := by
  intro reader actions
  have executed : (machine 1).exec .new actions = some (_, actions.map (·, ())) :=
    exec_delivery reader (by decide) rfl
  refine ⟨⟨_, _, executed, rfl, rfl, _, rfl, rfl, rfl⟩, ?_⟩
  refine (updates_delivered_iff 1 (Machine.exec_run executed) ?_).mpr ?_
  · refine Machine.exec_events (fun action => action.filled = true) executed ?_
    simp [actions, delivery, EtcdAction.filled, written]
  · exact Machine.along_of_checks executed rfl

end Roze.Config
