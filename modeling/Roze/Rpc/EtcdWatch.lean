import Mathlib
import Roze.Library.JsonReader
import Roze.Rpc.MemoryRegistry

/-!
# Watching a registry

The watch answers with a stream of JSON messages, and the loop takes it in chunk by chunk. It
collects the texts of the chunks until they are one message with events, and then asks the registry
again and starts over. A chunk need not end where a message ends, nor where a character ends; what
is collected is dropped only after a message with events.

So a message with events is noticed exactly when every message up to it has events and a chunk ends
right after each of them, and the loop goes on exactly when every chunk is a text by itself.
-/

namespace Roze.Rpc

open Roze.Library Roze.Library.Json List

variable {Number : Type} {format : NumberFormat Number}

/-! ## The loop -/

/-- The value is a response with events. -/
def hasEvents (value : Json Number) : Bool :=
  match (value.get? "result").bind (Json.get? "events") with
  | some (.array events) => !events.isEmpty
  | _ => false

/-- The text is such a response. -/
def etcdRegistryWatchHasEvent (reader : Reader format recursionLimit) (raw : String) : Bool :=
  (reader.read raw).any (fun value => hasEvents value.json)

/-- Why a watch ends. -/
inductive WatchError where
  | utf8
  | discover (reason : String)
  | ended
deriving DecidableEq

/-- The loop between two chunks: the text that it has collected and what it has sent; for the record
also how many bytes it has taken in, and how many it had taken in at each discover. -/
structure WatchLoop where
  buffer : String
  sent : List (List ServiceInstance)
  received : Nat
  discovers : List Nat

namespace WatchLoop

def new : WatchLoop := ⟨"", [], 0, []⟩

/-- Collect the text of a chunk. -/
def push (loop : WatchLoop) (text : String) : WatchLoop :=
  { loop with buffer := loop.buffer ++ text, received := loop.received + text.utf8ByteSize }

/-- Call the registry. -/
def call (loop : WatchLoop) : WatchLoop :=
  { loop with discovers := loop.received :: loop.discovers }

/-- Send what the registry answered. -/
def send (loop : WatchLoop) (instances : List ServiceInstance) : WatchLoop :=
  { loop with buffer := "", sent := loop.sent ++ [instances] }

/-- One round. The registry answers the calls one after another. -/
def take (reader : Reader format recursionLimit)
    (discover : Nat → Except String (List ServiceInstance)) (loop : WatchLoop) (chunk : ByteArray) :
    WatchLoop × Option WatchError :=
  match String.fromUTF8? chunk with
  | none => (loop, some .utf8)
  | some text =>
    let loop := loop.push text
    if !etcdRegistryWatchHasEvent reader loop.buffer then (loop, none)
    else
      match discover loop.discovers.length with
      | .error reason => (loop.call, some (.discover reason))
      | .ok instances => (loop.call.send instances, none)

end WatchLoop

/-- The loop over the chunks, with what ends it. -/
def streamEtcdRegistryWatch (reader : Reader format recursionLimit)
    (discover : Nat → Except String (List ServiceInstance)) :
    WatchLoop → List ByteArray → WatchLoop × WatchError
  | loop, [] => (loop, .ended)
  | loop, chunk :: chunks =>
    match loop.take reader discover chunk with
    | (loop, some error) => (loop, error)
    | (loop, none) => streamEtcdRegistryWatch reader discover loop chunks

/-! ## Streams of messages -/

/-- A complete message, from its opening brace to its closing brace, and the white space up to the
next one. -/
structure WatchMessage (reader : Reader format recursionLimit) where
  text : String
  gap : String
  value : Json.Value Number
  reads : reader.read text = some value
  opens : text.toList.head? = some '{'
  closes : text.toList.getLast? = some '}'
  spaced : blank gap = true

variable {reader : Reader format recursionLimit}

namespace WatchMessage

/-- The message has events. -/
def eventful (message : WatchMessage reader) : Bool := hasEvents message.value.json

/-- The number of bytes of the message. -/
def size (message : WatchMessage reader) : Nat := message.text.utf8ByteSize

end WatchMessage

open WatchMessage

/-- All messages, with what is between them. -/
def streamText (messages : List (WatchMessage reader)) : String :=
  messages.foldr (fun message rest => message.text ++ (message.gap ++ rest)) ""

/-- The number of bytes of some messages with the white space after them. -/
def streamSize (messages : List (WatchMessage reader)) : Nat := (streamText messages).utf8ByteSize

/-- All bytes. -/
def joinChunks (chunks : List ByteArray) : ByteArray := chunks.foldr (· ++ ·) ByteArray.empty

/-- Every message with events that the loop has taken in to its last byte was followed by a discover
after its first byte. -/
def Noticed (messages : List (WatchMessage reader)) (loop : WatchLoop) : Prop :=
  ∀ front message back, messages = front ++ message :: back → message.eventful = true →
    streamSize front + message.size ≤ loop.received → ∃ count ∈ loop.discovers, streamSize front < count

/-- Whatever the registry answers, each message with events is noticed, from the moment on when its
last byte is taken in, and the stream itself does not end the loop. -/
structure Delivers (reader : Reader format recursionLimit) (messages : List (WatchMessage reader))
    (chunks : List ByteArray) : Prop where
  noticed : ∀ discover taken rest, chunks = taken ++ rest →
    Noticed messages (streamEtcdRegistryWatch reader discover .new taken).1
  steady : ∀ discover, (streamEtcdRegistryWatch reader discover .new chunks).2 ≠ .utf8

/-- A chunk ends after this number of bytes. -/
def Cut (chunks : List ByteArray) (count : Nat) : Prop :=
  ∃ taken rest, chunks = taken ++ rest ∧ (joinChunks taken).size = count

/-- Every chunk is a text, and up to the last message with events every message has events and a
chunk ends between it and the next one. -/
structure Aligned (messages : List (WatchMessage reader)) (chunks : List ByteArray) : Prop where
  valid : ∀ chunk ∈ chunks, chunk.IsValidUTF8
  separated : ∀ front message back, messages = front ++ message :: back →
    (∃ later ∈ message :: back, later.eventful = true) → message.eventful = true ∧
      ∃ count, Cut chunks count ∧ streamSize front + message.size ≤ count ∧
        count ≤ streamSize front + message.size + message.gap.utf8ByteSize

/-! ## Texts -/

theorem streamText_cons (message : WatchMessage reader) (messages : List (WatchMessage reader)) :
    streamText (message :: messages) = message.text ++ (message.gap ++ streamText messages) := rfl

/-- The stream goes on. -/
theorem streamText_append (first second : List (WatchMessage reader)) :
    streamText (first ++ second) = streamText first ++ streamText second := by
  induction first with
  | nil => rfl
  | cons message first ih =>
    rw [cons_append, streamText_cons, ih, streamText_cons]
    simp only [String.append_assoc]

theorem streamSize_append (first second : List (WatchMessage reader)) :
    streamSize (first ++ second) = streamSize first + streamSize second := by
  rw [streamSize, streamText_append, String.utf8ByteSize_append]
  rfl

theorem streamSize_cons (message : WatchMessage reader) (messages : List (WatchMessage reader)) :
    streamSize (message :: messages) =
      message.size + message.gap.utf8ByteSize + streamSize messages := by
  rw [streamSize, streamText_cons, String.utf8ByteSize_append, String.utf8ByteSize_append, ← add_assoc]
  rfl

/-- No message is empty. -/
theorem size_pos (message : WatchMessage reader) : 0 < message.size := by
  rw [Nat.pos_iff_ne_zero, size, ne_eq, String.utf8ByteSize_eq_zero_iff]
  intro empty
  have opens := message.opens
  simp_all

/-- Of two beginnings of one text the shorter one begins the longer one. -/
theorem exists_append_of_size_le {first second rest rest' : String}
    (same : first ++ rest = second ++ rest') (shorter : first.utf8ByteSize ≤ second.utf8ByteSize) :
    ∃ more, second = first ++ more := by
  have lists := congrArg String.toList same
  simp only [String.toList_append] at lists
  rcases append_eq_append_iff.mp lists with ⟨more, whole, -⟩ | ⟨more, whole, -⟩
  · exact ⟨String.ofList more, String.toList_inj.mp (by simpa using whole)⟩
  · have longer : first = second ++ String.ofList more := String.toList_inj.mp (by simpa using whole)
    rw [longer, String.utf8ByteSize_append] at shorter
    have empty : String.ofList more = "" := String.utf8ByteSize_eq_zero_iff.mp (by omega)
    rw [empty, String.append_empty] at longer
    exact ⟨"", by simp_all⟩

/-- A text that begins with a mark is not blank. -/
theorem blank_ne_of_head {text : String} {ch : Char} (head : text.toList.head? = some ch)
    (dark : isBlank ch = false) : blank text = false := by
  rw [blank, ← Bool.not_eq_true, all_eq_true]
  intro all
  have own := all ch (mem_of_mem_head? head)
  simp_all

/-- A stream begins with a message. -/
theorem head?_streamText {messages : List (WatchMessage reader)} (filled : messages ≠ []) :
    (streamText messages).toList.head? = some '{' := by
  cases messages with
  | nil => exact absurd rfl filled
  | cons message =>
    rw [streamText_cons, String.toList_append, head?_append, message.opens, Option.some_or]

/-! ## What has been collected -/

/-- Where the loop stands: some messages are done with, and the collected text begins in the white
space before the next one. What is left of the stream is still to come. -/
structure Standing (messages : List (WatchMessage reader)) (loop : WatchLoop) (left : String)
    (done rest : List (WatchMessage reader)) (lead : String) : Prop where
  split : messages = done ++ rest
  spaced : blank lead = true
  whole : loop.buffer ++ left = lead ++ streamText rest
  received : loop.received + left.utf8ByteSize = streamSize messages

section Standing

variable {messages done rest : List (WatchMessage reader)} {loop : WatchLoop} {left lead : String}

/-- What was received and what is kept. -/
theorem Standing.size (standing : Standing messages loop left done rest lead) :
    loop.received + lead.utf8ByteSize = loop.buffer.utf8ByteSize + streamSize done := by
  have sizes := congrArg String.utf8ByteSize standing.whole
  have received := standing.received
  rw [standing.split, streamSize_append] at received
  simp only [String.utf8ByteSize_append] at sizes
  change _ = _ + streamSize rest at sizes
  omega

variable {message : WatchMessage reader}

/-- What can be read after a message is white space, up to the next message. -/
theorem WatchMessage.gap_of_append {more left : String} {rest : List (WatchMessage reader)}
    (split : message.gap ++ streamText rest = more ++ left)
    (readable : (reader.read (message.text ++ more)).isSome = true) :
    ∃ later, message.gap = more ++ later := by
  have space : blank more = true :=
    reader.delimited message.text more message.opens (by rw [message.reads]; rfl) readable
  rcases Nat.le_total more.utf8ByteSize message.gap.utf8ByteSize with shorter | longer
  · exact exists_append_of_size_le split.symm shorter
  · obtain ⟨further, whole⟩ := exists_append_of_size_le split longer
    by_cases none : further = ""
    · exact ⟨"", by simp_all⟩
    · -- the next message begins with a brace
      subst whole
      rw [String.append_assoc, String.append_right_inj] at split
      have next : rest ≠ [] := by
        rintro rfl
        have sizes := congrArg String.utf8ByteSize split
        rw [String.utf8ByteSize_append] at sizes
        exact none (String.utf8ByteSize_eq_zero_iff.mp (by change 0 = _ at sizes; omega))
      have brace := head?_streamText next
      rw [split, String.toList_append, head?_append_of_ne_nil _
        (fun empty => none (String.toList_eq_nil_iff.mp empty))] at brace
      rw [blank_append, blank_ne_of_head brace (by decide), Bool.and_false] at space
      cases space

/-- A collected text that can be read goes on after the white space. -/
theorem Standing.collected (standing : Standing messages loop left done rest lead)
    {value : Json.Value Number} (read : reader.read loop.buffer = some value) :
    ∃ own, loop.buffer = lead ++ own ∧ own ≠ "" := by
  have nothing {text : String} (space : blank text = true) : reader.read text = none := by
    rw [← String.append_empty (s := text), reader.leading _ _ space, reader.empty]
  rcases Nat.le_total loop.buffer.utf8ByteSize lead.utf8ByteSize with shorter | longer
  · obtain ⟨_, whole⟩ := exists_append_of_size_le standing.whole shorter
    have space := standing.spaced
    rw [whole, blank_append, Bool.and_eq_true_iff] at space
    simp_all
  · obtain ⟨own, collected⟩ := exists_append_of_size_le standing.whole.symm longer
    refine ⟨own, collected, ?_⟩
    rintro rfl
    rw [collected, String.append_empty, nothing standing.spaced] at read
    cases read

/-- The collected text is a message with events when it is the next message with white space
around it. -/
theorem Standing.hasEvent_iff (standing : Standing messages loop left done rest lead) :
    etcdRegistryWatchHasEvent reader loop.buffer = true ↔
      ∃ message later, rest = message :: later ∧ message.eventful = true ∧
        ∃ before after, message.gap = before ++ after ∧
          loop.buffer = lead ++ (message.text ++ before) := by
  have whole := standing.whole
  constructor
  · intro event
    cases read : reader.read loop.buffer with
    | none =>
      rw [etcdRegistryWatchHasEvent, read] at event
      cases event
    | some value =>
      rw [etcdRegistryWatchHasEvent, read, Option.any_some] at event
      obtain ⟨own, collected, filled⟩ := standing.collected read
      rw [collected, reader.leading _ _ standing.spaced] at read
      rw [collected, String.append_assoc, String.append_right_inj] at whole
      obtain ⟨message, later, rfl⟩ : ∃ message later, rest = message :: later := by
        cases rest with
        | nil =>
          have sizes := congrArg String.utf8ByteSize whole
          rw [String.utf8ByteSize_append] at sizes
          exact absurd (String.utf8ByteSize_eq_zero_iff.mp (by change _ = 0 at sizes; omega)) filled
        | cons message later => simp
      rw [streamText_cons] at whole
      obtain ⟨more, begun⟩ : ∃ more, own = message.text ++ more := by
        rcases Nat.le_total own.utf8ByteSize message.text.utf8ByteSize with shorter | longer
        · obtain ⟨_, split⟩ := exists_append_of_size_le whole shorter
          have complete := reader.eq_empty_of_readable message.opens message.closes
            (by rw [message.reads]; rfl) split filled (by rw [read]; rfl)
          exact ⟨"", by simp_all⟩
        · exact exists_append_of_size_le whole.symm longer
      subst begun
      rw [String.append_assoc, String.append_right_inj] at whole
      obtain ⟨after, gap⟩ := message.gap_of_append whole.symm (by rw [read]; rfl)
      have space : blank more = true := by
        have spaced := message.spaced
        rw [gap, blank_append, Bool.and_eq_true_iff] at spaced
        exact spaced.1
      have same : some value = some message.value :=
        read.symm.trans (reader.trailing _ _ _ space message.reads)
      cases same
      exact ⟨message, later, rfl, event, more, after, gap, collected⟩
  · rintro ⟨message, _, -, events, before, _, gap, collected⟩
    have space : blank before = true := by
      have spaced := message.spaced
      rw [gap, blank_append, Bool.and_eq_true_iff] at spaced
      exact spaced.1
    rw [etcdRegistryWatchHasEvent, collected, reader.leading _ _ standing.spaced,
      reader.trailing _ _ _ space message.reads]
    exact events

/-- A chunk is kept. -/
theorem Standing.push {text : String} (standing : Standing messages loop (text ++ left) done rest lead) :
    Standing messages (loop.push text) left done rest lead where
  split := standing.split
  spaced := standing.spaced
  whole := by
    rw [WatchLoop.push, String.append_assoc]
    exact standing.whole
  received := by
    have received := standing.received
    rw [String.utf8ByteSize_append] at received
    rw [WatchLoop.push, ← received]
    exact Nat.add_assoc _ _ _

/-- The position of a collected message. -/
theorem Standing.bounds {later : List (WatchMessage reader)}
    (standing : Standing messages loop left done (message :: later) lead) :
    (∃ before after, message.gap = before ++ after ∧ loop.buffer = lead ++ (message.text ++ before)) ↔
      streamSize done + message.size ≤ loop.received ∧
        loop.received ≤ streamSize done + message.size + message.gap.utf8ByteSize := by
  have size := standing.size
  have whole := standing.whole
  rw [streamText_cons] at whole
  constructor
  · rintro ⟨before, after, gap, collected⟩
    have gaps := congrArg String.utf8ByteSize gap
    rw [collected] at size
    simp only [String.utf8ByteSize_append] at size gaps
    change _ = _ + (message.size + _) + _ at size
    omega
  · rintro ⟨_, _⟩
    have sizes : message.text.utf8ByteSize = message.size := rfl
    obtain ⟨_, collected⟩ := exists_append_of_size_le whole.symm (by omega)
    rw [collected, String.append_assoc, String.append_right_inj] at whole
    rw [collected, String.utf8ByteSize_append] at size
    obtain ⟨before, begun⟩ := exists_append_of_size_le whole.symm (by omega)
    rw [begun, String.append_assoc, String.append_right_inj] at whole
    rw [begun, String.utf8ByteSize_append] at size
    obtain ⟨after, gap⟩ := exists_append_of_size_le whole (by omega)
    simp_all

/-- After a message with events the loop stands before the next one. -/
theorem Standing.call {later : List (WatchMessage reader)}
    (standing : Standing messages loop left done (message :: later) lead)
    (reached : ∃ before after, message.gap = before ++ after ∧
      loop.buffer = lead ++ (message.text ++ before)) (instances : List ServiceInstance) :
    ∃ lead, Standing messages (loop.call.send instances) left (done ++ [message]) later lead := by
  obtain ⟨_, after, gap, collected⟩ := reached
  refine ⟨after, ?_, ?_, ?_, standing.received⟩
  · rw [standing.split, append_assoc, singleton_append]
  · have spaced := message.spaced
    rw [gap, blank_append, Bool.and_eq_true_iff] at spaced
    exact spaced.2
  · have whole := standing.whole
    rw [collected, streamText_cons, gap] at whole
    simp only [String.append_assoc, String.append_right_inj] at whole
    assumption

end Standing

/-! ## The chunks -/

/-- The texts of the chunks. -/
def joinTexts (texts : List String) : String := texts.foldr (· ++ ·) ""

theorem joinChunks_texts (texts : List String) :
    joinChunks (texts.map String.toByteArray) = (joinTexts texts).toByteArray := by
  induction texts with
  | nil => rfl
  | cons text texts ih =>
    rw [map_cons, joinChunks, foldr_cons, ← joinChunks, ih,
      ← String.toByteArray_append]
    rfl

theorem joinChunks_cons (chunk : ByteArray) (chunks : List ByteArray) :
    joinChunks (chunk :: chunks) = chunk ++ joinChunks chunks := rfl

/-- Chunks that are texts by themselves. -/
theorem exists_texts {chunks : List ByteArray} (valid : ∀ chunk ∈ chunks, chunk.IsValidUTF8) :
    ∃ texts : List String, chunks = texts.map String.toByteArray := by
  induction chunks with
  | nil => exact ⟨[], rfl⟩
  | cons chunk chunks ih =>
    obtain ⟨texts, rfl⟩ := ih fun chunk inside => valid chunk (.tail _ inside)
    exact ⟨String.ofByteArray chunk (valid chunk mem_cons_self) :: texts, rfl⟩

theorem joinTexts_cons (text : String) (texts : List String) :
    joinTexts (text :: texts) = text ++ joinTexts texts := rfl

/-- How the loop goes on after the text of a chunk. -/
theorem stream_cons (discover : Nat → Except String (List ServiceInstance)) (loop : WatchLoop)
    (text : String) (chunks : List ByteArray) :
    streamEtcdRegistryWatch reader discover loop (text.toByteArray :: chunks) =
      if etcdRegistryWatchHasEvent reader (loop.push text).buffer then
        match discover loop.discovers.length with
        | .error reason => ((loop.push text).call, .discover reason)
        | .ok instances =>
          streamEtcdRegistryWatch reader discover ((loop.push text).call.send instances) chunks
      else streamEtcdRegistryWatch reader discover (loop.push text) chunks := by
  rw [streamEtcdRegistryWatch]
  have same : (loop.push text).discovers = loop.discovers := rfl
  simp only [WatchLoop.take, fromUTF8?_toByteArray, same]
  grind

/-! ## Aligned chunks -/

section Runs

variable {messages done rest : List (WatchMessage reader)} {loop : WatchLoop} {left lead : String}
  {chunks : List ByteArray}

/-- All that is done with was noticed, and the next message is not complete as long as there is
something to notice. -/
structure Prompt (loop : WatchLoop) (done rest : List (WatchMessage reader)) : Prop where
  marked : ∀ front message back, done = front ++ message :: back →
    ∃ count ∈ loop.discovers, streamSize front < count
  early : ∀ message later, rest = message :: later →
    (∃ eventful ∈ rest, eventful.eventful = true) → loop.received < streamSize done + message.size

/-- Every event has been noticed. -/
theorem Prompt.noticed (prompt : Prompt loop done rest) (split : messages = done ++ rest) :
    Noticed messages loop := by
  intro front message back whole events complete
  rw [split] at whole
  -- a message that is not done with ends after the next one does
  have open' {extra : List (WatchMessage reader)} (position : front = done ++ extra)
      (later : rest = extra ++ message :: back) : False := by
    have some : ∃ eventful ∈ rest, eventful.eventful = true :=
      ⟨message, later ▸ mem_append_right _ mem_cons_self, events⟩
    have size := congrArg streamSize position
    rw [streamSize_append] at size
    cases extra with
    | nil =>
      have early := prompt.early message back later some
      omega
    | cons first =>
      have early := prompt.early first _ later some
      rw [streamSize_cons] at size
      omega
  rcases append_eq_append_iff.mp whole with ⟨extra, position, later⟩ | ⟨extra, position, later⟩
  · simp_all
  · cases extra with
    | nil => simp_all
    | cons first extra =>
      cases later
      exact prompt.marked front message extra position

/-- An item of a list with one more at the end is that one or one of the list. -/
theorem split_concat {Item : Type*} {items front back : List Item} {last item : Item}
    (split : items ++ [last] = front ++ item :: back) :
    front = items ∧ item = last ∨ ∃ extra, items = front ++ item :: extra := by
  rcases eq_nil_or_concat back with rfl | ⟨extra, _, rfl⟩
  · simp_all
  · rw [concat_eq_append, ← cons_append, ← append_assoc] at split
    exact .inr ⟨extra, (append_inj' split rfl).1⟩

/-- A discover after a message is prompt. -/
theorem Prompt.call {message : WatchMessage reader} {later : List (WatchMessage reader)}
    (prompt : Prompt loop done (message :: later)) {text : String}
    (above : streamSize done + message.size ≤ (loop.push text).received)
    (below : (loop.push text).received ≤ streamSize done + message.size + message.gap.utf8ByteSize)
    (instances : List ServiceInstance) :
    Prompt ((loop.push text).call.send instances) (done ++ [message]) later where
  marked front marked back split := by
    rcases split_concat split with ⟨rfl, rfl⟩ | ⟨extra, old⟩
    · exact ⟨_, mem_cons_self, by have := size_pos marked; omega⟩
    · obtain ⟨count, inside, after⟩ := prompt.marked front marked extra old
      exact ⟨count, mem_cons_of_mem _ inside, after⟩
  early next further split _ := by
    have none : streamSize ([] : List (WatchMessage reader)) = 0 := rfl
    have positive := size_pos next
    rw [streamSize_append, streamSize_cons, none]
    change (loop.push text).received < _
    omega

variable {texts : List String}

/-- When the chunks are aligned, every message with events is noticed.

Proof: induction over the chunks that are taken. The next message is not complete before; if the
chunk completes it, the chunk does not go beyond the white space after it, since another one ends
there. -/
theorem noticed_of_separated (discover : Nat → Except String (List ServiceInstance))
    (separated : ∀ front message back, messages = front ++ message :: back →
      (∃ later ∈ message :: back, later.eventful = true) → message.eventful = true ∧
        ∃ count, Cut chunks count ∧ streamSize front + message.size ≤ count ∧
          count ≤ streamSize front + message.size + message.gap.utf8ByteSize)
    {taken further : List String} (split : texts = taken ++ further)
    (standing : Standing messages loop (joinTexts texts) done rest lead)
    (prompt : Prompt loop done rest)
    (ahead : ∀ count, Cut chunks count → loop.received < count →
      ∃ some others, texts = some ++ others ∧
        loop.received + (joinTexts some).utf8ByteSize = count) :
    Noticed messages
      (streamEtcdRegistryWatch reader discover loop (taken.map String.toByteArray)).1 := by
  induction taken generalizing texts loop done rest lead with
  | nil => exact prompt.noticed standing.split
  | cons text taken ih =>
    subst split
    have pushed : Standing messages (loop.push text) (joinTexts (taken ++ further)) done rest lead :=
      standing.push
    have later : ∀ count, Cut chunks count → (loop.push text).received < count →
        ∃ some others, taken ++ further = some ++ others ∧
          (loop.push text).received + (joinTexts some).utf8ByteSize = count := by
      intro count cut after
      have received : (loop.push text).received = loop.received + text.utf8ByteSize := rfl
      obtain ⟨some, others, whole, total⟩ := ahead count cut (by omega)
      cases some with
      | nil =>
        have none : (joinTexts []).utf8ByteSize = 0 := rfl
        omega
      | cons first some =>
        obtain ⟨rfl, same⟩ := List.cons.inj whole
        rw [joinTexts_cons, String.utf8ByteSize_append] at total
        exact ⟨some, others, same, by omega⟩
    rw [map_cons, stream_cons]
    split
    · rename_i event
      obtain ⟨message, others, rfl, -, reached⟩ := pushed.hasEvent_iff.mp event
      obtain ⟨above, below⟩ := pushed.bounds.mp reached
      cases answer : discover loop.discovers.length with
      | error =>
        obtain ⟨_, called⟩ := pushed.call reached []
        have noticed := (prompt.call above below []).noticed called.split
        exact noticed
      | ok instances =>
        obtain ⟨_, called⟩ := pushed.call reached instances
        exact ih rfl called (prompt.call above below instances) later
    · rename_i quiet
      refine ih rfl pushed ⟨prompt.marked, ?_⟩ later
      rintro message others rfl some
      by_contra complete
      obtain ⟨events, count, cut, _, _⟩ := separated done message others standing.split some
      have early := prompt.early message others rfl some
      obtain ⟨first, _, whole, total⟩ := ahead count cut (by omega)
      have within : (loop.push text).received ≤ count := by
        cases first with
        | nil =>
          have none : (joinTexts []).utf8ByteSize = 0 := rfl
          omega
        | cons =>
          obtain ⟨rfl, -⟩ := List.cons.inj whole
          rw [joinTexts_cons, String.utf8ByteSize_append] at total
          change loop.received + text.utf8ByteSize ≤ count
          omega
      have reached := pushed.bounds.mpr ⟨by omega, by omega⟩
      exact quiet (pushed.hasEvent_iff.mpr ⟨message, others, rfl, events, reached⟩)

/-! ## Chunks that are not aligned -/

/-- All that is done with had events and ended with a chunk, and nothing was noticed since. -/
structure Timely (chunks : List ByteArray) (loop : WatchLoop) (done : List (WatchMessage reader)) :
    Prop where
  ended : ∀ front message back, done = front ++ message :: back → message.eventful = true ∧
    ∃ count, Cut chunks count ∧ streamSize front + message.size ≤ count ∧
      count ≤ streamSize front + message.size + message.gap.utf8ByteSize
  old : ∀ count ∈ loop.discovers, count ≤ streamSize done

/-- With a registry that answers, the loop takes in all texts, and is done only with messages that
had events and ended with a chunk. -/
theorem timely_run (standing : Standing messages loop (joinTexts texts) done rest lead)
    (timely : Timely chunks loop done)
    (cuts : ∀ some others, texts = some ++ others →
      Cut chunks (loop.received + (joinTexts some).utf8ByteSize)) :
    ∃ final done rest lead,
      streamEtcdRegistryWatch reader (fun _ => .ok []) loop (texts.map String.toByteArray) =
        (final, .ended) ∧
      Standing messages final "" done rest lead ∧ Timely chunks final done := by
  induction texts generalizing loop done rest lead with
  | nil => exact ⟨loop, done, rest, lead, rfl, standing, timely⟩
  | cons text texts ih =>
    have pushed : Standing messages (loop.push text) (joinTexts texts) done rest lead := standing.push
    have later : ∀ some others, texts = some ++ others →
        Cut chunks ((loop.push text).received + (joinTexts some).utf8ByteSize) := by
      rintro some others rfl
      have cut := cuts (text :: some) others rfl
      rw [joinTexts_cons, String.utf8ByteSize_append, ← Nat.add_assoc] at cut
      exact cut
    rw [map_cons, stream_cons]
    split
    · rename_i event
      obtain ⟨_, _, rfl, events, reached⟩ := pushed.hasEvent_iff.mp event
      obtain ⟨above, below⟩ := pushed.bounds.mp reached
      obtain ⟨_, called⟩ := pushed.call reached []
      refine ih called ⟨?_, ?_⟩ later
      · intro front own back split
        rcases split_concat split with ⟨rfl, rfl⟩ | ⟨extra, old⟩
        · have cut := later [] texts rfl
          exact ⟨events, (loop.push text).received, cut, above, below⟩
        · exact timely.ended front own extra old
      · have none : streamSize ([] : List (WatchMessage reader)) = 0 := rfl
        intro count inside
        rw [streamSize_append, streamSize_cons, none]
        rcases mem_cons.mp inside with rfl | before
        · omega
        · have bound := timely.old count before
          omega
    · exact ih pushed ⟨timely.ended, timely.old⟩ later

/-- At the end of a stream all messages up to one with events are done with, when it was noticed. -/
theorem Timely.ended_of_noticed (timely : Timely chunks loop done)
    (standing : Standing messages loop "" done rest lead) (noticed : Noticed messages loop)
    {front back : List (WatchMessage reader)} {message : WatchMessage reader}
    (split : messages = front ++ message :: back)
    (events : ∃ later ∈ message :: back, later.eventful = true) : message.eventful = true ∧
      ∃ count, Cut chunks count ∧ streamSize front + message.size ≤ count ∧
        count ≤ streamSize front + message.size + message.gap.utf8ByteSize := by
  -- nothing was noticed after what is done with
  have past {extra : List (WatchMessage reader)} (position : front = done ++ extra) : False := by
    obtain ⟨later, inside, own⟩ := events
    obtain ⟨before, after, parts⟩ := append_of_mem inside
    have whole : messages = (front ++ before) ++ later :: after := by
      rw [split, parts, append_assoc]
    have received : loop.received = streamSize messages := standing.received
    have total := congrArg streamSize whole
    rw [streamSize_append, streamSize_cons] at total
    obtain ⟨count, called, since⟩ := noticed _ later after whole own (by omega)
    have bound := timely.old count called
    have size := congrArg streamSize position
    rw [streamSize_append] at size since
    omega
  rw [standing.split] at split
  rcases append_eq_append_iff.mp split with ⟨extra, position, -⟩ | ⟨extra, position, later⟩
  · exact (past position).elim
  · cases extra with
    | nil => simp_all
    | cons first extra =>
      cases later
      exact timely.ended front message extra position

/-- A chunk that is no text ends the loop. -/
theorem stream_invalid {chunks : List ByteArray} {chunk : ByteArray} (inside : chunk ∈ chunks)
    (invalid : ¬ chunk.IsValidUTF8) (loop : WatchLoop) :
    (streamEtcdRegistryWatch reader (fun _ => .ok []) loop chunks).2 = .utf8 := by
  induction chunks generalizing loop with
  | nil => cases inside
  | cons first chunks ih =>
    by_cases valid : first.IsValidUTF8
    · have other : chunk ∈ chunks := by grind
      change (streamEtcdRegistryWatch reader _ loop
        ((String.ofByteArray first valid).toByteArray :: chunks)).2 = _
      rw [stream_cons]
      grind
    · rw [streamEtcdRegistryWatch, WatchLoop.take, String.fromUTF8?, dif_neg valid]

/-- Chunks that are texts do not end the loop. -/
theorem stream_valid (discover : Nat → Except String (List ServiceInstance)) (texts : List String)
    (loop : WatchLoop) :
    (streamEtcdRegistryWatch reader discover loop (texts.map String.toByteArray)).2 ≠ .utf8 := by
  induction texts generalizing loop with
  | nil => exact nofun
  | cons text texts ih =>
    rw [map_cons, stream_cons]
    grind

/-- Where the chunks are cut. -/
theorem cut_texts_iff {count : Nat} :
    Cut (texts.map String.toByteArray) count ↔
      ∃ some others, texts = some ++ others ∧ (joinTexts some).utf8ByteSize = count := by
  constructor
  · rintro ⟨_, _, split, size⟩
    obtain ⟨some, others, rfl, rfl, rfl⟩ := map_eq_append_iff.mp split
    rw [joinChunks_texts] at size
    exact ⟨some, others, rfl, size⟩
  · rintro ⟨some, others, rfl, size⟩
    refine ⟨some.map String.toByteArray, others.map String.toByteArray, map_append, ?_⟩
    rw [joinChunks_texts]
    exact size

/-- For every stream and every way to cut it into chunks, each message with events is noticed in time
and the stream does not end the loop, exactly when the chunks are aligned. -/
theorem watch_delivers_iff (whole : joinChunks chunks = (streamText messages).toByteArray) :
    Delivers reader messages chunks ↔ Aligned messages chunks := by
  have start {texts : List String} (same : chunks = texts.map String.toByteArray) :
      Standing messages .new (joinTexts texts) [] messages "" := by
    rw [same, joinChunks_texts, String.toByteArray_inj] at whole
    refine ⟨rfl, rfl, ?_, ?_⟩
    · rw [whole]
      rfl
    · rw [whole]
      exact Nat.zero_add _
  constructor
  · intro delivers
    have valid : ∀ chunk ∈ chunks, chunk.IsValidUTF8 := by
      intro chunk inside
      by_contra invalid
      exact delivers.steady _ (stream_invalid inside invalid .new)
    obtain ⟨texts, same⟩ := exists_texts valid
    have standing := start same
    subst same
    obtain ⟨final, _, _, _, run, last, timely⟩ := timely_run standing ⟨by simp, nofun⟩
      fun some others split => cut_texts_iff.mpr ⟨some, others, split, (Nat.zero_add _).symm⟩
    refine ⟨valid, fun front message back split events => ?_⟩
    have noticed : Noticed messages final := by
      have all := delivers.noticed (fun _ => .ok []) _ [] (append_nil _).symm
      rwa [run] at all
    exact timely.ended_of_noticed last noticed split events
  · rintro ⟨valid, separated⟩
    obtain ⟨texts, same⟩ := exists_texts valid
    have standing := start same
    subst same
    refine ⟨fun discover taken left split => ?_, fun discover => stream_valid discover texts .new⟩
    obtain ⟨_, _, rfl, rfl, rfl⟩ := map_eq_append_iff.mp split
    refine noticed_of_separated discover separated rfl standing ⟨by simp, ?_⟩ ?_
    · rintro message _ rfl -
      exact Nat.lt_of_lt_of_le (size_pos message) (Nat.le_add_left _ _)
    · intro count cut _
      obtain ⟨first, last, parts, size⟩ := cut_texts_iff.mp cut
      exact ⟨first, last, parts, (Nat.zero_add _).trans size⟩

end Runs

/-- A message with its white space as one chunk. -/
def WatchMessage.chunk (message : WatchMessage reader) : ByteArray :=
  (message.text ++ message.gap).toByteArray

theorem joinChunks_chunks (messages : List (WatchMessage reader)) :
    joinChunks (messages.map WatchMessage.chunk) = (streamText messages).toByteArray := by
  induction messages with
  | nil => rfl
  | cons message messages ih =>
    rw [map_cons, joinChunks_cons, ih, chunk,
      ← String.toByteArray_append, String.append_assoc, streamText_cons]

namespace WatchStream

variable (reader : Reader decimal recursionLimit)

/-- The message that the watch was created. -/
def created : WatchMessage reader where
  text := (Json.object [("result", .object [("created", .bool true)])]).text decimal
  gap := "\n"
  value := ⟨.object [("result", .object [("created", .bool true)])], by simp [Distinct]⟩
  reads := (reader.written ⟨_, _⟩).mpr ⟨by decide, by simp⟩
  opens := by decide
  closes := by decide
  spaced := by decide

/-- A message with one event. -/
def changed (key : String) : Json Nat :=
  .object [("result", .object [("events", .array [.object [("key", .string key)]])])]

theorem distinct_changed (key : String) : (changed key).Distinct := by simp [changed, Distinct]

theorem read_changed (key : String) :
    reader.read ((changed key).text decimal) = some ⟨changed key, distinct_changed key⟩ :=
  (reader.written ⟨changed key, distinct_changed key⟩).mpr
    ⟨by change 4 < 128; decide, by simp [changed]⟩

def plain : WatchMessage reader where
  text := (changed "a").text decimal
  gap := "\n"
  value := ⟨changed "a", distinct_changed "a"⟩
  reads := read_changed reader "a"
  opens := by decide
  closes := by decide
  spaced := by decide

def accented : WatchMessage reader where
  text := (changed "é").text decimal
  gap := "\n"
  value := ⟨changed "é", distinct_changed "é"⟩
  reads := read_changed reader "é"
  opens := by decide
  closes := by decide
  spaced := by decide

/-- The accented message, cut in its letter. -/
def halves : List ByteArray :=
  [(accented reader).chunk.extract 0 30, (accented reader).chunk.extract 30 37]

end WatchStream

open WatchStream

/-- After a message without events the next one is not noticed, whatever the registry answers. -/
theorem stream_created (reader : Reader decimal recursionLimit)
    (discover : Nat → Except String (List ServiceInstance)) :
    let first := created reader
    let second := plain reader
    streamEtcdRegistryWatch reader discover .new ([first, second].map chunk) =
      ((WatchLoop.new.push (first.text ++ first.gap)).push (second.text ++ second.gap), .ended) := by
  intro first second
  have quiet : etcdRegistryWatchHasEvent reader ("" ++ (first.text ++ first.gap)) = false := by
    rw [etcdRegistryWatchHasEvent, reader.leading _ _ rfl,
      reader.trailing _ _ _ first.spaced first.reads]
    rfl
  have stuck : etcdRegistryWatchHasEvent reader
      ("" ++ (first.text ++ first.gap) ++ (second.text ++ second.gap)) = false := by
    cases read : reader.read ("" ++ (first.text ++ first.gap) ++ (second.text ++ second.gap)) with
    | none => rw [etcdRegistryWatchHasEvent, read, Option.any_none]
    | some =>
      rw [String.append_assoc, String.append_assoc, reader.leading _ _ rfl] at read
      have space := reader.delimited first.text _ first.opens (by rw [first.reads]; rfl)
        (by rw [read]; rfl)
      have dark : blank ("\n" ++ ((changed "a").text decimal ++ "\n")) = false := by decide
      exact absurd (dark.symm.trans space) Bool.false_ne_true
  change streamEtcdRegistryWatch reader discover .new [_, _] = _
  rw [chunk, chunk, stream_cons, if_neg, stream_cons, if_neg]
  · rfl
  · exact Bool.not_eq_true _ ▸ stuck
  · exact Bool.not_eq_true _ ▸ quiet

/-- A message that is cut in a character ends the loop. -/
theorem stream_halves (reader : Reader decimal recursionLimit)
    (discover : Nat → Except String (List ServiceInstance)) :
    (streamEtcdRegistryWatch reader discover .new (WatchStream.halves reader)).2 = .utf8 := by
  have invalid : ¬ ((accented reader).chunk.extract 0 30).IsValidUTF8 := by
    change ¬ (((changed "é").text decimal ++ "\n").toByteArray.extract 0 30).IsValidUTF8
    decide +kernel
  rw [halves, streamEtcdRegistryWatch, WatchLoop.take, String.fromUTF8?, dif_neg invalid]

/-- Each message in a chunk of its own: after the first message, which has no events, the second one
is taken in and not noticed. A message in two chunks ends the loop. -/
theorem watch_misses_events :
    let reader : Reader decimal recursionLimit := canonical decimal_injective recursionLimit
    let messages := [created reader, plain reader]
    let final := (streamEtcdRegistryWatch reader (fun _ => .ok []) .new
      (messages.map chunk)).1
    (joinChunks (messages.map chunk) = (streamText messages).toByteArray ∧
      (plain reader).eventful = true ∧
      final.received = streamSize messages ∧ final.discovers = []) ∧
    joinChunks (halves reader) = (streamText [accented reader]).toByteArray ∧
    (streamEtcdRegistryWatch reader (fun _ => .ok []) .new (halves reader)).2 = .utf8 := by
  intro reader messages final
  have run : final = (WatchLoop.new.push _).push _ :=
    congrArg Prod.fst (stream_created reader (fun _ => .ok []))
  refine ⟨⟨joinChunks_chunks messages, rfl, ?_, ?_⟩, ?_, stream_halves reader _⟩
  · rw [run, streamSize_cons, streamSize_cons]
    change 0 + _ + _ = _
    rfl
  · rw [run]
    rfl
  · decide +kernel

/-- Messages with events, each in a chunk of its own, are noticed. -/
theorem watch_delivers_iff_separate :
    let reader : Reader decimal recursionLimit := canonical decimal_injective recursionLimit
    let messages := [accented reader, plain reader]
    joinChunks (messages.map chunk) = (streamText messages).toByteArray ∧
      Delivers reader messages (messages.map chunk) := by
  intro reader messages
  have whole := joinChunks_chunks messages
  refine ⟨whole, (watch_delivers_iff whole).mpr ⟨?_, ?_⟩⟩
  · intro chunk inside
    obtain ⟨message, -, rfl⟩ := mem_map.mp inside
    exact (message.text ++ message.gap).isValidUTF8
  · rintro front message back split -
    have member : message ∈ messages := split ▸ mem_append_right _ mem_cons_self
    have eventful : message.eventful = true := by
      rcases mem_pair.mp member with rfl | rfl <;> rfl
    refine ⟨eventful, streamSize (front ++ [message]), ?_, ?_⟩
    · refine ⟨(front ++ [message]).map chunk, back.map chunk, ?_, ?_⟩
      · rw [← map_append, split, append_assoc, singleton_append]
      · rw [joinChunks_chunks]
        rfl
    · rw [streamSize_append, streamSize_cons]
      have none : streamSize ([] : List (WatchMessage reader)) = 0 := rfl
      omega

end Roze.Rpc
