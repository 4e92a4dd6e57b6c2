import Mathlib
import Roze.Errors.RozeError
import Roze.Http.HeaderMap
import Roze.Library.JsonReader

/-!
# Errors across a call

A service turns an error into a status: a code, a message, and metadata that say what the code
does not. The caller turns the status into an error again. Metadata take visible ASCII text only,
and what they do not take is left out without notice. Kind, code and seconds always come back;
the body and the headers of a fallback come back exactly when their texts are visible and the body
can be read again.
-/

namespace Roze.Rpc

open Roze.Library Roze.Library.Json Roze.Http List

/-! ## Statuses -/

/-- The codes of gRPC. -/
inductive Code where
  | ok
  | cancelled
  | unknown
  | invalidArgument
  | deadlineExceeded
  | notFound
  | alreadyExists
  | permissionDenied
  | resourceExhausted
  | failedPrecondition
  | aborted
  | outOfRange
  | unimplemented
  | internal
  | unavailable
  | dataLoss
  | unauthenticated
deriving DecidableEq, Repr

/-- A status with its metadata. -/
structure Status where
  code : Code
  message : String
  metadata : StringMap

/-- The code of the error. -/
def errorCodeMetadata : String := "x-roze-error-code"
/-- The kind of the error. -/
def errorKindMetadata : String := "x-roze-error-kind"
/-- The status of a fallback. -/
def fallbackStatusMetadata : String := "x-roze-fallback-status"
/-- The body of a fallback, in JSON. -/
def fallbackBodyMetadata : String := "x-roze-fallback-body"
/-- The headers of a fallback, in JSON. -/
def fallbackHeadersMetadata : String := "x-roze-fallback-headers"
/-- The seconds to wait. -/
def retryAfterMetadata : String := "retry-after"

/-- The key of an ASCII entry. -/
def parseMetadataKey (text : String) : Option String :=
  (parseHeaderName text).filter (fun key => !"-bin".toList.isSuffixOf key.toList)

/-- The text that a metadata value takes. -/
def parseMetadataValue (text : String) : Option String :=
  if text.toList.all isVisible then some text else none

/-- An entry whose name or value is not valid is left out. -/
def insertMetadata (metadata : StringMap) (key value : String) : StringMap :=
  match parseMetadataKey key with
  | none => metadata
  | some key =>
    match parseMetadataValue value with
    | none => metadata
    | some value => metadata.insert (key, value)

/-- Insert a value if there is one. -/
def insertOptional (metadata : StringMap) (entry : String × Option String) : StringMap :=
  match entry.2 with
  | none => metadata
  | some value => insertMetadata metadata entry.1 value

section Errors

variable {Number : Type}

/-- The code of an error. -/
def grpcCodeFromError : RozeError Number → Code
  | .badRequest _ => .invalidArgument
  | .conflict _ => .alreadyExists
  | .failedPrecondition _ => .failedPrecondition
  | .unauthorized => .unauthenticated
  | .forbidden => .permissionDenied
  | .rateLimited _ => .resourceExhausted
  | .notFound _ => .notFound
  | .unavailable _ => .unavailable
  | .internal _ => .internal
  | .fallback status _ _ =>
    if status = 400 ∨ status = 422 then .invalidArgument
    else if status = 401 then .unauthenticated
    else if status = 403 then .permissionDenied
    else if status = 404 then .notFound
    else if status = 409 then .alreadyExists
    else if status = 429 then .resourceExhausted
    else if status = 500 then .internal
    else .unavailable

/-- A map of texts as a JSON object. -/
def headersJson (headers : StringMap) : Json Number :=
  .object (headers.values.map (fun header => (header.1, .string header.2)))

/-- The headers of a fallback, if there are any. -/
def headersText (format : NumberFormat Number) (headers : StringMap) : Option String :=
  if headers.values.isEmpty then none else some ((headersJson headers).text format)

/-- What goes into the metadata, in this order. -/
def statusEntries (format : NumberFormat Number) (error : RozeError Number) (context : Context) :
    List (String × Option String) :=
  let (status, body, headers) := match error with
    | .fallback status body headers =>
      (some (toString status), body.map (fun body => body.json.text format), headersText format headers)
    | _ => (none, none, none)
  [(errorCodeMetadata, some (toString error.code)),
    (errorKindMetadata, some error.kind),
    (Context.requestIdHeader, some context.requestId),
    (Context.traceIdHeader, some context.traceId),
    (Context.localeHeader, context.locale),
    (Context.retryBudgetHeader, context.retryBudget.map toString),
    (fallbackStatusMetadata, status),
    (fallbackBodyMetadata, body),
    (fallbackHeadersMetadata, headers),
    (retryAfterMetadata, error.retryAfterSeconds.map toString)]

/-- The status of an error, in the locale of the context. -/
def statusFromError (format : NumberFormat Number) (error : RozeError Number) (context : Context) :
    Status where
  code := grpcCodeFromError error
  message := error.messageI18n (context.locale.getD "en-US")
  metadata := (statusEntries format error context).foldl insertOptional (.empty _)

/-- Read a JSON object of texts. -/
def stringMap (value : Json Number) : Option StringMap :=
  match value with
  | .object members =>
    (members.mapM (fun member => (asStr member.2).map (fun text => (member.1, text)))).map
      (KeyedMap.collect Prod.fst)
  | _ => none

/-- The error of a status: by its kind, or else by its code. -/
def errorFromStatus [NatCast Number] {format : NumberFormat Number}
    (reader : Reader format recursionLimit) (status : Status) : RozeError Number :=
  let kind := status.metadata.get? errorKindMetadata
  let seconds := (status.metadata.get? retryAfterMetadata).bind RozeError.parseSeconds
  if kind = some "fallback" then
    .fallback
      (((status.metadata.get? fallbackStatusMetadata).bind (parseUnsigned (2 ^ 16))).map
        UInt16.ofNat |>.getD 503)
      ((status.metadata.get? fallbackBodyMetadata).bind reader.read)
      (((status.metadata.get? fallbackHeadersMetadata).bind
        (fun text => (reader.read text).bind (fun value => stringMap value.json))).getD (.empty _))
  else if kind = some "conflict" then .conflict status.message
  else if kind = some "failed_precondition" then .failedPrecondition status.message
  else
    match status.code with
    | .invalidArgument => .badRequest status.message
    | .unauthenticated => .unauthorized
    | .permissionDenied => .forbidden
    | .resourceExhausted => .rateLimited (seconds.getD 1)
    | .notFound => .notFound status.message
    | .alreadyExists | .aborted => .conflict status.message
    | .failedPrecondition => .failedPrecondition status.message
    | .unavailable =>
      match seconds with
      | some seconds => .unavailableWithRetryAfter status.message (max seconds 1)
      | none => .unavailable status.message
    | _ => .internal status.message

end Errors

/-! ## Metadata -/

/-- A valid value replaces the one that is there. -/
theorem get?_insertMetadata {key : String} (valid : parseMetadataKey key = some key)
    (metadata : StringMap) (value wanted : String) :
    StringMap.get? (insertMetadata metadata key value) wanted =
      if key = wanted then (parseMetadataValue value).or (metadata.get? wanted)
      else metadata.get? wanted := by
  rw [insertMetadata, valid]
  cases parseMetadataValue value with
  | none => simp
  | some => simp [StringMap.get?_insert]

/-- No other entry changes. -/
theorem get?_foldl_of_notMem {entries : List (String × Option String)}
    (valid : ∀ entry ∈ entries, parseMetadataKey entry.1 = some entry.1) (metadata : StringMap)
    {wanted : String} (outside : wanted ∉ entries.map Prod.fst) :
    (entries.foldl insertOptional metadata).get? wanted = metadata.get? wanted := by
  induction entries generalizing metadata with
  | nil => rfl
  | cons entry entries ih =>
    rw [map_cons, mem_cons, not_or] at outside
    rw [foldl_cons, ih (fun later inside => valid later (.tail _ inside)) _
      outside.2]
    obtain ⟨_, value⟩ := entry
    cases value with
    | none => rfl
    | some =>
      rw [insertOptional, get?_insertMetadata (valid _ mem_cons_self), if_neg (Ne.symm outside.1)]

/-- Of entries with different keys, each visible value is in the metadata. -/
theorem get?_foldl_insertOptional {entries : List (String × Option String)}
    (valid : ∀ entry ∈ entries, parseMetadataKey entry.1 = some entry.1)
    (distinct : (entries.map Prod.fst).Nodup) {key : String} {value : Option String}
    (inside : (key, value) ∈ entries) :
    (entries.foldl insertOptional (.empty _)).get? key =
      value.bind parseMetadataValue := by
  obtain ⟨front, _, rfl⟩ := append_of_mem inside
  simp only [map_append, map_cons, nodup_append, nodup_cons] at distinct
  obtain ⟨-, ⟨later, -⟩, apart⟩ := distinct
  have earlier : key ∉ front.map Prod.fst := fun member => apart key member key mem_cons_self rfl
  have own := valid (key, value) inside
  rw [foldl_append, foldl_cons,
    get?_foldl_of_notMem (fun entry member => valid entry (by simp [member])) _ later]
  have before : (front.foldl insertOptional (.empty _)).get? key = none :=
    get?_foldl_of_notMem (fun entry member => valid entry (by simp [member])) _ earlier
  cases value with
  | none => exact before
  | some =>
    rw [insertOptional, get?_insertMetadata own, if_pos rfl, before, Option.or_none]
    rfl

section Fidelity

variable {Number : Type} {format : NumberFormat Number}

/-- The names are the same for all errors. -/
theorem statusEntries_keys (error : RozeError Number) (context : Context) :
    (statusEntries format error context).map Prod.fst =
      [errorCodeMetadata, errorKindMetadata, Context.requestIdHeader, Context.traceIdHeader,
        Context.localeHeader, Context.retryBudgetHeader, fallbackStatusMetadata,
        fallbackBodyMetadata, fallbackHeadersMetadata, retryAfterMetadata] := rfl

/-- An entry is received if its value is valid. -/
theorem get?_statusFromError {error : RozeError Number} {context : Context} {key : String}
    {value : Option String} (inside : (key, value) ∈ statusEntries format error context) :
    (statusFromError format error context).metadata.get? key = value.bind parseMetadataValue := by
  refine get?_foldl_insertOptional ?_ ?_ inside
  · have valid : ∀ key ∈ (statusEntries format error context).map Prod.fst,
        parseMetadataKey key = some key := by
      rw [statusEntries_keys]
      decide +kernel
    grind
  · rw [statusEntries_keys]
    decide

/-- The text of a number is valid. -/
theorem parseMetadataValue_toString (number : Nat) :
    parseMetadataValue (toString number) = some (toString number) := by
  have visible : (toString number).toList.all isVisible = true :=
    all_eq_true.mpr fun ch inside => visible_of_numeric (decimal.numeric number ch inside)
  rw [parseMetadataValue, if_pos visible]

/-- The kind is received. -/
theorem get?_errorKind (format : NumberFormat Number) (error : RozeError Number) (context : Context) :
    (statusFromError format error context).metadata.get? errorKindMetadata = some error.kind := by
  have visible : ∀ kind ∈ ["bad_request", "conflict", "failed_precondition", "unauthorized",
      "forbidden", "rate_limited", "not_found", "unavailable", "internal", "fallback"],
      parseMetadataValue kind = some kind := by decide
  rw [get?_statusFromError (.tail _ (.head _)), Option.bind_some]
  apply visible
  cases error <;> simp [RozeError.kind]

/-- So are the seconds. -/
theorem get?_retryAfter (format : NumberFormat Number) (error : RozeError Number) (context : Context) :
    ((statusFromError format error context).metadata.get? retryAfterMetadata).bind
      RozeError.parseSeconds = error.retryAfterSeconds := by
  have last : (retryAfterMetadata, error.retryAfterSeconds.map toString) ∈
      statusEntries format error context := by simp [statusEntries]
  rw [get?_statusFromError last]
  cases error.retryAfterSeconds with
  | none => rfl
  | some seconds =>
    have written : toString seconds = toString seconds.toNat := rfl
    rw [Option.map_some, Option.bind_some, written, parseMetadataValue_toString, Option.bind_some,
      RozeError.parseSeconds, parseUnsigned_toString seconds.toNat_lt]
    simp

/-! ## Fallbacks -/

variable {reader : Reader format recursionLimit}

/-- A body that comes back: its strings and names are plain, and the reader takes its depth and
its numbers. -/
structure Transmissible (reader : Reader format recursionLimit) (body : Json Number) : Prop where
  plain : body.Plain
  shallow : body.depth < recursionLimit
  exact_numbers : ∀ number, Within (.number number) body →
    reader.read (format.text number) = some ⟨.number number, distinct_number number⟩

/-- A JSON text is valid exactly if it is plain. -/
theorem parseMetadataValue_text (format : NumberFormat Number) (value : Json Number) :
    parseMetadataValue (value.text format) = some (value.text format) ∧ value.Plain ∨
      parseMetadataValue (value.text format) = none ∧ ¬ value.Plain := by
  rw [← all_visible_chars_iff format, parseMetadataValue, Json.text, String.toList_ofList]
  grind

/-- When the body is received. -/
theorem read_body_iff (body : Option (Json.Value Number)) :
    (body.bind (fun body => parseMetadataValue (body.json.text format))).bind reader.read = body ↔
      ∀ value, body = some value → Transmissible reader value.json := by
  cases body with
  | none => exact iff_of_true rfl nofun
  | some body =>
    rw [Option.bind_some]
    constructor
    · rintro same _ ⟨⟩
      rcases parseMetadataValue_text format body.json with ⟨kept, plain⟩ | ⟨lost, -⟩
      · rw [kept, Option.bind_some] at same
        obtain ⟨shallow, exact_numbers⟩ := (reader.written body).mp same
        exact ⟨plain, shallow, exact_numbers⟩
      · simp_all
    · intro transmissible
      obtain ⟨plain, shallow, exact_numbers⟩ := transmissible body rfl
      rcases parseMetadataValue_text format body.json with ⟨kept, -⟩ | ⟨-, lost⟩
      · rw [kept, Option.bind_some]
        exact (reader.written body).mpr ⟨shallow, exact_numbers⟩
      · exact absurd plain lost

/-- No header is there twice. -/
theorem distinct_headersJson (headers : StringMap) : (headersJson headers : Json Number).Distinct := by
  rintro _ (_ | _ | ⟨inside, within⟩)
  · rw [map_map]
    exact headers.ascending.imp ne_of_lt
  · obtain ⟨_, -, rfl⟩ := mem_map.mp inside
    cases within

/-- When the text of the headers is plain. -/
theorem plain_headersJson_iff (headers : StringMap) : (headersJson headers : Json Number).Plain ↔
    ∀ header ∈ headers.values, plainText header.1 = true ∧ plainText header.2 = true := by
  constructor
  · intro plain header inside
    have member : (header.1, Json.string header.2) ∈ headers.values.map
        (fun header => (header.1, (.string header.2 : Json Number))) :=
      mem_map.mpr ⟨header, inside, rfl⟩
    exact ⟨plain.names _ .self _ member, plain.strings _ (.member member .self)⟩
  · intro plain
    constructor
    · rintro _ (_ | _ | ⟨inside, within⟩)
      obtain ⟨header, listed, rfl⟩ := mem_map.mp inside
      cases within
      exact (plain header listed).2
    · rintro _ (_ | _ | ⟨inside, within⟩) _ listed
      · grind
      · obtain ⟨_, -, rfl⟩ := mem_map.mp inside
        cases within

/-- Headers are not nested. -/
theorem depth_headersJson (headers : StringMap) : (headersJson headers : Json Number).depth = 1 := by
  have flat (entries : List (String × String)) :
      membersDepth (entries.map (fun header => (header.1, (.string header.2 : Json Number)))) = 0 := by
    induction entries with
    | nil => rfl
    | cons entry entries ih => assumption
  rw [headersJson, depth, flat]

/-- The headers are read back from their JSON. -/
theorem stringMap_headersJson (headers : StringMap) :
    stringMap (headersJson headers : Json Number) = some headers := by
  have texts (entries : List (String × String)) :
      (entries.map (fun header => (header.1, (.string header.2 : Json Number)))).mapM
        (fun member => (asStr member.2).map (fun text => (member.1, text))) = some entries := by
    induction entries with
    | nil => rfl
    | cons entry entries ih =>
      rw [map_cons, mapM_cons, ih]
      rfl
  rw [headersJson, stringMap, texts, Option.map_some]
  exact congrArg some headers.collect_values

/-- The headers come back when they are plain. -/
theorem read_headers_iff (reader : Reader format recursionLimit) (headers : StringMap) :
    (((headersText format headers).bind parseMetadataValue).bind
        (fun text => (reader.read text).bind (fun value => stringMap value.json))).getD (.empty _) =
        headers ↔
      ∀ header ∈ headers.values, plainText header.1 = true ∧ plainText header.2 = true := by
  rw [headersText]
  split
  · rename_i none
    have empty : headers.values = [] := isEmpty_iff.mp none
    refine iff_of_true (KeyedMap.ext empty.symm) ?_
    rw [empty]
    exact nofun
  · rename_i some
    rw [← @plain_headersJson_iff Number, Option.bind_some]
    have read : reader.read ((headersJson headers).text format) =
        .some ⟨headersJson headers, distinct_headersJson headers⟩ := by
      refine (reader.written ⟨headersJson headers, distinct_headersJson headers⟩).mpr ⟨?_, ?_⟩
      · exact (depth_headersJson headers).trans_lt (by decide)
      · rintro _ (_ | _ | ⟨inside, within⟩)
        obtain ⟨_, -, rfl⟩ := mem_map.mp inside
        cases within
    rcases parseMetadataValue_text format (headersJson headers) with ⟨kept, plain⟩ | ⟨lost, rough⟩
    · rw [kept, Option.bind_some, read, Option.bind_some, stringMap_headersJson]
      exact iff_of_true rfl plain
    · rw [lost]
      refine iff_of_false ?_ rough
      rintro rfl
      exact some rfl

/-! ## Round trips -/

/-- The error has the kind and the code of the other; as a fallback also its whole response, and
when the rate is limited also its seconds. -/
structure Preserves (error decoded : RozeError Number) : Prop where
  kind : decoded.kind = error.kind
  code : decoded.code = error.code
  response : ∀ status body headers, error = .fallback status body headers →
    decoded = .fallback status body headers
  seconds : ∀ seconds, error = .rateLimited seconds → decoded = .rateLimited seconds

/-- The response of a fallback can be sent as metadata. -/
def Sendable (reader : Reader format recursionLimit) : RozeError Number → Prop
  | .fallback _ body headers =>
    (∀ value, body = some value → Transmissible reader value.json) ∧
      ∀ header ∈ headers.values, plainText header.1 = true ∧ plainText header.2 = true
  | _ => True

/-- What is received of a fallback. -/
theorem errorFromStatus_fallback [NatCast Number] (reader : Reader format recursionLimit)
    (status : UInt16) (body : Option (Json.Value Number)) (headers : StringMap) (context : Context) :
    errorFromStatus reader (statusFromError format (.fallback status body headers) context) =
      .fallback status
        ((body.bind (fun body => parseMetadataValue (body.json.text format))).bind reader.read)
        ((((headersText format headers).bind parseMetadataValue).bind
          (fun text => (reader.read text).bind (fun value => stringMap value.json))).getD (.empty _)) := by
  let error : RozeError Number := .fallback status body headers
  have kind := get?_errorKind format error context
  have statusText : (statusFromError format error context).metadata.get? fallbackStatusMetadata =
      some (toString status) := by
    have inside : (fallbackStatusMetadata, some (toString status)) ∈
        statusEntries format error context := by simp [statusEntries, error]
    rw [get?_statusFromError inside]
    exact parseMetadataValue_toString status.toNat
  have bodyText : (statusFromError format error context).metadata.get? fallbackBodyMetadata =
      body.bind (fun body => parseMetadataValue (body.json.text format)) := by
    have inside : (fallbackBodyMetadata, body.map (fun body => body.json.text format)) ∈
        statusEntries format error context := by simp [statusEntries, error]
    rw [get?_statusFromError inside, Option.bind_map]
    rfl
  have headersKept : (statusFromError format error context).metadata.get? fallbackHeadersMetadata =
      (headersText format headers).bind parseMetadataValue := by
    have inside : (fallbackHeadersMetadata, headersText format headers) ∈
        statusEntries format error context := by simp [statusEntries, error]
    exact get?_statusFromError inside
  have number : (parseUnsigned (2 ^ 16) (toString status)).map UInt16.ofNat = some status := by
    have written : toString status = toString status.toNat := rfl
    rw [written, parseUnsigned_toString status.toNat_lt]
    simp
  simp only [errorFromStatus, kind, statusText, bodyText, headersKept, error, RozeError.kind, if_true,
    Option.bind_some, number, Option.getD_some]

/-- For every error and every context, the error comes back exactly when its response can be sent.

Proof: the metadata have the kind and the seconds of every error, since these texts are visible.
The kind or the code of the status then selects the kind of the error again. -/
theorem error_preserved_iff [NatCast Number] (reader : Reader format recursionLimit)
    (error : RozeError Number) (context : Context) :
    Preserves error (errorFromStatus reader (statusFromError format error context)) ↔
      Sendable reader error := by
  have kind := get?_errorKind format error context
  have seconds := get?_retryAfter format error context
  cases error with
  | fallback status body headers =>
    rw [errorFromStatus_fallback, Sendable, ← read_body_iff, ← read_headers_iff reader headers]
    constructor
    · intro preserved
      injection preserved.response status body headers rfl with _ bodies both
      exact ⟨bodies, both⟩
    · rintro ⟨bodies, both⟩
      rw [bodies, both]
      exact ⟨rfl, rfl, fun _ _ _ same => same, nofun⟩
  | conflict | failedPrecondition =>
    simp only [errorFromStatus, kind, RozeError.kind]
    exact iff_of_true ⟨rfl, rfl, nofun, nofun⟩ trivial
  | rateLimited =>
    simp only [errorFromStatus, kind, seconds, RozeError.kind]
    exact iff_of_true ⟨rfl, rfl, nofun, fun _ same => same⟩ trivial
  | unavailable =>
    simp only [errorFromStatus, kind, seconds, RozeError.kind]
    exact iff_of_true ⟨rfl, rfl, nofun, nofun⟩ trivial
  | _ =>
    simp only [errorFromStatus, kind, RozeError.kind]
    exact iff_of_true ⟨rfl, rfl, nofun, nofun⟩ trivial

end Fidelity

namespace FallbackResponse

/-- A context that has its ids only. -/
def context : Context := .backgroundWithRequestIdAndTraceId "request-1" "trace-1"

/-- A body with a code and a message. -/
def body (message : String) : Json.Value Nat where
  json := .object [("code", .number 503), ("msg", .string message)]
  distinct := by simp [Distinct]

/-- A fallback with a message and one header. -/
def error (message note : String) : RozeError Nat :=
  .fallback 503 (some (body message)) (.collect _ [("x-note", note)])

end FallbackResponse

/-- A message in another script takes the whole body along, and a note all headers. -/
theorem fallback_response_lost :
    errorFromStatus (canonical decimal_injective recursionLimit) (statusFromError decimal
      (FallbackResponse.error "服务繁忙" "café") FallbackResponse.context) =
        .fallback 503 none (.empty _) := by
  have lostBody : parseMetadataValue ((FallbackResponse.body "服务繁忙").json.text decimal) = none := by
    decide +kernel
  have lostHeaders : (headersText decimal (.collect _ [("x-note", "café")])).bind parseMetadataValue =
      none := by
    decide +kernel
  rfl

/-- In plain text the whole response comes back. -/
theorem error_preserved_iff_plain :
    Preserves (FallbackResponse.error "busy" "retry later")
      (errorFromStatus (canonical decimal_injective recursionLimit) (statusFromError decimal
        (FallbackResponse.error "busy" "retry later") FallbackResponse.context)) := by
  refine (error_preserved_iff _ _ _).mpr ⟨?_, by decide⟩
  rintro _ ⟨⟩
  refine ⟨(all_visible_chars_iff decimal _).mp (by decide +kernel), by decide, fun number _ => ?_⟩
  exact canonicalRead_number decimal_injective (by decide) number

end Roze.Rpc
