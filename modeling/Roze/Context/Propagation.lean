import Roze.Library.Clock
import Roze.Library.FramedFields
import Roze.Library.KeyedMap
import Roze.Library.MachineInteger
import Roze.Library.Text

/-!
# Propagation of the request context

A context crosses a process boundary as headers: the two correlation ids, the remaining time,
the retry budget, the identity, and one header for each metadata entry. Names are compared
without regard to case. A header that is missing may be supplied by an alias.

Lists are flattened with commas. A role that has a comma, or white space at its ends, or that
is empty, does not come back; all else does.
-/

namespace Roze

open Roze.Library Option KeyedMap

/-! ## Maps from texts to texts -/

/-- A map that has one value for a name. -/
abbrev StringMap := KeyedMap (Prod.fst : String × String → String)

namespace StringMap

/-- The value of a name. -/
def get? (map : StringMap) (name : String) : Option String := (map.find? name).map Prod.snd

/-- The name has a value. -/
def contains (map : StringMap) (name : String) : Bool := (map.find? name).isSome

/-- Every name is in small letters. -/
def Lower (map : StringMap) : Prop :=
  ∀ entry ∈ map.values, toAsciiLowercase entry.1 = entry.1

variable {name : String}

/-- A lookup finds the entries of the map. -/
theorem get?_eq_some_iff {map : StringMap} {value : String} :
    map.get? name = some value ↔ (name, value) ∈ map.values := by
  rw [get?, map_eq_some_iff]
  constructor
  · rintro ⟨_, found, rfl⟩
    obtain ⟨member, rfl⟩ := find?_eq_some_iff.mp found
    exact member
  · intro member
    exact ⟨_, find?_eq_some_iff.mpr ⟨member, rfl⟩, rfl⟩

/-- Of several entries with one name, the last counts. -/
theorem get?_collect (entries : List (String × String)) (name : String) :
    get? (.collect _ entries) name =
      ((entries.filter (fun entry => decide (entry.1 = name))).getLast?).map Prod.snd := by
  rw [get?, find?_collect]

/-- Without two entries for a name, all are found. -/
theorem get?_collect_eq_some_iff {entries : List (String × String)} {value : String}
    (unique : ∀ first ∈ entries, ∀ second ∈ entries, first.1 = second.1 → first = second) :
    get? (.collect _ entries) name = some value ↔ (name, value) ∈ entries := by
  rw [get?, map_eq_some_iff]
  constructor
  · rintro ⟨_, found, rfl⟩
    obtain ⟨member, rfl⟩ := (find?_collect_eq_some_iff unique).mp found
    exact member
  · intro member
    exact ⟨_, (find?_collect_eq_some_iff unique).mpr ⟨member, rfl⟩, rfl⟩

/-- Maps with the same values are equal. -/
theorem ext_get? {first second : StringMap} (same : ∀ name, first.get? name = second.get? name) :
    first = second := by
  apply ext_find?
  intro name
  have values := same name
  apply Option.ext
  rintro ⟨_, _⟩
  simp only [find?_eq_some_iff]
  constructor
  · rintro ⟨member, rfl⟩
    exact ⟨get?_eq_some_iff.mp (values ▸ get?_eq_some_iff.mpr member), rfl⟩
  · rintro ⟨member, rfl⟩
    exact ⟨get?_eq_some_iff.mp (values.symm ▸ get?_eq_some_iff.mpr member), rfl⟩

/-- A name is there if it has a value. -/
theorem contains_eq (map : StringMap) (name : String) : map.contains name = (map.get? name).isSome := by
  rw [contains, get?, isSome_map]

/-- A name is there if an entry has it. -/
theorem contains_iff {map : StringMap} :
    map.contains name = true ↔ ∃ entry ∈ map.values, entry.1 = name := by
  rw [contains, isSome_iff_exists]
  exact exists_congr fun entry => find?_eq_some_iff

/-- An inserted entry replaces the one of its name. -/
theorem get?_insert (map : StringMap) (name value wanted : String) :
    get? (map.insert (name, value)) wanted = if name = wanted then some value else map.get? wanted := by
  rw [get?, find?_insert]
  split <;> rfl

end StringMap

/-! ## Names -/

namespace Context

/-- The request id. -/
def requestIdHeader : String := "x-request-id"
/-- The trace id. -/
def traceIdHeader : String := "x-trace-id"
/-- The remaining time. -/
def timeoutHeader : String := "x-roze-timeout-ms"
/-- What is left of the retry budget. -/
def retryBudgetHeader : String := "x-roze-retry-budget-remaining"
/-- The idempotency key. -/
def idempotencyKeyHeader : String := "idempotency-key"
/-- The locale. -/
def localeHeader : String := "x-roze-locale"
/-- The subject of the identity. -/
def subjectHeader : String := "x-roze-subject"
/-- The tenant of the identity. -/
def tenantHeader : String := "x-roze-tenant"
/-- The roles, with commas between them. -/
def rolesHeader : String := "x-roze-roles"
/-- The permissions. -/
def permissionsHeader : String := "x-roze-meta-permissions"
/-- The scope. -/
def scopeHeader : String := "x-roze-meta-scope"
/-- What the headers of metadata begin with. -/
def metadataHeaderPrefix : String := "x-roze-meta-"

/-- The entry of the locale. -/
def localeMetadataKey : String := "locale"
/-- The entry of the user. -/
def userIdMetadataKey : String := "uid"
/-- The entry of the device. -/
def deviceIdMetadataKey : String := "device_id"
/-- The entry of the scope. -/
def scopeMetadataKey : String := "scope"
/-- The entry of the permissions. -/
def permissionsMetadataKey : String := "permissions"
/-- The entry of the idempotency key. -/
def idempotencyKeyMetadataKey : String := "idempotency_key"

def hulaTenantIdHeader : String := "x-hula-tenant-id"
def hulaUidHeader : String := "x-hula-uid"
def hulaDeviceIdHeader : String := "x-hula-device-id"
def hulaTraceIdHeader : String := "x-hula-trace-id"
def hulaRequestIdHeader : String := "x-hula-request-id"
def hulaRoleHeader : String := "x-hula-role"
def hulaScopeHeader : String := "x-hula-scope"

/-- The largest budget that is passed on. -/
def maxPropagatedRetryBudget : UInt64 := 64

end Context

/-- Other names under which a header may come. -/
structure HeaderAliases where
  requestId : List String
  traceId : List String
  subject : List String
  tenant : List String
  roles : List String
  metadata : List (String × String)

/-- The aliases of the source. -/
def HeaderAliases.hula : HeaderAliases where
  requestId := [Context.hulaRequestIdHeader]
  traceId := [Context.hulaTraceIdHeader]
  subject := [Context.hulaUidHeader]
  tenant := [Context.hulaTenantIdHeader]
  roles := [Context.hulaRoleHeader]
  metadata := [(Context.userIdMetadataKey, Context.hulaUidHeader),
    (Context.deviceIdMetadataKey, Context.hulaDeviceIdHeader),
    (Context.scopeMetadataKey, Context.hulaScopeHeader)]

/-! ## Contexts -/

/-- Who the request is for. -/
structure AuthContext where
  subject : String
  roles : List String
  tenant : Option String
deriving DecidableEq

/-- What a context propagates; the counter of the retry budget with its present value. -/
structure Context where
  requestId : String
  traceId : String
  auth : Option AuthContext
  metadata : StringMap
  deadline : Option Instant
  retryBudget : Option UInt64

/-- The text of a generated id. -/
structure TraceId where
  text : String
  filled : text.isEmpty = false

namespace Context

/-- A context that has its two ids only. -/
def backgroundWithRequestIdAndTraceId (requestId traceId : String) : Context where
  requestId := requestId
  traceId := traceId
  auth := none
  metadata := .empty _
  deadline := none
  retryBudget := none

section Accessors

variable (context : Context)

/-- The subject, of a request with an identity. -/
def subject : Option String := context.auth.map AuthContext.subject

/-- The tenant, of a request with an identity. -/
def tenant : Option String := context.auth.bind AuthContext.tenant

/-- The roles; without an identity there are none. -/
def roles : List String := (context.auth.map AuthContext.roles).getD []

/-- A metadata entry. -/
def metadataValue (key : String) : Option String := context.metadata.get? key

/-- The locale, which is a metadata entry. -/
def locale : Option String := context.metadataValue localeMetadataKey

/-- The idempotency key, which is a metadata entry. -/
def idempotencyKey : Option String := context.metadataValue idempotencyKeyMetadataKey

/-- The parts between commas and white space. -/
def splitContextList (raw : String) : List String :=
  (((raw.toList.splitOnP (fun ch => ch == ',' || isWhitespace ch)).map String.ofList).map trim).filter
    (fun part => !part.isEmpty)

/-- The permissions, which are one metadata entry. -/
def permissions : List String :=
  ((context.metadataValue permissionsMetadataKey).map splitContextList).getD []

/-- The context with other metadata. -/
def withMetadataMap (metadata : StringMap) : Context := { context with metadata }

/-- The context with an identity. -/
def withAuth (auth : AuthContext) : Context := { context with auth := some auth }

/-- The context with a budget, capped. -/
def withRetryBudget (remaining : UInt64) : Context :=
  { context with retryBudget := some (min remaining maxPropagatedRetryBudget) }

/-- The deadline a timeout from now, unless the clock cannot show it. -/
def withTimeout (timeout : Duration) (now : Instant) : Option Context :=
  (now.checkedAdd timeout).map (fun deadline => { context with deadline := some deadline })

/-- What is left; `none` also when the deadline has passed. -/
def remainingTimeout (now : Instant) : Option Duration :=
  context.deadline.bind (fun deadline => deadline.checkedDurationSince now)

end Accessors

/-! ## Writing headers -/

section Writing

variable (context : Context) (now : Instant)

/-- The headers with fixed names, in the order in which they are inserted. -/
def fixedFields : List (String × Option String) :=
  [(requestIdHeader, some context.requestId),
    (traceIdHeader, some context.traceId),
    (timeoutHeader, (context.remainingTimeout now).map fun timeout =>
      toString (max timeout.asMillis 1)),
    (retryBudgetHeader, context.retryBudget.map fun remaining => toString remaining.toNat),
    (subjectHeader, context.auth.map AuthContext.subject),
    (tenantHeader, context.auth.bind AuthContext.tenant),
    (rolesHeader, context.auth.bind fun auth =>
      if auth.roles.isEmpty then none else some (joinParts "," auth.roles)),
    (idempotencyKeyHeader, context.idempotencyKey)]

/-- A header for each metadata entry. -/
def metadataEntries : List (String × String) :=
  context.metadata.values.map (fun entry => (metadataHeaderPrefix ++ entry.1, entry.2))

/-- All headers of a context. Of two with one name the later counts. -/
def propagationHeaders : StringMap :=
  .collect _ (present (context.fixedFields now) ++ context.metadataEntries)

end Writing

/-! ## Reading headers -/

section Reading

variable (headers : StringMap) (aliases : HeaderAliases)

/-- The value of the first header with the name, without regard to case. -/
def headerValue (key : String) : Option String :=
  (headers.values.find? (fun entry => eqIgnoreAsciiCase entry.1 key)).map Prod.snd

/-- A header, or else the first alias that is there. -/
def headerValueWithAliases (key : String) (aliases : List String) : Option String :=
  (headerValue headers key).or (aliases.findSome? (headerValue headers))

/-- The budget that came, capped. -/
def retryBudgetFromHeaders : Option UInt64 :=
  ((headerValue headers retryBudgetHeader).bind (parseUnsigned (2 ^ 64))).map
    (fun remaining => min (.ofNat remaining) maxPropagatedRetryBudget)

/-- The entries of the headers that carry metadata. -/
def prefixedEntries : List (String × String) :=
  headers.values.filterMap fun entry =>
    (stripBeginning metadataHeaderPrefix (toAsciiLowercase entry.1)).map (·, entry.2)

/-- An entry that is missing is taken from a header that is not empty. -/
def supply (metadata : StringMap) (source : String × String) : StringMap :=
  if metadata.contains source.1 then metadata
  else
    match (headerValue headers source.2).filter (fun value => !value.isEmpty) with
    | some value => metadata.insert (source.1, value)
    | none => metadata

/-- The metadata, with what the aliases and the idempotency key supply. -/
def metadataFromHeadersWithAliases : StringMap :=
  supply headers (aliases.metadata.foldl (supply headers) (.collect _ (prefixedEntries headers)))
    (idempotencyKeyMetadataKey, idempotencyKeyHeader)

/-- The identity. Without a subject there is none. -/
def authFromHeadersWithAliases : Option AuthContext :=
  ((headerValueWithAliases headers subjectHeader aliases.subject).filter
      (fun value => !value.isEmpty)).map fun subject =>
    { subject
      tenant := (headerValueWithAliases headers tenantHeader aliases.tenant).filter
        (fun value => !value.isEmpty)
      roles := ((headerValueWithAliases headers rolesHeader aliases.roles).map listItems).getD [] }

variable (generated : TraceId) (now : Instant)

/-- The request id, or else a generated one. -/
def requestIdFromHeaders : String :=
  ((headerValueWithAliases headers requestIdHeader aliases.requestId).filter
    (fun value => !value.isEmpty)).getD generated.text

/-- The trace id, or else the request id. -/
def traceIdFromHeaders : String :=
  ((headerValueWithAliases headers traceIdHeader aliases.traceId).filter
    (fun value => !value.isEmpty)).getD (requestIdFromHeaders headers aliases generated)

/-- The time that the sender had left. -/
def timeoutFromHeaders : Option Duration :=
  ((headerValue headers timeoutHeader).bind (parseUnsigned (2 ^ 64))).map
    (fun millis => .fromMillis (.ofNat millis))

/-- There is no context when the clock cannot show the deadline. -/
def fromPropagationHeadersWithAliases : Option Context := do
  let context := (backgroundWithRequestIdAndTraceId (requestIdFromHeaders headers aliases generated)
    (traceIdFromHeaders headers aliases generated)).withMetadataMap
      (metadataFromHeadersWithAliases headers aliases)
  let context := match authFromHeadersWithAliases headers aliases with
    | some auth => context.withAuth auth
    | none => context
  let context ← match timeoutFromHeaders headers with
    | some timeout => context.withTimeout timeout now
    | none => some context
  match retryBudgetFromHeaders headers with
  | some remaining => some (context.withRetryBudget remaining)
  | none => some context

/-- The context under the aliases of the source. -/
def fromPropagationHeaders : Option Context :=
  fromPropagationHeadersWithAliases headers .hula generated now

end Reading

/-- The deadline that the headers ask for, unless the clock cannot show it. -/
def deadlineFromHeaders (headers : StringMap) (now : Instant) : Option (Option Instant) :=
  match timeoutFromHeaders headers with
  | some timeout => (now.checkedAdd timeout).map some
  | none => some none

variable {headers : StringMap}

/-- A budget that came is not capped again. -/
theorem retryBudgetFromHeaders_capped {remaining : UInt64}
    (found : retryBudgetFromHeaders headers = some remaining) :
    min remaining maxPropagatedRetryBudget = remaining := by
  obtain ⟨_, _, rfl⟩ := map_eq_some_iff.mp found
  grind

/-- Each field of a restored context comes from the headers on its own. -/
theorem fromPropagationHeadersWithAliases_eq (headers : StringMap) (aliases : HeaderAliases)
    (generated : TraceId) (now : Instant) :
    fromPropagationHeadersWithAliases headers aliases generated now =
      (deadlineFromHeaders headers now).map fun deadline =>
        { requestId := requestIdFromHeaders headers aliases generated
          traceId := traceIdFromHeaders headers aliases generated
          auth := authFromHeadersWithAliases headers aliases
          metadata := metadataFromHeadersWithAliases headers aliases
          deadline
          retryBudget := retryBudgetFromHeaders headers } := by
  have capped := @retryBudgetFromHeaders_capped headers
  simp only [fromPropagationHeadersWithAliases, deadlineFromHeaders]
  cases timed : timeoutFromHeaders headers with
  | none =>
    cases budgeted : retryBudgetFromHeaders headers with
    | none => cases authFromHeadersWithAliases headers aliases <;> rfl
    | some =>
      cases authFromHeadersWithAliases headers aliases <;>
        simp [withRetryBudget, withMetadataMap, withAuth, backgroundWithRequestIdAndTraceId,
          capped budgeted]
  | some timeout =>
    simp only [withTimeout]
    cases now.checkedAdd timeout with
    | none => rfl
    | some =>
      cases budgeted : retryBudgetFromHeaders headers with
      | none => cases authFromHeadersWithAliases headers aliases <;> rfl
      | some =>
        cases authFromHeadersWithAliases headers aliases <;>
          simp [withRetryBudget, withMetadataMap, withAuth, backgroundWithRequestIdAndTraceId,
            capped budgeted]

/-- At an early reading there is a context. -/
theorem deadlineFromHeaders_isSome (headers : StringMap) {now : Instant} (early : now.early = true) :
    (deadlineFromHeaders headers now).isSome := by
  unfold deadlineFromHeaders
  split
  · rename_i found
    obtain ⟨_, _, rfl⟩ := map_eq_some_iff.mp found
    rw [isSome_map]
    exact Instant.checkedAdd_fromMillis early _
  · rfl

/-- An entry is supplied where it is missing, and no other entry changes. -/
theorem get?_supply (headers metadata : StringMap) (key name wanted : String) :
    (supply headers metadata (key, name)).get? wanted =
      if wanted = key then
        (metadata.get? key).or ((headerValue headers name).filter (fun value => !value.isEmpty))
      else metadata.get? wanted := by
  rw [supply, StringMap.contains_eq]
  cases here : metadata.get? key with
  | some => simp_all
  | none =>
    rw [if_neg (by simp), none_or]
    cases (headerValue headers name).filter (fun value => !value.isEmpty) with
    | none => simp_all
    | some => simp only [StringMap.get?_insert, eq_comm (a := key)]

/-! ## Names in small letters -/

/-- Among names in small letters a lookup without regard to case is a lookup. -/
theorem headerValue_of_lower (lower : headers.Lower) {key : String}
    (small : toAsciiLowercase key = key) : headerValue headers key = headers.get? key := by
  rw [headerValue, StringMap.get?, KeyedMap.find?]
  congr 1
  apply List.find?_congr
  intro entry member
  simp only [eqIgnoreAsciiCase, lower entry member, small]
  rfl

/-- Metadata comes from the headers that begin with the prefix. -/
theorem mem_prefixedEntries_iff (lower : headers.Lower) {entry : String × String} :
    entry ∈ prefixedEntries headers ↔ (metadataHeaderPrefix ++ entry.1, entry.2) ∈ headers.values := by
  rw [prefixedEntries, List.mem_filterMap]
  constructor
  · rintro ⟨named, member, stripped⟩
    obtain ⟨_, beginning, rfl⟩ := map_eq_some_iff.mp stripped
    rw [lower named member, stripBeginning_eq_some_iff] at beginning
    rwa [← beginning]
  · intro member
    refine ⟨_, member, ?_⟩
    have stripped := stripBeginning_eq_some_iff.mpr (lower _ member)
    rw [stripped]
    rfl

/-- Among names in small letters the metadata of a key is the value of its header. -/
theorem get?_prefixed_of_lower (lower : headers.Lower) (key : String) :
    StringMap.get? (.collect _ (prefixedEntries headers)) key =
      headers.get? (metadataHeaderPrefix ++ key) := by
  have unique : ∀ first ∈ prefixedEntries headers, ∀ second ∈ prefixedEntries headers,
      first.1 = second.1 → first = second := by
    intro first firstMember second secondMember same
    have named := key_injective ((mem_prefixedEntries_iff lower).mp firstMember)
      ((mem_prefixedEntries_iff lower).mp secondMember) (by rw [same])
    exact Prod.ext same (Prod.ext_iff.mp named).2
  apply Option.ext
  intro value
  rw [StringMap.get?_collect_eq_some_iff unique, StringMap.get?_eq_some_iff,
    mem_prefixedEntries_iff lower]

end Context

end Roze
