import Roze.Context.Propagation
import Roze.Http.HeaderMap

/-!
# Identity behind the edge

A gateway, and a service that does not trust forwarded identities, remove the identity headers
of a client before they build the context. The gateway then writes those of the principal that
it authenticated.

The context reads every header with the metadata marker. Of the entries that an identity header
or one of its aliases can set, one is not removed: the user id, under its metadata name. All
other parts of the identity depend on the credential only.
-/

namespace Roze.Edge

open Roze.Context List
open Roze.Http
open Roze.Library

/-! ## Authentication at the gateway -/

inductive AuthPolicy where
  | jwt
  | apiKey
  | any
deriving DecidableEq

structure AuthPrincipal where
  subject : String
  roles : List String
  tenant : Option String
  permissions : List String
  scopes : List String

structure ApiKeyCredential where
  key : String
  subject : String
  roles : List String
  tenant : Option String
  permissions : List String
  scopes : List String

structure ApiKeyConfig where
  header : String
  keys : List ApiKeyCredential

/-- The principal of the first credential with the key. -/
def verifyApiKey (value : String) (config : ApiKeyConfig) : Option AuthPrincipal :=
  (config.keys.find? (fun credential => credential.key == value)).map fun credential =>
    { subject := credential.subject
      roles := credential.roles
      tenant := credential.tenant
      permissions := credential.permissions
      scopes := credential.scopes }

/-- The token of a bearer header. -/
def extractBearerToken (headerValue : String) : Option String :=
  (stripBeginning "Bearer " headerValue).or (stripBeginning "bearer " headerValue)

/-- What a gateway checks requests of a route with. The verifier of tokens stands for the
configuration of JWT. -/
structure GatewayAuth where
  policy : Option AuthPolicy
  verifyToken : Option (String → Option AuthPrincipal)
  apiKeys : Option ApiKeyConfig

namespace GatewayAuth

variable (auth : GatewayAuth) (headers : RequestHeaders)

/-- The principal of a token in the authorization header. -/
def validateToken : Option AuthPrincipal := do
  let verify ← auth.verifyToken
  let value ← headers.get "authorization"
  let token ← extractBearerToken (← value.toStr)
  verify token

/-- The principal of a key in the configured header. -/
def validateApiKey : Option AuthPrincipal := do
  let config ← auth.apiKeys
  let name ← parseHeaderName config.header
  let value ← headers.get name
  verifyApiKey (← value.toStr) config

/-- The principal that the policy accepts. -/
def validateRequestAuth : AuthPolicy → Option AuthPrincipal
  | .jwt => auth.validateToken headers
  | .apiKey => auth.validateApiKey headers
  | .any => (auth.validateToken headers).or (auth.validateApiKey headers)

def apiKeyNames : List String := ((auth.apiKeys.map ApiKeyConfig.header).bind parseHeaderName).toList

/-- The headers that carry the credentials of a policy. -/
def credentialNames : AuthPolicy → List String
  | .jwt => ["authorization"]
  | .apiKey => auth.apiKeyNames
  | .any => "authorization" :: auth.apiKeyNames

end GatewayAuth

/-! ## Identity headers -/

def clearedNames : List String :=
  [subjectHeader, tenantHeader, rolesHeader, permissionsHeader, scopeHeader, hulaUidHeader,
    hulaTenantIdHeader, hulaRoleHeader, hulaScopeHeader]

/-- What a middleware removes. -/
def clearUntrustedAuthContextHeaders (headers : RequestHeaders) : RequestHeaders :=
  clearedNames.foldl RequestHeaders.remove headers

def strippedNames : List String :=
  [subjectHeader, tenantHeader, rolesHeader, permissionsHeader, scopeHeader, hulaTenantIdHeader,
    hulaUidHeader, hulaRoleHeader, hulaScopeHeader]

/-- What the gateway removes. -/
def stripIdentityHeaders (headers : RequestHeaders) : RequestHeaders :=
  strippedNames.foldl RequestHeaders.remove headers

/-- A value that is not valid is not inserted. -/
def insertHeader (headers : RequestHeaders) (field : String × String) : RequestHeaders :=
  match HeaderValue.fromStr field.2 with
  | some value => headers.insert field.1 value
  | none => headers

/-- A list with entries, joined by commas. -/
def joinedList (entries : List String) : Option String :=
  if entries.isEmpty then none else some (joinParts "," entries)

/-- The headers of a principal. -/
def principalFields (principal : AuthPrincipal) : List (String × Option String) :=
  [(subjectHeader, some principal.subject),
    (tenantHeader, principal.tenant.filter (fun tenant => !tenant.isEmpty)),
    (rolesHeader, joinedList principal.roles),
    (permissionsHeader, joinedList principal.permissions),
    (scopeHeader, joinedList principal.scopes)]

/-- The headers of a principal. -/
def injectAuthContextHeaders (headers : RequestHeaders) (principal : AuthPrincipal) :
    RequestHeaders :=
  (present (principalFields principal)).foldl insertHeader headers

/-! ## The two edges -/

/-- Where a request comes in. -/
inductive EdgeService where
  | gateway (auth : GatewayAuth)
  /-- A service that does not trust forwarded identity headers. -/
  | middleware

namespace EdgeService

/-- The headers behind the edge, unless the request is not authorized. -/
def forward (headers : RequestHeaders) : EdgeService → Option RequestHeaders
  | .gateway auth =>
      let headers := clearUntrustedAuthContextHeaders headers
      match auth.policy with
      | none => some headers
      | some policy => (auth.validateRequestAuth headers policy).map (injectAuthContextHeaders headers)
  | .middleware => some (stripIdentityHeaders headers)

/-- The headers that the policy of the route checks. -/
def credentials : EdgeService → List String
  | .gateway auth => (auth.policy.map auth.credentialNames).getD []
  | .middleware => []

end EdgeService

open EdgeService

/-- The headers that have a text; of several lines of a name the last one. -/
def propagation (headers : RequestHeaders) : StringMap :=
  .collect _ (headers.lines.filterMap fun line => line.2.toStr.map (line.1, ·))

/-- The context behind the edge. -/
def EdgeService.context (edge : EdgeService) (headers : RequestHeaders) (generated : TraceId) (now : Instant) :
    Option Context :=
  (edge.forward headers).bind fun headers => fromPropagationHeaders (propagation headers) generated now

/-- The parts of a context that say on whose behalf a request is made. -/
structure Identity where
  subject : Option String
  tenant : Option String
  roles : List String
  permissions : List String
  scope : Option String
  uid : Option String
deriving DecidableEq

/-- Who a context says that the request is for. -/
def identity (context : Context) : Identity where
  subject := context.subject
  tenant := context.tenant
  roles := context.roles
  permissions := context.permissions
  scope := context.metadataValue scopeMetadataKey
  uid := context.metadataValue userIdMetadataKey

/-! ## What the identity depends on -/

/-- Names come in small letters. -/
theorem lower_propagation (headers : RequestHeaders) : (propagation headers).Lower := by
  intro entry member
  obtain ⟨line, place, read⟩ := mem_filterMap.mp (KeyedMap.mem_of_mem_collect member)
  obtain ⟨_, _, rfl⟩ := Option.map_eq_some_iff.mp read
  exact headers.lower line place

/-- The text of a name is that of the last of its readable lines. -/
theorem get?_propagation (headers : RequestHeaders) (name : String) :
    (propagation headers).get? name = ((headers.getAll name).filterMap HeaderValue.toStr).getLast? := by
  rw [propagation, StringMap.get?_collect, ← getLast?_map, HeaderMap.getAll]
  congr 1
  induction headers.lines with
  | nil => rfl
  | cons line rest ih =>
    obtain ⟨own, value⟩ := line
    cases read : value.toStr with
    | none | some => grind

/-- The name under which the user id is metadata. -/
def uidHeader : String := metadataHeaderPrefix ++ userIdMetadataKey

/-- The headers that the identity is read from. -/
def identityNames : List String := uidHeader :: clearedNames

/-- A text that is there and not empty. -/
def filled (value : Option String) : Option String := value.filter (fun text => !text.isEmpty)

/-- The authentication, as read from the texts of headers. -/
def authOf (read : String → Option String) : Option AuthContext :=
  (filled ((read subjectHeader).or (read hulaUidHeader))).map fun subject =>
    { subject
      tenant := filled ((read tenantHeader).or (read hulaTenantIdHeader))
      roles := (((read rolesHeader).or (read hulaRoleHeader)).map listItems).getD [] }

/-- The identity, as read from the texts of headers. -/
def identityOf (read : String → Option String) : Identity where
  subject := (authOf read).map AuthContext.subject
  tenant := (authOf read).bind AuthContext.tenant
  roles := ((authOf read).map AuthContext.roles).getD []
  permissions := ((read permissionsHeader).map splitContextList).getD []
  scope := (read scopeHeader).or (filled (read hulaScopeHeader))
  uid := (read uidHeader).or (filled (read hulaUidHeader))

/-- The identity depends on the values only. -/
theorem auth_eq {headers : StringMap} (lower : headers.Lower) :
    authFromHeadersWithAliases headers .hula = authOf headers.get? := by
  have small : ∀ name ∈ clearedNames, toAsciiLowercase name = name := by decide +kernel
  have read : ∀ name ∈ clearedNames, headerValue headers name = headers.get? name :=
    fun name member => headerValue_of_lower lower (small name member)
  simp only [clearedNames, forall_mem_cons] at read
  obtain ⟨subject, tenant, roles, -, -, hulaUid, hulaTenant, hulaRole, -, -⟩ := read
  have single : ∀ name : String, [name].findSome? (headerValue headers) = headerValue headers name := by
    simp
  simp only [authFromHeadersWithAliases, authOf, headerValueWithAliases, HeaderAliases.hula, single,
    subject, tenant, roles, hulaUid, hulaTenant, hulaRole, filled]

/-- The metadata of an identity comes from its marked header, or else from an alias. -/
theorem metadata_eq {headers : StringMap} (lower : headers.Lower) :
    let metadata := metadataFromHeadersWithAliases headers .hula
    metadata.get? permissionsMetadataKey = headers.get? permissionsHeader ∧
      metadata.get? scopeMetadataKey =
        (headers.get? scopeHeader).or (filled (headers.get? hulaScopeHeader)) ∧
      metadata.get? userIdMetadataKey =
        (headers.get? uidHeader).or (filled (headers.get? hulaUidHeader)) := by
  have small : ∀ name ∈ identityNames, toAsciiLowercase name = name := by decide +kernel
  have uid := headerValue_of_lower lower (small hulaUidHeader (by decide +kernel))
  have scope := headerValue_of_lower lower (small hulaScopeHeader (by decide +kernel))
  have marked := get?_prefixed_of_lower lower
  have distinct : [userIdMetadataKey, deviceIdMetadataKey, scopeMetadataKey, idempotencyKeyMetadataKey,
      permissionsMetadataKey].Nodup := by decide +kernel
  simp only [nodup_cons, mem_cons, not_or, not_mem_nil, not_false_eq_true, and_true]
    at distinct
  obtain ⟨⟨userDevice, userScope, userKey, userPermissions⟩, ⟨deviceScope, deviceKey, devicePermissions⟩,
    ⟨scopeKey, scopePermissions⟩, keyPermissions, -⟩ := distinct
  simp only [metadataFromHeadersWithAliases, HeaderAliases.hula, foldl_cons, foldl_nil,
    get?_supply, marked, uid, scope, if_neg userDevice, if_neg userScope, if_neg userKey,
    if_neg (Ne.symm userScope), if_neg (Ne.symm deviceScope), if_neg scopeKey,
    if_neg (Ne.symm userPermissions), if_neg (Ne.symm devicePermissions),
    if_neg (Ne.symm scopePermissions), if_neg (Ne.symm keyPermissions), if_true]
  exact ⟨rfl, rfl, rfl⟩

/-- So does that of a restored context. -/
theorem identity_eq {headers : StringMap} (lower : headers.Lower) {generated : TraceId}
    {now : Instant} {context : Context}
    (restored : fromPropagationHeaders headers generated now = some context) :
    identity context = identityOf headers.get? := by
  rw [fromPropagationHeaders, fromPropagationHeadersWithAliases_eq] at restored
  obtain ⟨_, _, rfl⟩ := Option.map_eq_some_iff.mp restored
  obtain ⟨permissions, scope, uid⟩ := metadata_eq lower
  simp only [identity, identityOf, Context.subject, Context.tenant, Context.roles,
    Context.permissions, Context.metadataValue, auth_eq lower, permissions, scope, uid]

/-- Only these names matter to it. -/
theorem identityOf_congr {first second : String → Option String}
    (same : ∀ name ∈ identityNames, first name = second name) : identityOf first = identityOf second := by
  simp only [identityNames, clearedNames, forall_mem_cons] at same
  obtain ⟨uid, subject, tenant, roles, permissions, scope, hulaUid, hulaTenant, hulaRole, hulaScope, -⟩
    := same
  simp only [identityOf, authOf, uid, subject, tenant, roles, permissions, scope, hulaUid,
    hulaTenant, hulaRole, hulaScope]

/-! ## What passes the edge -/

section Forwarding

variable {first second : RequestHeaders} {name : String}

/-- A principal keeps requests alike. -/
theorem inject_agrees (same : first.getAll name = second.getAll name) (principal : AuthPrincipal) :
    (injectAuthContextHeaders first principal).getAll name =
      (injectAuthContextHeaders second principal).getAll name := by
  unfold injectAuthContextHeaders
  induction present (principalFields principal) generalizing first second with
  | nil => exact same
  | cons field rest ih =>
    apply ih
    unfold insertHeader
    split
    · rw [RequestHeaders.getAll_insert, RequestHeaders.getAll_insert, same]
    · exact same

/-- The headers that are written for a principal. -/
def injectedNames : List String :=
  [subjectHeader, tenantHeader, rolesHeader, permissionsHeader, scopeHeader]

/-- Other headers stay. -/
theorem getAll_foldl_insertHeader {fields : List (String × String)} (headers : RequestHeaders)
    (other : ∀ field ∈ fields, toAsciiLowercase field.1 ≠ name) :
    (fields.foldl insertHeader headers).getAll name = headers.getAll name := by
  induction fields generalizing headers with
  | nil => rfl
  | cons field rest ih =>
    rw [foldl_cons, ih _ (fun later member =>
      other later (mem_cons_of_mem field member))]
    unfold insertHeader
    split
    · rw [RequestHeaders.getAll_insert, if_neg (Ne.symm (other field mem_cons_self))]
    · rfl

/-- Other headers stay as they are. -/
theorem getAll_inject (headers : RequestHeaders) (principal : AuthPrincipal)
    (other : name ∉ injectedNames) :
    (injectAuthContextHeaders headers principal).getAll name = headers.getAll name := by
  apply getAll_foldl_insertHeader
  intro field member written
  have small : ∀ name ∈ injectedNames, toAsciiLowercase name = name := by decide +kernel
  have named : field.1 ∈ injectedNames := name_of_mem_present member
  simp_all

/-- The principal depends on the credentials only. -/
theorem GatewayAuth.validate_agrees {auth : GatewayAuth} {policy : AuthPolicy}
    (same : ∀ name ∈ auth.credentialNames policy, first.getAll name = second.getAll name) :
    auth.validateRequestAuth first policy = auth.validateRequestAuth second policy := by
  have token (agree : first.getAll "authorization" = second.getAll "authorization") :
      auth.validateToken first = auth.validateToken second := by
    simp only [validateToken, HeaderMap.get, agree]
  have key (agree : ∀ name ∈ auth.apiKeyNames, first.getAll name = second.getAll name) :
      auth.validateApiKey first = auth.validateApiKey second := by
    unfold validateApiKey
    cases configured : auth.apiKeys with
    | none => rfl
    | some config =>
      cases parsed : parseHeaderName config.header with
      | none => simp [parsed]
      | some name =>
        have values := agree name (by simp [apiKeyNames, configured, parsed])
        simp [parsed, HeaderMap.get, values]
  cases policy with
  | jwt => exact token (same _ mem_cons_self)
  | apiKey => exact key same
  | any =>
    simp only [validateRequestAuth, token (same _ mem_cons_self),
      key (fun name member => same name (mem_cons_of_mem _ member))]

/-- Requests with the same credentials have the same identity headers behind the edge. -/
theorem forward_agrees {edge : EdgeService} {forwarded forwarded' : RequestHeaders}
    (passed : edge.forward first = some forwarded) (passed' : edge.forward second = some forwarded')
    (same : ∀ name ∈ edge.credentials, first.getAll name = second.getAll name) :
    ∀ name ∈ clearedNames, forwarded.getAll name = forwarded'.getAll name := by
  have cleared : ∀ name, (first.getAll name = second.getAll name ∨ name ∈ clearedNames) →
      (clearUntrustedAuthContextHeaders first).getAll name =
        (clearUntrustedAuthContextHeaders second).getAll name := by
    intro name agree
    simp only [clearUntrustedAuthContextHeaders, RequestHeaders.getAll_removeAll]
    grind
  intro name member
  cases edge with
  | middleware =>
    cases passed
    cases passed'
    have listed : ∀ name ∈ clearedNames, name ∈ strippedNames := by decide +kernel
    simp only [stripIdentityHeaders, RequestHeaders.getAll_removeAll, if_pos (listed name member)]
  | gateway auth =>
    simp only [forward] at passed passed'
    cases checked : auth.policy with
    | none => simp_all
    | some policy =>
      rw [checked] at passed passed'
      have credentials : ∀ name ∈ auth.credentialNames policy,
          (clearUntrustedAuthContextHeaders first).getAll name =
            (clearUntrustedAuthContextHeaders second).getAll name :=
        fun name listed => cleared name (.inl (same name (by
          rw [credentials, checked]
          exact listed)))
      obtain ⟨principal, valid, rfl⟩ := Option.map_eq_some_iff.mp passed
      obtain ⟨_, valid', rfl⟩ := Option.map_eq_some_iff.mp passed'
      rw [GatewayAuth.validate_agrees credentials, valid'] at valid
      cases valid
      exact inject_agrees (cleared name (.inr member)) principal

/-- The user id passes under its metadata name, and under its alias it does not. -/
theorem forward_uid {edge : EdgeService} {forwarded : RequestHeaders}
    (passed : edge.forward first = some forwarded) :
    forwarded.getAll uidHeader = first.getAll uidHeader ∧ forwarded.getAll hulaUidHeader = [] := by
  have unlisted : uidHeader ∉ clearedNames ∧ uidHeader ∉ strippedNames ∧ uidHeader ∉ injectedNames ∧
      hulaUidHeader ∉ injectedNames := by decide +kernel
  have listed : hulaUidHeader ∈ clearedNames ∧ hulaUidHeader ∈ strippedNames := by decide +kernel
  obtain ⟨uncleared, unstripped, uninjected, aliasUninjected⟩ := unlisted
  have cleared : (clearUntrustedAuthContextHeaders first).getAll uidHeader = first.getAll uidHeader ∧
      (clearUntrustedAuthContextHeaders first).getAll hulaUidHeader = [] := by
    simp only [clearUntrustedAuthContextHeaders, RequestHeaders.getAll_removeAll, if_neg uncleared,
      if_pos listed.1, and_self]
  cases edge with
  | middleware =>
    cases passed
    simp only [stripIdentityHeaders, RequestHeaders.getAll_removeAll, if_neg unstripped,
      if_pos listed.2, and_self]
  | gateway auth =>
    simp only [forward] at passed
    cases checked : auth.policy with
    | none => simp_all
    | some =>
      rw [checked] at passed
      obtain ⟨_, _, rfl⟩ := Option.map_eq_some_iff.mp passed
      rw [getAll_inject _ _ uninjected, getAll_inject _ _ aliasUninjected]
      exact cleared

end Forwarding

/-- The identity behind an edge is the same for two requests with the same credentials, if and
only if they carry the same readable user id under its metadata name. -/
theorem identity_independent_iff (edge : EdgeService) {first second : RequestHeaders}
    (credentials : ∀ name ∈ edge.credentials, first.getAll name = second.getAll name)
    {generated generated' : TraceId} {now now' : Instant} {context context' : Context}
    (built : edge.context first generated now = some context)
    (built' : edge.context second generated' now' = some context') :
    identity context = identity context' ↔
      (propagation first).get? uidHeader = (propagation second).get? uidHeader := by
  obtain ⟨_, passed, restored⟩ := Option.bind_eq_some_iff.mp built
  obtain ⟨_, passed', restored'⟩ := Option.bind_eq_some_iff.mp built'
  obtain ⟨uid, noAlias⟩ := forward_uid passed
  obtain ⟨uid', noAlias'⟩ := forward_uid passed'
  rw [identity_eq (lower_propagation _) restored, identity_eq (lower_propagation _) restored',
    get?_propagation first, get?_propagation second, ← uid, ← uid', ← get?_propagation,
    ← get?_propagation]
  constructor
  · intro same
    have ids := congrArg Identity.uid same
    simp only [identityOf, get?_propagation _ hulaUidHeader, noAlias, noAlias'] at ids
    simpa [filled] using ids
  · intro same
    apply identityOf_congr
    intro name member
    rcases mem_cons.mp member with rfl | cleared
    · exact same
    · rw [get?_propagation, get?_propagation,
        forward_agrees passed passed' credentials name cleared]

/-! ### A user id of the client's choice -/

namespace SpoofedUid

def auth : GatewayAuth where
  policy := some .apiKey
  verifyToken := none
  apiKeys := some
    { header := "X-Api-Key"
      keys := [⟨"secret", "user-1", ["reader"], some "tenant-1", ["orders:read"], []⟩] }

/-- A value of ASCII characters. -/
def value (text : String) : HeaderValue := ⟨text.toList.map (fun ch => .ofNat ch.toNat)⟩

/-- A request with the key and with further headers. -/
def request (further : List (String × HeaderValue))
    (lower : ∀ line ∈ further, toAsciiLowercase line.1 = line.1) : RequestHeaders where
  lines := ("x-api-key", value "secret") :: further
  lower := List.forall_mem_cons.mpr ⟨by decide +kernel, lower⟩

def plain : RequestHeaders := request [] RequestHeaders.empty.lower

def spoofed : RequestHeaders := request [("x-roze-meta-uid", value "user-2")] (by decide +kernel)

def renamed : RequestHeaders :=
  request [("x-roze-subject", value "user-2"), ("x-hula-uid", value "user-2"),
    ("x-roze-roles", value "admin")] (by decide +kernel)

def generated : TraceId := ⟨"trace-edge", rfl⟩

/-- The identity of the key. -/
def owner (uid : Option String) : Identity where
  subject := some "user-1"
  tenant := some "tenant-1"
  roles := ["reader"]
  permissions := ["orders:read"]
  scope := none
  uid := uid

end SpoofedUid

open SpoofedUid in
/-- Two requests with the same key differ in the user id behind the gateway. Behind a service
that does not authenticate, the user id of the client's choice is the only one. -/
theorem uid_spoofed :
    (∀ name ∈ (EdgeService.gateway auth).credentials, plain.getAll name = spoofed.getAll name) ∧
    ((EdgeService.gateway auth).context plain generated .zero).map identity = some (owner none) ∧
    ((EdgeService.gateway auth).context spoofed generated .zero).map identity =
      some (owner (some "user-2")) ∧
    (EdgeService.middleware.context plain generated .zero).map identity =
      some ⟨none, none, [], [], none, none⟩ ∧
    (EdgeService.middleware.context spoofed generated .zero).map identity =
      some ⟨none, none, [], [], none, some "user-2"⟩ := by
  decide +kernel

open SpoofedUid in
/-- Headers that name a subject and roles change nothing behind the gateway. -/
theorem identity_independent_iff_renamed :
    ∃ context context',
      (∀ name ∈ (EdgeService.gateway auth).credentials, plain.getAll name = renamed.getAll name) ∧
      (EdgeService.gateway auth).context plain generated .zero = some context ∧
      (EdgeService.gateway auth).context renamed generated .zero = some context' ∧
      identity context = identity context' := by
  have credentials : ∀ name ∈ (gateway auth).credentials,
      plain.getAll name = renamed.getAll name := by decide +kernel
  have admitted : ((gateway auth).context plain generated .zero).isSome := by
    decide +kernel
  have admitted' : ((gateway auth).context renamed generated .zero).isSome := by
    decide +kernel
  have uids : (propagation plain).get? uidHeader = (propagation renamed).get? uidHeader := by
    decide +kernel
  obtain ⟨context, built⟩ := Option.isSome_iff_exists.mp admitted
  obtain ⟨context', built'⟩ := Option.isSome_iff_exists.mp admitted'
  exact ⟨context, context', credentials, built, built',
    (identity_independent_iff _ credentials built built').mpr uids⟩

end Roze.Edge
