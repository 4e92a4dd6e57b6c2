import Roze.Context.Propagation

/-!
# Restoring a propagated context

The headers that a context writes are read back to the same ids, identity, metadata and retry
budget. Roles are flattened with commas: a role that is empty, has a comma, or has white space
at its ends does not come back. A context that was restored has no such role, so propagating
and restoring it again changes nothing.
-/

namespace Roze

open StringMap

open Roze.Library List

namespace Context

/-! ## What the headers of a context hold -/

/-- The names of the headers that do not carry metadata. -/
def fixedNames : List String :=
  [requestIdHeader, traceIdHeader, timeoutHeader, retryBudgetHeader, subjectHeader, tenantHeader,
    rolesHeader, idempotencyKeyHeader]

section Written

variable {context : Context} {now : Instant}

theorem fixedNames_nodup : fixedNames.Nodup := by decide +kernel

theorem fixedNames_lower : ∀ name ∈ fixedNames, toAsciiLowercase name = name := by decide +kernel

theorem fixedNames_plain :
    ∀ name ∈ fixedNames, stripBeginning metadataHeaderPrefix name = none := by decide +kernel

variable {name : String}

/-- A metadata header has none of the other names. -/
theorem filter_metadataEntries (plain : stripBeginning metadataHeaderPrefix name = none) :
    context.metadataEntries.filter (fun entry => decide (entry.1 = name)) = [] := by
  apply filter_eq_nil_iff.mpr
  intro entry member
  obtain ⟨_, _, rfl⟩ := mem_map.mp member
  simp only [decide_eq_true_eq]
  intro same
  rw [stripBeginning_eq_some_iff.mpr same.symm] at plain
  cases plain

theorem get?_propagationHeaders {value : Option String}
    (field : (name, value) ∈ context.fixedFields now) :
    (context.propagationHeaders now).get? name = value := by
  have named : name ∈ fixedNames := mem_map_of_mem (f := Prod.fst) field
  have distinct : ((context.fixedFields now).map Prod.fst).Nodup := fixedNames_nodup
  rw [propagationHeaders, get?_collect, filter_append,
    filter_metadataEntries (fixedNames_plain name named), append_nil,
    filter_present distinct field]
  cases value with
  | none | some => rfl

/-- Other names that do not carry metadata have no header. -/
theorem get?_propagationHeaders_other (other : name ∉ fixedNames)
    (plain : stripBeginning metadataHeaderPrefix name = none) :
    (context.propagationHeaders now).get? name = none := by
  have nowhere : (present (context.fixedFields now)).filter (fun entry => decide (entry.1 = name)) =
      [] := by
    apply filter_eq_nil_iff.mpr
    intro entry member
    simp only [decide_eq_true_eq]
    rintro rfl
    exact other (name_of_mem_present member)
  rw [propagationHeaders, get?_collect, filter_append, nowhere,
    filter_metadataEntries plain]
  rfl

theorem get?_propagationHeaders_metadata (key : String) :
    (context.propagationHeaders now).get? (metadataHeaderPrefix ++ key) = context.metadata.get? key := by
  have plain : (present (context.fixedFields now)).filter
      (fun entry => decide (entry.1 = metadataHeaderPrefix ++ key)) = [] := by
    apply filter_eq_nil_iff.mpr
    intro entry member
    simp only [decide_eq_true_eq]
    intro same
    have unmarked := fixedNames_plain entry.1 (name_of_mem_present member)
    rw [stripBeginning_eq_some_iff.mpr same] at unmarked
    cases unmarked
  have unique : ∀ first ∈ context.metadataEntries, ∀ second ∈ context.metadataEntries,
      first.1 = second.1 → first = second := by
    intro first firstMember second secondMember same
    obtain ⟨source, place, rfl⟩ := mem_map.mp firstMember
    obtain ⟨source', place', rfl⟩ := mem_map.mp secondMember
    have equal : source = source' := by
      apply KeyedMap.key_injective place place'
      simp_all
    rw [equal]
  apply Option.ext
  intro value
  rw [propagationHeaders, get?_collect, filter_append, plain, nil_append,
    ← get?_collect, get?_collect_eq_some_iff unique,
    get?_eq_some_iff, metadataEntries, mem_map]
  simp

theorem propagationHeaders_lower (lower : context.metadata.Lower) :
    (context.propagationHeaders now).Lower := by
  intro entry member
  rcases mem_append.mp (KeyedMap.mem_of_mem_collect member) with fixed | carried
  · exact fixedNames_lower entry.1 (name_of_mem_present fixed)
  · obtain ⟨source, place, rfl⟩ := mem_map.mp carried
    have small : toAsciiLowercase metadataHeaderPrefix = metadataHeaderPrefix := by decide +kernel
    rw [toAsciiLowercase_append, small, lower source place]

end Written

/-! ## Restoring what was propagated -/

/-- A context with ids, a subject and a tenant that are not empty and metadata keys in small
letters. -/
structure Propagable (context : Context) : Prop where
  requestId : context.requestId.isEmpty = false
  traceId : context.traceId.isEmpty = false
  subject : ∀ subject, context.subject = some subject → subject.isEmpty = false
  tenant : ∀ tenant, context.tenant = some tenant → tenant.isEmpty = false
  metadata : context.metadata.Lower

/-- The headers that the aliases name. -/
def aliasNames : List String :=
  [hulaRequestIdHeader, hulaTraceIdHeader, hulaUidHeader, hulaTenantIdHeader, hulaRoleHeader,
    hulaDeviceIdHeader, hulaScopeHeader]

section Restored

variable {context : Context} {sent : Instant}

variable {name : String} {value : Option String}

theorem headerValue_propagationHeaders (lower : context.metadata.Lower)
    (field : (name, value) ∈ context.fixedFields sent) :
    headerValue (context.propagationHeaders sent) name = value := by
  have small := fixedNames_lower name (mem_map_of_mem (f := Prod.fst) field)
  rw [headerValue_of_lower (propagationHeaders_lower lower) small, get?_propagationHeaders field]

/-- No alias is written. -/
theorem headerValue_propagationHeaders_alias (sent : Instant) (lower : context.metadata.Lower) :
    ∀ name ∈ aliasNames, headerValue (context.propagationHeaders sent) name = none := by
  intro name member
  have facts : ∀ name ∈ aliasNames, toAsciiLowercase name = name ∧ name ∉ fixedNames ∧
      stripBeginning metadataHeaderPrefix name = none := by decide +kernel
  obtain ⟨small, other, plain⟩ := facts name member
  rw [headerValue_of_lower (propagationHeaders_lower lower) small,
    get?_propagationHeaders_other other plain]

/-- With one alias, which is not written, the standard name decides. -/
theorem headerValueWithAliases_propagationHeaders (lower : context.metadata.Lower)
    {other : String} (field : (name, value) ∈ context.fixedFields sent)
    (member : other ∈ aliasNames) :
    headerValueWithAliases (context.propagationHeaders sent) name [other] = value := by
  rw [headerValueWithAliases, headerValue_propagationHeaders lower field, findSome?_cons,
    headerValue_propagationHeaders_alias sent lower other member, findSome?_nil, Option.or_none]

theorem supply_of_absent {headers metadata : StringMap} (key : String)
    (absent : headerValue headers name = none) :
    supply headers metadata (key, name) = metadata := by
  rw [supply, absent]
  split <;> rfl

theorem metadata_restored (lower : context.metadata.Lower) :
    metadataFromHeadersWithAliases (context.propagationHeaders sent) .hula = context.metadata := by
  have carried : KeyedMap.collect _ (prefixedEntries (context.propagationHeaders sent)) =
      context.metadata := by
    apply ext_get?
    intro key
    rw [get?_prefixed_of_lower (propagationHeaders_lower lower), get?_propagationHeaders_metadata]
  have absent := headerValue_propagationHeaders_alias sent lower
  rw [metadataFromHeadersWithAliases, carried]
  simp only [HeaderAliases.hula, foldl_cons, foldl_nil]
  rw [supply_of_absent userIdMetadataKey (absent hulaUidHeader (by decide +kernel)),
    supply_of_absent deviceIdMetadataKey (absent hulaDeviceIdHeader (by decide +kernel)),
    supply_of_absent scopeMetadataKey (absent hulaScopeHeader (by decide +kernel))]
  -- the idempotency key is written in two places, and its metadata entry decides
  cases keyed : context.idempotencyKey with
  | none =>
    have field : (idempotencyKeyHeader, none) ∈ context.fixedFields sent := by
      rw [← keyed]
      simp only [fixedFields, mem_cons, true_or, or_true]
    exact supply_of_absent _ (headerValue_propagationHeaders lower field)
  | some key =>
    rw [supply, if_pos]
    rw [contains_eq]
    exact Option.isSome_iff_exists.mpr ⟨key, keyed⟩

/-- A value that is filled passes the test for it. -/
theorem filter_filled (filled : ∀ text, value = some text → text.isEmpty = false) :
    value.filter (fun text => !text.isEmpty) = value := by
  cases value with
  | none => rfl
  | some text => simp [filled text rfl]

/-- The roles as they come back. -/
def readRoles (roles : List String) : List String :=
  if roles.isEmpty then [] else listItems (joinParts "," roles)

theorem auth_restored (propagable : context.Propagable) :
    authFromHeadersWithAliases (context.propagationHeaders sent) .hula =
      context.auth.map (fun auth => { auth with roles := readRoles auth.roles }) := by
  have subject : headerValueWithAliases (context.propagationHeaders sent) subjectHeader
      [hulaUidHeader] = context.subject :=
    headerValueWithAliases_propagationHeaders propagable.metadata
      (by simp [fixedFields, Context.subject]) (by decide +kernel)
  have tenant : headerValueWithAliases (context.propagationHeaders sent) tenantHeader
      [hulaTenantIdHeader] = context.tenant :=
    headerValueWithAliases_propagationHeaders propagable.metadata
      (by simp [fixedFields, Context.tenant]) (by decide +kernel)
  have roles : headerValueWithAliases (context.propagationHeaders sent) rolesHeader
      [hulaRoleHeader] = context.auth.bind fun auth =>
        if auth.roles.isEmpty then none else some (joinParts "," auth.roles) :=
    headerValueWithAliases_propagationHeaders propagable.metadata (by simp [fixedFields])
      (by decide +kernel)
  simp only [authFromHeadersWithAliases, HeaderAliases.hula, subject, tenant, roles,
    filter_filled propagable.subject, filter_filled propagable.tenant]
  cases present : context.auth with
  | none => simp [Context.subject, present]
  | some =>
    simp only [Context.subject, Context.tenant, present, Option.map_some, Option.bind_some, readRoles]
    split <;> rfl

theorem ids_restored (sent : Instant) (propagable : context.Propagable) (generated : TraceId) :
    requestIdFromHeaders (context.propagationHeaders sent) .hula generated = context.requestId ∧
      traceIdFromHeaders (context.propagationHeaders sent) .hula generated = context.traceId := by
  have requestId : headerValueWithAliases (context.propagationHeaders sent) requestIdHeader
      [hulaRequestIdHeader] = some context.requestId :=
    headerValueWithAliases_propagationHeaders propagable.metadata (by simp [fixedFields])
      (by decide +kernel)
  have traceId : headerValueWithAliases (context.propagationHeaders sent) traceIdHeader
      [hulaTraceIdHeader] = some context.traceId :=
    headerValueWithAliases_propagationHeaders propagable.metadata (by simp [fixedFields])
      (by decide +kernel)
  have filledRequest : ∀ text, some context.requestId = some text → text.isEmpty = false :=
    fun text same => Option.some.inj same ▸ propagable.requestId
  have filledTrace : ∀ text, some context.traceId = some text → text.isEmpty = false :=
    fun text same => Option.some.inj same ▸ propagable.traceId
  simp only [requestIdFromHeaders, traceIdFromHeaders, HeaderAliases.hula, requestId, traceId,
    filter_filled filledRequest, filter_filled filledTrace, Option.getD_some, and_self]

theorem retryBudget_restored (lower : context.metadata.Lower) :
    retryBudgetFromHeaders (context.propagationHeaders sent) =
      context.retryBudget.map (min · maxPropagatedRetryBudget) := by
  have written : headerValue (context.propagationHeaders sent) retryBudgetHeader =
      context.retryBudget.map fun remaining => toString remaining.toNat :=
    headerValue_propagationHeaders lower (by simp [fixedFields])
  rw [retryBudgetFromHeaders, written]
  cases context.retryBudget with
  | none => rfl
  | some remaining =>
    have parsed := parseUnsigned_toString remaining.toNat_lt
    simp_all

/-- What the headers of a context are restored to, at an early reading of the clock. -/
theorem restored_eq (sent : Instant) (propagable : context.Propagable) (generated : TraceId)
    {received : Instant} (early : received.early = true) :
    ∃ deadline,
      fromPropagationHeaders (context.propagationHeaders sent) generated received = some
        { context with
          auth := context.auth.map (fun auth => { auth with roles := readRoles auth.roles })
          deadline
          retryBudget := context.retryBudget.map (min · maxPropagatedRetryBudget) } := by
  have shown := deadlineFromHeaders_isSome (context.propagationHeaders sent) early
  obtain ⟨deadline, read⟩ := Option.isSome_iff_exists.mp shown
  refine ⟨deadline, ?_⟩
  obtain ⟨requestId, traceId⟩ := ids_restored sent propagable generated
  rw [fromPropagationHeaders, fromPropagationHeadersWithAliases_eq, read, Option.map_some, requestId,
    traceId, auth_restored propagable, metadata_restored propagable.metadata,
    retryBudget_restored propagable.metadata]

end Restored

/-! ## Restored contexts -/

section Again

variable {headers : StringMap} {generated : TraceId} {now : Instant} {context : Context}

theorem lower_supply {metadata : StringMap} (lower : metadata.Lower) {source : String × String}
    (small : toAsciiLowercase source.1 = source.1) : (supply headers metadata source).Lower := by
  unfold supply
  split
  · exact lower
  · split
    · intro entry member
      rcases (KeyedMap.mem_insertSorted_iff metadata.ascending).mp member with rfl | ⟨old, -⟩
      · exact small
      · exact lower entry old
    · exact lower

/-- Metadata keys are read from names in small letters. -/
theorem lower_prefixed : StringMap.Lower (.collect _ (prefixedEntries headers)) := by
  intro entry member
  obtain ⟨named, _, stripped⟩ := mem_filterMap.mp (KeyedMap.mem_of_mem_collect member)
  obtain ⟨_, beginning, rfl⟩ := Option.map_eq_some_iff.mp stripped
  have whole := stripBeginning_eq_some_iff.mp beginning
  have small : toAsciiLowercase metadataHeaderPrefix = metadataHeaderPrefix := by decide +kernel
  have twice := toAsciiLowercase_idem named.1
  rw [whole, toAsciiLowercase_append, small] at twice
  simp_all

theorem lower_metadataFromHeaders : (metadataFromHeadersWithAliases headers .hula).Lower := by
  have folded : ∀ (sources : List (String × String)) (metadata : StringMap), metadata.Lower →
      (∀ source ∈ sources, toAsciiLowercase source.1 = source.1) →
      (sources.foldl (supply headers) metadata).Lower := by
    intro sources
    induction sources with
    | nil => simp
    | cons source rest ih =>
      intro metadata lower small
      apply ih
      · exact lower_supply lower (small source mem_cons_self)
      · grind
  apply lower_supply
  · exact folded _ _ lower_prefixed (by decide +kernel)
  · decide +kernel

/-- A value that passed the test is filled. -/
theorem filled_of_filter {value : Option String} {text : String}
    (passed : value.filter (fun text => !text.isEmpty) = some text) : text.isEmpty = false := by
  simp_all

theorem filled_getD {value : Option String} {other : String} (filled : other.isEmpty = false) :
    ((value.filter (fun text => !text.isEmpty)).getD other).isEmpty = false := by
  cases passed : value.filter (fun text => !text.isEmpty) with
  | none => exact filled
  | some => exact filled_of_filter passed

section

variable (restored : fromPropagationHeaders headers generated now = some context)
include restored

/-- A restored context can be propagated, and its roles come back. -/
theorem restored_propagable :
    context.Propagable ∧ ∀ auth, context.auth = some auth → ∀ role ∈ auth.roles, isItem role = true := by
  rw [fromPropagationHeaders, fromPropagationHeadersWithAliases_eq] at restored
  obtain ⟨_, _, rfl⟩ := Option.map_eq_some_iff.mp restored
  have requestId : (requestIdFromHeaders headers .hula generated).isEmpty = false :=
    filled_getD generated.filled
  constructor
  · refine ⟨requestId, filled_getD requestId, ?_, ?_, lower_metadataFromHeaders⟩
    · intro subject known
      obtain ⟨auth, found, rfl⟩ := Option.map_eq_some_iff.mp known
      obtain ⟨subject, passed, rfl⟩ := Option.map_eq_some_iff.mp found
      exact filled_of_filter passed
    · intro tenant known
      obtain ⟨auth, found, kept⟩ := Option.bind_eq_some_iff.mp known
      obtain ⟨subject, _, rfl⟩ := Option.map_eq_some_iff.mp found
      exact filled_of_filter kept
  · intro auth found role member
    obtain ⟨_, _, rfl⟩ := Option.map_eq_some_iff.mp found
    cases listed : headerValueWithAliases headers rolesHeader HeaderAliases.hula.roles with
    | none => simp_all
    | some =>
      simp only [listed, Option.map_some, Option.getD_some] at member
      exact isItem_of_mem_listItems member

/-- A restored budget is within the bound. -/
theorem restored_budget :
    context.retryBudget.map (min · maxPropagatedRetryBudget) = context.retryBudget := by
  rw [fromPropagationHeaders, fromPropagationHeadersWithAliases_eq] at restored
  obtain ⟨_, _, rfl⟩ := Option.map_eq_some_iff.mp restored
  cases found : retryBudgetFromHeaders headers with
  | none => rfl
  | some => simp [retryBudgetFromHeaders_capped found]

end

/-- Roles that can be items come back. -/
theorem readRoles_eq_iff {roles : List String} :
    readRoles roles = roles ↔ ∀ role ∈ roles, isItem role = true :=
  listItems_join_iff roles

end Again

/-- The restored context has the ids, the identity, the metadata and the capped retry budget of
the propagated one. -/
structure Preserved (context restored : Context) : Prop where
  requestId : restored.requestId = context.requestId
  traceId : restored.traceId = context.traceId
  subject : restored.subject = context.subject
  tenant : restored.tenant = context.tenant
  roles : restored.roles = context.roles
  metadata : restored.metadata = context.metadata
  permissions : restored.permissions = context.permissions
  retryBudget : restored.retryBudget = context.retryBudget.map (min · maxPropagatedRetryBudget)

/-- A context that can be propagated is preserved if and only if each of its roles is not empty,
has no comma and has no white space at its ends. A context that was restored from any headers
is restored again as it is, except for its deadline. -/
theorem propagation_preserves_iff {received : Instant} (early : received.early = true) :
    (∀ (context : Context) (generated : TraceId) (sent : Instant), context.Propagable →
      ((∃ restored, fromPropagationHeaders (context.propagationHeaders sent) generated received =
          some restored ∧ Preserved context restored) ↔
        ∀ role ∈ context.roles, isItem role = true)) ∧
    ∀ (headers : StringMap) (first second : TraceId) (now sent : Instant) (context : Context),
      fromPropagationHeaders headers first now = some context →
      ∃ deadline, fromPropagationHeaders (context.propagationHeaders sent) second received =
        some { context with deadline } := by
  constructor
  · intro context generated sent propagable
    obtain ⟨deadline, restored⟩ := restored_eq sent propagable generated early
    rw [restored]
    have read : Context.roles { context with
          auth := context.auth.map (fun auth => { auth with roles := readRoles auth.roles })
          deadline
          retryBudget := context.retryBudget.map (min · maxPropagatedRetryBudget) } =
        readRoles context.roles := by
      cases present : context.auth with
      | none => simp [Context.roles, present, readRoles]
      | some => simp [Context.roles, present]
    rw [← readRoles_eq_iff]
    constructor
    · rintro ⟨_, same, preserved⟩
      obtain rfl := Option.some.inj same
      exact read.symm.trans preserved.roles
    · intro same
      refine ⟨_, rfl, ⟨rfl, rfl, ?_, ?_, read.trans same, rfl, rfl, rfl⟩⟩
      · cases present : context.auth with
        | none | some => simp [Context.subject, present]
      · cases present : context.auth with
        | none | some => simp [Context.tenant, present]
  · intro headers first second now sent context restored
    obtain ⟨propagable, items⟩ := restored_propagable restored
    obtain ⟨deadline, again⟩ := restored_eq sent propagable second early
    refine ⟨deadline, ?_⟩
    have auth : context.auth.map (fun auth => { auth with roles := readRoles auth.roles }) =
        context.auth := by
      cases present : context.auth with
      | none => rfl
      | some auth => simp [readRoles_eq_iff.mpr (items auth present)]
    rw [again, auth, restored_budget restored]

/-! ### A role with a comma -/

namespace Roles

def generated : TraceId := ⟨"trace-0", rfl⟩

def caller (roles : List String) : Context where
  requestId := "request-1"
  traceId := "trace-1"
  auth := some ⟨"user-1", roles, some "tenant-1"⟩
  metadata := .collect _ [("locale", "zh-CN"), ("idempotency_key", "checkout-42")]
  deadline := none
  retryBudget := some 3

theorem caller_propagable (roles : List String) : (caller roles).Propagable where
  requestId := rfl
  traceId := rfl
  subject := by
    rintro _ ⟨⟩
    rfl
  tenant := by
    rintro _ ⟨⟩
    rfl
  metadata := by
    have small : ∀ entry ∈ [("locale", "zh-CN"), ("idempotency_key", "checkout-42")],
        toAsciiLowercase entry.1 = entry.1 := by decide +kernel
    exact fun entry member => small entry (KeyedMap.mem_of_mem_collect member)

end Roles

/-- A role with a comma comes back as two roles. -/
theorem role_with_comma_split :
    (Roles.caller ["ops,admin"]).Propagable ∧
    (fromPropagationHeaders ((Roles.caller ["ops,admin"]).propagationHeaders .zero) Roles.generated
      .zero).map Context.roles = some ["ops", "admin"] := by
  refine ⟨Roles.caller_propagable _, ?_⟩
  decide +kernel

/-- Roles without commas come back, and restoring again changes nothing. -/
theorem propagation_preserves_iff_two_roles :
    Instant.zero.early = true ∧
    ∃ restored, fromPropagationHeaders ((Roles.caller ["admin", "ops"]).propagationHeaders .zero)
        Roles.generated .zero = some restored ∧
      Preserved (Roles.caller ["admin", "ops"]) restored ∧
      ∃ deadline, fromPropagationHeaders (restored.propagationHeaders .zero) Roles.generated .zero =
        some { restored with deadline } := by
  have early : Instant.zero.early = true := by decide
  obtain ⟨first, again⟩ := propagation_preserves_iff early
  have items : ∀ role ∈ (Roles.caller ["admin", "ops"]).roles, isItem role = true := by
    decide +kernel
  obtain ⟨restored, result, preserved⟩ :=
    (first _ Roles.generated .zero (Roles.caller_propagable _)).mpr items
  exact ⟨early, restored, result, preserved, again _ _ Roles.generated _ .zero _ result⟩

end Context

end Roze
