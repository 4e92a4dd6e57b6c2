import Roze.Library.Execution
import Roze.Library.FramedFields
import Roze.Library.Text

/-!
# Rate limit keys

A key policy selects dimensions and headers of a caller's identity. The selected values
are written one after the other, each with its name and its length in bytes, and the
digest of that text names the bucket. A header is two components: its value and then
its name. An empty value counts as missing; a missing one is an error or is left out.
-/

namespace Roze.RateLimiting

open Roze.Library List

inductive RateLimitDimension where
  | route
  | clientIp
  | subject
  | tenant
deriving DecidableEq, Repr

inductive MissingDimensionPolicy where
  | reject
  | omit
deriving DecidableEq, Repr

structure RateLimitKeyPolicy where
  dimensions : List RateLimitDimension
  headers : List String
  missing : MissingDimensionPolicy

structure RateLimitIdentity where
  service : String
  boundary : String
  operation : String
  clientIp : Option String
  subject : Option String
  tenant : Option String
  headers : String → Option String

inductive RateLimitError where
  | emptyKeyPolicy
  | missingDimension (name : String)
  | invalidHeader (name : String)
deriving DecidableEq, Repr

def validHeaderName (value : String) : Bool :=
  !value.isEmpty && value.toList.all (fun ch =>
    ch.isLower || ch.isDigit || ['-', '_', '.'].contains ch)

/-- The form in which a header is looked up. -/
def normalizeHeader (header : String) : String := toAsciiLowercase (trim header)

namespace RateLimitKeyPolicy

/-- Add a dimension to those seen so far. -/
def insertDimension (seen : List RateLimitDimension) (dimension : RateLimitDimension) :
    Except String (List RateLimitDimension) :=
  if dimension ∈ seen then .error "rate limit key dimensions must not contain duplicates"
  else .ok (dimension :: seen)

/-- Add a header to those seen so far. -/
def insertHeader (seen : List String) (header : String) : Except String (List String) :=
  if !validHeaderName (normalizeHeader header) then
    .error ("rate limit header name `" ++ header ++ "` is invalid")
  else if normalizeHeader header ∈ seen then
    .error "rate limit header names must not contain duplicates"
  else .ok (normalizeHeader header :: seen)

def validate (policy : RateLimitKeyPolicy) : Except String Unit := do
  if policy.dimensions.isEmpty && policy.headers.isEmpty then
    throw "rate limit key policy must select at least one dimension or header"
  let _ ← policy.dimensions.foldlM insertDimension []
  let _ ← policy.headers.foldlM insertHeader []

end RateLimitKeyPolicy

open RateLimitKeyPolicy

/-- A value that is there and not empty. -/
def shown (value : Option String) : Option String := value.filter (fun value => !value.isEmpty)

def pushComponent (missing : MissingDimensionPolicy) (material : String) (name : String)
    (value : Option String) : Except RateLimitError String :=
  match shown value with
  | none =>
      match missing with
      | .reject => .error (.missingDimension name)
      | .omit => .ok material
  | some value =>
      .ok (material ++ "|" ++ name ++ ":" ++ toString value.utf8ByteSize ++ ":" ++ value)

/-- The components of one dimension. -/
def pushDimension (missing : MissingDimensionPolicy) (identity : RateLimitIdentity)
    (material : String) : RateLimitDimension → Except RateLimitError String
  | .route => do
      let material ← pushComponent missing material "service" (some identity.service)
      let material ← pushComponent missing material "boundary" (some identity.boundary)
      pushComponent missing material "operation" (some identity.operation)
  | .clientIp => pushComponent missing material "client_ip" identity.clientIp
  | .subject => pushComponent missing material "subject" identity.subject
  | .tenant => pushComponent missing material "tenant" identity.tenant

/-- The components of one header. -/
def pushHeader (missing : MissingDimensionPolicy) (identity : RateLimitIdentity)
    (material : String) (header : String) : Except RateLimitError String := do
  if !validHeaderName (normalizeHeader header) then throw (.invalidHeader header)
  let material ← pushComponent missing material "header" (identity.headers (normalizeHeader header))
  pushComponent missing material "header_name" (some (normalizeHeader header))

/-- The text that is digested. -/
def keyMaterial (policy : RateLimitKeyPolicy) (identity : RateLimitIdentity) :
    Except RateLimitError String := do
  if policy.dimensions.isEmpty && policy.headers.isEmpty then throw .emptyKeyPolicy
  let material ← policy.dimensions.foldlM (pushDimension policy.missing identity)
    "roze-rate-limit-key-v1"
  policy.headers.foldlM (pushHeader policy.missing identity) material

def buildKey (digest : ByteArray → List UInt8) (policy : RateLimitKeyPolicy)
    (identity : RateLimitIdentity) : Except RateLimitError String := do
  let material ← keyMaterial policy identity
  return hexText (digest material.toUTF8)

/-! ## The components as fields -/

/-- The frames of the components: sizes count bytes. -/
def framing : Framing where
  opening := '|'
  separator := ':'
  weight := Char.utf8Size
  separator_not_digit := isDigit_colon
  weight_pos := Char.utf8Size_pos

/-- The text of named values. -/
def componentText (fields : List (String × String)) : List Char :=
  framing.encode (fields.map (fun field => (field.1.toList, field.2.toList)))

def dimensionFields (identity : RateLimitIdentity) :
    RateLimitDimension → List (String × Option String)
  | .route => [("service", shown (some identity.service)),
      ("boundary", shown (some identity.boundary)), ("operation", shown (some identity.operation))]
  | .clientIp => [("client_ip", shown identity.clientIp)]
  | .subject => [("subject", shown identity.subject)]
  | .tenant => [("tenant", shown identity.tenant)]

def headerFields (identity : RateLimitIdentity) (header : String) : List (String × Option String) :=
  [("header", shown (identity.headers (normalizeHeader header))),
    ("header_name", shown (some (normalizeHeader header)))]

/-- All components that a policy selects, with the values that are shown. -/
def keyFields (policy : RateLimitKeyPolicy) (identity : RateLimitIdentity) :
    List (String × Option String) :=
  policy.dimensions.flatMap (dimensionFields identity) ++
    policy.headers.flatMap (headerFields identity)

theorem componentText_append (first second : List (String × String)) :
    componentText (first ++ second) = componentText first ++ componentText second := by
  simp [componentText, Framing.encode]

variable {missing : MissingDimensionPolicy} {material : String}

theorem pushComponent_text {after name : String} {value : Option String}
    (pushed : pushComponent missing material name value = .ok after) :
    after.toList = material.toList ++ componentText (present [(name, shown value)]) := by
  unfold pushComponent at pushed
  split at pushed
  · rename_i hidden
    split at pushed
    · cases pushed
    · cases pushed
      simp [hidden, present, componentText, Framing.encode]
  · rename_i found
    cases pushed
    simp [found, present, componentText, Framing.encode, Framing.frame, Framing.size, framing,
      utf8ByteSize_eq]

/-- A loop of pushes appends the components of each item. -/
theorem foldlM_text {Item : Type} {push : String → Item → Except RateLimitError String}
    {fields : Item → List (String × Option String)}
    (pushes : ∀ material item after, push material item = .ok after →
      after.toList = material.toList ++ componentText (present (fields item))) {items : List Item}
    {after : String} (folded : items.foldlM push material = .ok after) :
    after.toList = material.toList ++ componentText (present (items.flatMap fields)) := by
  induction items generalizing material with
  | nil =>
    cases folded
    simp [present, componentText, Framing.encode]
  | cons item rest ih =>
    rw [foldlM_cons] at folded
    cases pushed : push material item with
    | error =>
      rw [pushed] at folded
      cases folded
    | ok next =>
      rw [pushed] at folded
      rw [ih folded, pushes material item next pushed, flatMap_cons,
        present_append, componentText_append, append_assoc]

variable {identity : RateLimitIdentity}

theorem pushDimension_text (material : String) (dimension : RateLimitDimension) (after : String)
    (pushed : pushDimension missing identity material dimension = .ok after) :
    after.toList =
      material.toList ++ componentText (present (dimensionFields identity dimension)) := by
  cases dimension with
  | route =>
    obtain ⟨_, serviced, rest⟩ := bind_ok pushed
    obtain ⟨_, bounded, operated⟩ := bind_ok rest
    rw [pushComponent_text operated, pushComponent_text bounded, pushComponent_text serviced]
    simp only [append_assoc, ← componentText_append, ← present_append]
    rfl
  | clientIp | subject | tenant => exact pushComponent_text pushed

theorem pushHeader_text (material : String) (header : String) (after : String)
    (pushed : pushHeader missing identity material header = .ok after) :
    after.toList = material.toList ++ componentText (present (headerFields identity header)) := by
  unfold pushHeader at pushed
  split at pushed
  · cases pushed
  · obtain ⟨_, valued, named⟩ := bind_ok pushed
    rw [pushComponent_text named, pushComponent_text valued, append_assoc,
      ← componentText_append, ← present_append]
    rfl

variable {policy : RateLimitKeyPolicy}

/-- The digested text is a fixed beginning and the selected components that are shown. -/
theorem keyMaterial_text (built : keyMaterial policy identity = .ok material) :
    material.toList = "roze-rate-limit-key-v1".toList ++
      componentText (present (keyFields policy identity)) := by
  unfold keyMaterial at built
  split at built
  · cases built
  · obtain ⟨_, folded, headers⟩ := bind_ok built
    rw [foldlM_text pushHeader_text headers, foldlM_text pushDimension_text folded, keyFields,
      present_append, componentText_append, append_assoc]

/-! ## What validation accepts -/

theorem insertDimension_distinct {dimensions seen result : List RateLimitDimension}
    (inserted : dimensions.foldlM RateLimitKeyPolicy.insertDimension seen = .ok result) :
    dimensions.Nodup ∧ ∀ dimension ∈ dimensions, dimension ∉ seen := by
  induction dimensions generalizing seen with
  | nil => simp
  | cons dimension rest ih =>
    rw [foldlM_cons, insertDimension] at inserted
    split at inserted
    · cases inserted
    · rename_i fresh
      obtain ⟨distinct, unseen⟩ := ih inserted
      refine ⟨nodup_cons.mpr ⟨fun again => ?_, distinct⟩, fun other member => ?_⟩
      · exact unseen dimension again mem_cons_self
      · grind

variable {headers : List String}

theorem insertHeader_valid {seen result : List String}
    (inserted : headers.foldlM RateLimitKeyPolicy.insertHeader seen = .ok result) :
    ∀ header ∈ headers, validHeaderName (normalizeHeader header) = true := by
  induction headers generalizing seen with
  | nil => simp
  | cons header rest ih =>
    rw [foldlM_cons, insertHeader] at inserted
    split at inserted
    · cases inserted
    · rename_i valid
      split at inserted
      · cases inserted
      · intro other member
        rcases mem_cons.mp member with rfl | later
        · simpa using valid
        · exact ih inserted other later

/-- An accepted policy has distinct dimensions and usable header names. -/
theorem validate_ok (valid : policy.validate = .ok ()) :
    policy.dimensions.Nodup ∧
      ∀ header ∈ policy.headers, validHeaderName (normalizeHeader header) = true := by
  unfold validate at valid
  split at valid
  · cases valid
  · cases dimensions : policy.dimensions.foldlM insertDimension [] with
    | error =>
      rw [dimensions] at valid
      cases valid
    | ok seen =>
      cases headers : policy.headers.foldlM insertHeader [] with
      | error =>
        rw [dimensions, headers] at valid
        cases valid
      | ok => exact ⟨(insertDimension_distinct dimensions).1, insertHeader_valid headers⟩

/-! ## Callers that share a bucket -/

/-- Two optional values are the same; a missing one counts as empty. -/
def SameValue (first second : Option String) : Prop := first.getD "" = second.getD ""

/-- Two callers agree on a dimension. -/
def AgreeOn (first second : RateLimitIdentity) : RateLimitDimension → Prop
  | .route => first.service = second.service ∧ first.boundary = second.boundary ∧
      first.operation = second.operation
  | .clientIp => SameValue first.clientIp second.clientIp
  | .subject => SameValue first.subject second.subject
  | .tenant => SameValue first.tenant second.tenant

/-- Two callers agree on everything that a policy selects. -/
structure Agree (policy : RateLimitKeyPolicy) (first second : RateLimitIdentity) : Prop where
  dimensions : ∀ dimension ∈ policy.dimensions, AgreeOn first second dimension
  headers : ∀ header ∈ policy.headers,
    SameValue (first.headers (normalizeHeader header)) (second.headers (normalizeHeader header))

/-- An empty value is not shown. -/
theorem shown_eq (value : Option String) :
    shown value = if value.getD "" = "" then none else some (value.getD "") := by
  cases value with
  | none => rfl
  | some text =>
    by_cases empty : text = "" <;> simp [shown, empty, Option.filter_some]

theorem shown_eq_iff {first second : Option String} :
    shown first = shown second ↔ SameValue first second := by
  rw [shown_eq, shown_eq, SameValue]
  grind

variable {first second : RateLimitIdentity}

theorem dimensionFields_eq_iff {dimension : RateLimitDimension} :
    dimensionFields first dimension = dimensionFields second dimension ↔
      AgreeOn first second dimension := by
  cases dimension <;> simp [dimensionFields, AgreeOn, shown_eq_iff, SameValue]

theorem headerFields_eq_iff {header : String} :
    headerFields first header = headerFields second header ↔
      SameValue (first.headers (normalizeHeader header))
        (second.headers (normalizeHeader header)) := by
  simp [headerFields, shown_eq_iff]

/-- The names of a dimension's components. -/
def dimensionNames : RateLimitDimension → List String
  | .route => ["service", "boundary", "operation"]
  | .clientIp => ["client_ip"]
  | .subject => ["subject"]
  | .tenant => ["tenant"]

theorem dimensionFields_names (identity : RateLimitIdentity) (dimension : RateLimitDimension) :
    (dimensionFields identity dimension).map Prod.fst = dimensionNames dimension := by
  cases dimension <;> rfl

theorem dimensions_names (identity : RateLimitIdentity) (dimensions : List RateLimitDimension) :
    (dimensions.flatMap (dimensionFields identity)).map Prod.fst =
      dimensions.flatMap dimensionNames := by
  rw [map_flatMap]
  simp only [dimensionFields_names]

/-- The header components that are shown determine the values.

Proof: the name of a header follows its value and is always shown, so a missing value
is seen before the next header begins. -/
theorem headers_determined
    (valid : ∀ header ∈ headers, validHeaderName (normalizeHeader header) = true)
    (same : present (headers.flatMap (headerFields first)) =
      present (headers.flatMap (headerFields second))) :
    headers.flatMap (headerFields first) = headers.flatMap (headerFields second) := by
  induction headers with
  | nil => rfl
  | cons header rest ih =>
    have named : shown (some (normalizeHeader header)) = some (normalizeHeader header) := by
      have usable := valid header mem_cons_self
      simp only [validHeaderName, Bool.and_eq_true] at usable
      simp only [shown, Option.filter_some, usable.1, if_true]
    have split : ∀ identity, present ((header :: rest).flatMap (headerFields identity)) =
        present [("header", shown (identity.headers (normalizeHeader header)))] ++
          ("header_name", normalizeHeader header) ::
            present (rest.flatMap (headerFields identity)) := by
      intro identity
      rw [flatMap_cons, present_append, headerFields, named]
      cases shown (identity.headers (normalizeHeader header)) with
      | none | some => rfl
    rw [split, split] at same
    obtain ⟨values, rests⟩ := present_inj same rfl (nodup_singleton _) (by simp) (by simp)
    have tails := ih (fun other member => valid other (mem_cons_of_mem _ member))
      (tail_eq_of_cons_eq rests)
    rw [flatMap_cons, flatMap_cons, tails]
    simp only [headerFields]
    simp_all

/-- The components that are shown determine all selected values. -/
theorem keyFields_determined (valid : policy.validate = .ok ())
    (same : present (keyFields policy first) = present (keyFields policy second)) :
    keyFields policy first = keyFields policy second := by
  obtain ⟨distinct, headers⟩ := validate_ok valid
  have names : (policy.dimensions.flatMap (dimensionFields first)).map Prod.fst =
      (policy.dimensions.flatMap (dimensionFields second)).map Prod.fst := by
    rw [dimensions_names, dimensions_names]
  simp only [keyFields, present_append] at same ⊢
  have outside : ∀ identity, ∀ field ∈ (present (policy.headers.flatMap (headerFields identity))).head?,
      field.1 ∉ (policy.dimensions.flatMap (dimensionFields first)).map Prod.fst := by
    intro identity field head
    rw [dimensions_names]
    -- the components of headers start with a header's value or name
    have named := name_of_mem_present (mem_of_mem_head? head)
    simp only [map_flatMap, mem_flatMap] at named
    obtain ⟨_, _, place⟩ := named
    have header : field.1 = "header" ∨ field.1 = "header_name" := by simpa [headerFields] using place
    intro member
    obtain ⟨dimension, _, place⟩ := mem_flatMap.mp member
    rcases header with header | header <;> cases dimension <;> simp [dimensionNames, header] at place
  have differing : ((policy.dimensions.flatMap (dimensionFields first)).map Prod.fst).Nodup := by
    rw [dimensions_names]
    refine nodup_flatMap.mpr ⟨fun dimension _ => ?_, distinct.imp fun different => ?_⟩
    · cases dimension <;> decide
    · intro name member member'
      rename_i first second
      cases first <;> cases second <;> simp_all [dimensionNames]
  obtain ⟨dimensions, rests⟩ :=
    present_inj same names differing (outside first) (outside second)
  rw [dimensions, headers_determined headers rests]

/-- All selected values are the same exactly when the callers agree. -/
theorem keyFields_eq_iff :
    keyFields policy first = keyFields policy second ↔ Agree policy first second := by
  have dimensions := flatMap_eq_iff (fun dimension : RateLimitDimension =>
    show (dimensionFields first dimension).length = (dimensionFields second dimension).length by
      cases dimension <;> rfl) policy.dimensions
  have headers := flatMap_eq_iff (fun header : String =>
    show (headerFields first header).length = (headerFields second header).length from rfl)
    policy.headers
  simp only [dimensionFields_eq_iff] at dimensions
  simp only [headerFields_eq_iff] at headers
  have lengths : (policy.dimensions.flatMap (dimensionFields first)).length =
      (policy.dimensions.flatMap (dimensionFields second)).length := by
    rw [← length_map Prod.fst, ← length_map Prod.fst, dimensions_names, dimensions_names]
  constructor
  · intro same
    obtain ⟨left, right⟩ := append_inj same lengths
    exact ⟨dimensions.mp left, headers.mp right⟩
  · intro agree
    rw [keyFields, keyFields, dimensions.mpr agree.dimensions, headers.mpr agree.headers]

/-- No component name contains the separator. -/
theorem componentNames_free {field : String × String}
    (member : field ∈ present (keyFields policy identity)) :
    framing.separator ∉ field.1.toList := by
  have named := name_of_mem_present member
  rw [keyFields, map_append, dimensions_names, mem_append] at named
  rcases named with dimension | header
  · obtain ⟨dimension, _, place⟩ := mem_flatMap.mp dimension
    revert place
    generalize field.1 = name
    revert name
    cases dimension <;> decide
  · rw [map_flatMap] at header
    obtain ⟨header, _, place⟩ := mem_flatMap.mp header
    simp only [headerFields, map_cons, map_nil] at place
    revert place
    generalize field.1 = name
    revert name
    decide

/-- The text determines the components that are shown. -/
theorem componentText_inj
    (same : componentText (present (keyFields policy first)) =
      componentText (present (keyFields policy second))) :
    present (keyFields policy first) = present (keyFields policy second) := by
  have free : ∀ identity, ∀ field ∈ (present (keyFields policy identity)).map
      (fun field => (field.1.toList, field.2.toList)), framing.separator ∉ field.1 := by
    intro identity field member
    obtain ⟨_, place, rfl⟩ := mem_map.mp member
    exact componentNames_free place
  have fields := Framing.encode_inj (free first) (free second) same
  refine map_injective_iff.mpr (fun field field' equal => ?_) fields
  obtain ⟨names, values⟩ := Prod.mk.inj equal
  exact Prod.ext (String.toList_inj.mp names) (String.toList_inj.mp values)

/-- The digested texts are equal exactly when the callers agree. -/
theorem material_eq_iff {material' : String} (valid : policy.validate = .ok ())
    (built : keyMaterial policy first = .ok material)
    (built' : keyMaterial policy second = .ok material') :
    material = material' ↔ Agree policy first second := by
  have text := keyMaterial_text built
  have text' := keyMaterial_text built'
  rw [← String.toList_inj, text, text', append_cancel_left_eq, ← keyFields_eq_iff]
  constructor
  · intro same
    exact keyFields_determined valid (componentText_inj same)
  · intro same
    rw [same]

/-- For an accepted policy and two callers that have a key, the digested texts are equal
exactly when the callers agree on everything selected; so are the keys, if the digest
does not collide on the two texts. -/
theorem bucket_shared_iff (digest : ByteArray → List UInt8) (policy : RateLimitKeyPolicy)
    (first second : RateLimitIdentity) (key key' : String) (valid : policy.validate = .ok ())
    (built : buildKey digest policy first = .ok key)
    (built' : buildKey digest policy second = .ok key') :
    ∃ material material', keyMaterial policy first = .ok material ∧
      keyMaterial policy second = .ok material' ∧
      (material = material' ↔ Agree policy first second) ∧
      ((digest material.toUTF8 = digest material'.toUTF8 → material.toUTF8 = material'.toUTF8) →
        (key = key' ↔ Agree policy first second)) := by
  obtain ⟨material, written, digested⟩ := bind_ok built
  obtain ⟨material', written', digested'⟩ := bind_ok built'
  cases digested
  cases digested'
  have texts := material_eq_iff valid written written'
  refine ⟨material, material', written, written', texts, fun collisionFree => ?_⟩
  rw [← texts]
  constructor
  · intro same
    have digits := congrArg String.toList same
    simp only [hexText, String.toList_ofList] at digits
    exact String.toByteArray_inj.mp (collisionFree (flatMap_hexByte_inj digits))
  · intro same
    rw [same]

/-- A policy that leaves out what is missing. -/
def tenantPolicy : RateLimitKeyPolicy where
  dimensions := [.subject, .tenant]
  headers := ["X-Api"]
  missing := .omit

/-- A caller with a subject, a tenant and no header. -/
def caller (subject : String) (tenant : Option String) : RateLimitIdentity where
  service := "auth"
  boundary := "rest"
  operation := "POST:/login"
  clientIp := none
  subject := some subject
  tenant := tenant
  headers _ := none

/-- A digest of four bytes. -/
def digest32 (bytes : ByteArray) : List UInt8 :=
  let hash := bytes.data.toList.foldl (fun hash byte => (hash ^^^ byte.toUInt32) * 16777619)
    (2166136261 : UInt32)
  [hash >>> 24, hash >>> 16, hash >>> 8, hash].map UInt32.toUInt8

/-- A subject that imitates the component of a tenant does not get the tenant's bucket. -/
theorem bucket_shared_iff_imitation :
    ∃ key key', buildKey digest32 tenantPolicy (caller "a|tenant:1:b" none) = .ok key ∧
      buildKey digest32 tenantPolicy (caller "a" (some "b")) = .ok key' ∧ key ≠ key' := by
  have valid : tenantPolicy.validate = .ok () := by rfl
  obtain ⟨key, built⟩ : ∃ key, buildKey digest32 tenantPolicy (caller "a|tenant:1:b" none) = .ok key :=
    ⟨_, rfl⟩
  obtain ⟨key', built'⟩ : ∃ key, buildKey digest32 tenantPolicy (caller "a" (some "b")) = .ok key :=
    ⟨_, rfl⟩
  obtain ⟨_, _, written, written', _, keys⟩ :=
    bucket_shared_iff _ tenantPolicy _ _ key key' valid built built'
  cases written
  cases written'
  have same := keys (fun digests => absurd digests (by decide +kernel))
  refine ⟨key, key', built, built', fun equal => ?_⟩
  have subjects := (same.mp equal).dimensions .subject (by decide)
  simp [AgreeOn, SameValue, caller] at subjects

end Roze.RateLimiting
