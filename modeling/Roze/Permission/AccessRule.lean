import Roze.Context.Propagation

/-!
# Roles, permissions and access rules

The permissions of a principal are merged from its roles: what some role grants, and what some role
denies. `PermissionSet.allows` subtracts the denies from the grants. A rule is decided by an
evaluator of its own, which looks at the denies only for the permissions in `deny_any`.
-/

namespace Roze.Permission

open Roze.Library Roze.Context

/-! ## Sets of texts -/

/-- A set of texts. -/
abbrev StringSet := KeyedMap (id : String → String)

namespace StringSet

/-- The text is in the set. -/
def contains (set : StringSet) (text : String) : Bool := (set.find? text).isSome

/-- An insertion adds one text. -/
theorem contains_insert_iff (set : StringSet) (fresh text : String) :
    contains (set.insert fresh) text = true ↔ fresh = text ∨ set.contains text = true := by
  rw [contains, contains, KeyedMap.find?_insert]
  grind

/-- The texts of a set are its values. -/
theorem contains_iff_mem {set : StringSet} {text : String} :
    set.contains text = true ↔ text ∈ set.values := by
  rw [contains, Option.isSome_iff_exists]
  constructor
  · rintro ⟨_, found⟩
    obtain ⟨member, rfl⟩ := KeyedMap.find?_eq_some_iff.mp found
    exact member
  · intro member
    exact ⟨text, KeyedMap.find?_eq_some_iff.mpr ⟨member, rfl⟩⟩

/-- Inserting a list adds its texts. -/
theorem contains_foldl_insert_iff (texts : List String) (set : StringSet) (text : String) :
    contains (texts.foldl KeyedMap.insert set) text = true ↔ set.contains text = true ∨ text ∈ texts := by
  induction texts generalizing set with
  | nil => simp
  | cons head rest ih =>
    rw [List.foldl_cons, ih, contains_insert_iff, List.mem_cons]
    constructor <;> grind

end StringSet

open StringSet

/-! ## Permissions -/

/-- What is granted and what is denied. -/
structure PermissionSet where
  grants : StringSet
  denies : StringSet

namespace PermissionSet

/-- `PermissionSet::default`. -/
def default : PermissionSet := ⟨.empty _, .empty _⟩

/-- One more grant. -/
def grant (set : PermissionSet) (permission : String) : PermissionSet :=
  { set with grants := set.grants.insert permission }

/-- One more deny. -/
def deny (set : PermissionSet) (permission : String) : PermissionSet :=
  { set with denies := set.denies.insert permission }

/-- Granted and not denied. -/
def allows (set : PermissionSet) (permission : String) : Bool :=
  set.grants.contains permission && !set.denies.contains permission

/-- The grants and the denies of a role, one by one. -/
def merge (set role : PermissionSet) : PermissionSet :=
  role.denies.values.foldl deny (role.grants.values.foldl grant set)

end PermissionSet

/-- What a rule asks of the permissions. -/
structure PermissionRule where
  requireAll : List String
  allowAny : List String
  denyAny : List String

/-- The evaluator of rules. It looks at the denies for `deny_any` only. -/
def PermissionRule.allows (rule : PermissionRule) (set : PermissionSet) : Bool :=
  if rule.denyAny.any (fun permission =>
      set.grants.contains permission || set.denies.contains permission) then false
  else if !rule.requireAll.isEmpty &&
      !rule.requireAll.all (fun permission => set.grants.contains permission) then false
  else if rule.allowAny.isEmpty then true
  else rule.allowAny.any (fun permission => set.grants.contains permission)

/-- The permissions of each role. -/
structure RolePolicy where
  roles : KeyedMap (Prod.fst : String × PermissionSet → String)

namespace RolePolicy

/-- The permissions of a role. -/
def get? (policy : RolePolicy) (role : String) : Option PermissionSet :=
  (policy.roles.find? role).map Prod.snd

/-- The merge of the roles. A role that is unknown adds nothing. -/
def permissionsForRoles (policy : RolePolicy) (roles : List String) : PermissionSet :=
  roles.foldl (fun set role => (policy.get? role).elim set set.merge) .default

/-- One more deny for a role, which is made when it is not there. -/
def addDeny (policy : RolePolicy) (role permission : String) : RolePolicy where
  roles := policy.roles.insert (role, ((policy.get? role).getD .default).deny permission)

end RolePolicy

/-- Who asks for access. -/
structure Principal where
  roles : List String
  tenant : Option String
  attributes : StringMap

/-- The values that attributes must have. -/
structure AttributeRule where
  equals : StringMap

/-- All attributes have their values. -/
def AttributeRule.allows (rule : AttributeRule) (principal : Principal) : Bool :=
  rule.equals.values.all (fun entry => principal.attributes.get? entry.1 = some entry.2)

/-- A rule on tenant, attributes and permissions. -/
structure AccessRule where
  permissions : PermissionRule
  attributes : AttributeRule
  tenantRequired : Option String

/-- The tenant first, then the attributes, then the permissions. -/
def AccessRule.allows (rule : AccessRule) (principal : Principal) (policy : RolePolicy) : Bool :=
  if rule.tenantRequired.any (fun required => principal.tenant ≠ some required) then false
  else if !rule.attributes.allows principal then false
  else rule.permissions.allows (policy.permissionsForRoles principal.roles)

/-! ## What the roles say -/

/-- Some role grants the permission. -/
def Grants (policy : RolePolicy) (roles : List String) (permission : String) : Prop :=
  ∃ role ∈ roles, ∃ set, policy.get? role = some set ∧ set.grants.contains permission = true

/-- Some role denies the permission. -/
def Denies (policy : RolePolicy) (roles : List String) (permission : String) : Prop :=
  ∃ role ∈ roles, ∃ set, policy.get? role = some set ∧ set.denies.contains permission = true

namespace PermissionSet

/-- Grants leave the denies alone. -/
theorem foldl_grant (permissions : List String) (set : PermissionSet) :
    permissions.foldl grant set =
      { set with grants := permissions.foldl KeyedMap.insert set.grants } :=
  List.foldl_hom (fun grants => { set with grants }) (fun _ _ => rfl)

/-- Denies leave the grants alone. -/
theorem foldl_deny (permissions : List String) (set : PermissionSet) :
    permissions.foldl deny set =
      { set with denies := permissions.foldl KeyedMap.insert set.denies } :=
  List.foldl_hom (fun denies => { set with denies }) (fun _ _ => rfl)

/-- A role adds its grants. -/
theorem grants_merge_iff (set role : PermissionSet) (permission : String) :
    (set.merge role).grants.contains permission = true ↔
      set.grants.contains permission = true ∨ role.grants.contains permission = true := by
  rw [merge, foldl_deny, foldl_grant, contains_foldl_insert_iff,
    ← contains_iff_mem]

/-- A role adds its denies. -/
theorem denies_merge_iff (set role : PermissionSet) (permission : String) :
    (set.merge role).denies.contains permission = true ↔
      set.denies.contains permission = true ∨ role.denies.contains permission = true := by
  rw [merge, foldl_deny, foldl_grant, contains_foldl_insert_iff,
    ← contains_iff_mem]

end PermissionSet

namespace RolePolicy

variable (policy : RolePolicy)

/-- The merge of the roles, for a part of the sets to which each role adds its own. -/
theorem contains_foldl_iff {part : PermissionSet → StringSet}
    (adds : ∀ set role permission, (part (set.merge role)).contains permission = true ↔
      (part set).contains permission = true ∨ (part role).contains permission = true)
    (roles : List String) (set : PermissionSet) (permission : String) :
    (part (roles.foldl (fun set role => (policy.get? role).elim set set.merge) set)).contains
        permission = true ↔
      (part set).contains permission = true ∨
        ∃ role ∈ roles, ∃ own, policy.get? role = some own ∧ (part own).contains permission = true := by
  induction roles generalizing set with
  | nil => simp
  | cons role rest ih =>
    rw [List.foldl_cons, ih]
    cases found : policy.get? role with
    | none => simp [found]
    | some => simp [found, adds, or_assoc]

/-- The merge has the grants of all roles. -/
theorem grants_permissionsForRoles_iff (roles : List String) (permission : String) :
    (policy.permissionsForRoles roles).grants.contains permission = true ↔
      Grants policy roles permission := by
  rw [permissionsForRoles, policy.contains_foldl_iff PermissionSet.grants_merge_iff]
  simp [PermissionSet.default, contains, Grants]

/-- The merge has the denies of all roles. -/
theorem denies_permissionsForRoles_iff (roles : List String) (permission : String) :
    (policy.permissionsForRoles roles).denies.contains permission = true ↔
      Denies policy roles permission := by
  rw [permissionsForRoles, policy.contains_foldl_iff PermissionSet.denies_merge_iff]
  simp [PermissionSet.default, contains, Denies]

/-- On the union of the roles a permission is allowed when some role grants it and none denies
it. -/
theorem allows_permissionsForRoles_iff (roles : List String) (permission : String) :
    (policy.permissionsForRoles roles).allows permission = true ↔
      Grants policy roles permission ∧ ¬ Denies policy roles permission := by
  rw [PermissionSet.allows, Bool.and_eq_true_iff, Bool.not_eq_true', ← Bool.not_eq_true,
    grants_permissionsForRoles_iff, denies_permissionsForRoles_iff]

/-- Only the role itself gets the deny. -/
theorem get?_addDeny (role permission wanted : String) :
    (policy.addDeny role permission).get? wanted =
      if role = wanted then some (((policy.get? role).getD .default).deny permission)
      else policy.get? wanted := by
  rw [get?, addDeny, KeyedMap.find?_insert]
  split <;> rfl

/-- A deny changes no grant. -/
theorem grants_addDeny_iff (role denied : String) (roles : List String) (permission : String) :
    Grants (policy.addDeny role denied) roles permission ↔ Grants policy roles permission := by
  simp only [Grants, get?_addDeny]
  refine exists_congr (fun name => and_congr_right fun _ => ?_)
  by_cases same : role = name
  · subst same
    cases found : policy.get? role with
    | none => simp [PermissionSet.deny, PermissionSet.default, contains]
    | some => simp [PermissionSet.deny]
  · simp [same]

/-- A deny takes no deny away. -/
theorem denies_addDeny {role denied : String} {roles : List String} {permission : String}
    (before : Denies policy roles permission) :
    Denies (policy.addDeny role denied) roles permission := by
  obtain ⟨name, member, set, found, there⟩ := before
  by_cases same : role = name
  · subst same
    refine ⟨role, member, set.deny denied, ?_, ?_⟩
    · rw [get?_addDeny, if_pos rfl, found, Option.getD_some]
    · rw [PermissionSet.deny, contains_insert_iff]
      exact .inr there
  · refine ⟨name, member, set, ?_, there⟩
    rw [get?_addDeny, if_neg same, found]

end RolePolicy

/-! ## Rules -/

/-- The rule applies to the principal: its tenant and its attributes fit, no role names a permission
in `deny_any`, and the permissions that the rule asks for are granted. -/
structure AccessRule.Met (rule : AccessRule) (principal : Principal) (policy : RolePolicy) : Prop where
  tenant : ∀ required, rule.tenantRequired = some required → principal.tenant = some required
  attributes : ∀ entry ∈ rule.attributes.equals.values,
    principal.attributes.get? entry.1 = some entry.2
  unnamed : ∀ permission ∈ rule.permissions.denyAny,
    ¬ Grants policy principal.roles permission ∧ ¬ Denies policy principal.roles permission
  required : ∀ permission ∈ rule.permissions.requireAll, Grants policy principal.roles permission
  allowed : rule.permissions.allowAny ≠ [] →
    ∃ permission ∈ rule.permissions.allowAny, Grants policy principal.roles permission

/-- What a rule on permissions accepts. -/
theorem PermissionRule.allows_iff (rule : PermissionRule) (set : PermissionSet) :
    rule.allows set = true ↔
      (∀ permission ∈ rule.denyAny,
        ¬ set.grants.contains permission = true ∧ ¬ set.denies.contains permission = true) ∧
      (∀ permission ∈ rule.requireAll, set.grants.contains permission = true) ∧
      (rule.allowAny ≠ [] → ∃ permission ∈ rule.allowAny, set.grants.contains permission = true) := by
  obtain ⟨requireAll, allowAny, denyAny⟩ := rule
  have named : denyAny.any (fun permission =>
      set.grants.contains permission || set.denies.contains permission) = false ↔
      ∀ permission ∈ denyAny,
        ¬ set.grants.contains permission = true ∧ ¬ set.denies.contains permission = true := by
    simp
  have granted : (!requireAll.isEmpty &&
      !requireAll.all (fun permission => set.grants.contains permission)) = false ↔
      ∀ permission ∈ requireAll, set.grants.contains permission = true := by
    cases requireAll with
    | nil | cons => simp
  dsimp only [PermissionRule.allows]
  rw [← named, ← granted]
  cases denyAny.any (fun permission =>
      set.grants.contains permission || set.denies.contains permission) with
  | true => simp
  | false =>
    cases !requireAll.isEmpty && !requireAll.all (fun permission => set.grants.contains permission) with
    | true => simp
    | false =>
      cases allowAny with
      | nil | cons => simp

/-- A rule accepts a principal exactly when it applies to it. -/
theorem AccessRule.allows_iff (rule : AccessRule) (principal : Principal) (policy : RolePolicy) :
    rule.allows principal policy = true ↔ rule.Met principal policy := by
  have tenant : rule.tenantRequired.any (fun required => principal.tenant ≠ some required) = false ↔
      ∀ required, rule.tenantRequired = some required → principal.tenant = some required := by
    cases rule.tenantRequired with
    | none | some => simp
  have attributes : rule.attributes.allows principal = true ↔
      ∀ entry ∈ rule.attributes.equals.values,
        principal.attributes.get? entry.1 = some entry.2 := by
    simp [AttributeRule.allows]
  have permissions := rule.permissions.allows_iff (policy.permissionsForRoles principal.roles)
  simp only [policy.grants_permissionsForRoles_iff, policy.denies_permissionsForRoles_iff] at permissions
  rw [AccessRule.allows]
  constructor
  · intro accepted
    split at accepted
    · cases accepted
    rename_i fits
    split at accepted
    · cases accepted
    rename_i equal
    obtain ⟨unnamed, required, allowed⟩ := permissions.mp accepted
    exact ⟨tenant.mp (Bool.not_eq_true _ ▸ fits),
      attributes.mp (by simpa using equal), unnamed, required, allowed⟩
  · intro met
    rw [tenant.mpr met.tenant, attributes.mpr met.attributes]
    exact permissions.mpr ⟨met.unnamed, met.required, met.allowed⟩

/-- A rule that asks for more applies to fewer principals, and so does any rule under a policy with
one more deny. -/
theorem AccessRule.Met.mono {rule stricter : AccessRule} {principal : Principal}
    {policy wider : RolePolicy} (met : stricter.Met principal wider)
    (tenant : stricter.tenantRequired = rule.tenantRequired)
    (attributes : stricter.attributes = rule.attributes)
    (denyAny : rule.permissions.denyAny ⊆ stricter.permissions.denyAny)
    (requireAll : rule.permissions.requireAll ⊆ stricter.permissions.requireAll)
    (allowAny : stricter.permissions.allowAny = rule.permissions.allowAny)
    (grants : ∀ permission, Grants wider principal.roles permission ↔
      Grants policy principal.roles permission)
    (denies : ∀ permission, Denies policy principal.roles permission →
      Denies wider principal.roles permission) : rule.Met principal policy where
  tenant := tenant ▸ met.tenant
  attributes := attributes ▸ met.attributes
  unnamed permission member := by
    obtain ⟨ungranted, undenied⟩ := met.unnamed permission (denyAny member)
    grind
  required permission member := (grants permission).mp (met.required permission (requireAll member))
  allowed some := by
    obtain ⟨permission, member, granted⟩ := met.allowed (allowAny ▸ some)
    grind

/-- No role denies what the rule requires, and one of the permissions of which the rule asks for some
is granted and not denied. -/
structure AccessRule.Undenied (rule : AccessRule) (principal : Principal) (policy : RolePolicy) : Prop where
  required : ∀ permission ∈ rule.permissions.requireAll, ¬ Denies policy principal.roles permission
  allowed : rule.permissions.allowAny ≠ [] → ∃ permission ∈ rule.permissions.allowAny,
    Grants policy principal.roles permission ∧ ¬ Denies policy principal.roles permission

/-- What a rule accepts is allowed on the union of the roles, and more denies and requirements never
let more pass, if and only if no role denies what a rule that applies asks for. The second part
holds for every rule. -/
theorem deny_wins_iff (policy : RolePolicy) (principal : Principal) (rule : AccessRule) :
    ((rule.allows principal policy = true →
        (∀ permission ∈ rule.permissions.requireAll,
          (policy.permissionsForRoles principal.roles).allows permission = true) ∧
        (rule.permissions.allowAny ≠ [] → ∃ permission ∈ rule.permissions.allowAny,
          (policy.permissionsForRoles principal.roles).allows permission = true)) ∧
      (∀ role permission, rule.allows principal (policy.addDeny role permission) = true →
        rule.allows principal policy = true) ∧
      (∀ denyAny, rule.permissions.denyAny ⊆ denyAny →
        AccessRule.allows { rule with permissions := { rule.permissions with denyAny } } principal policy =
          true → rule.allows principal policy = true) ∧
      (∀ requireAll, rule.permissions.requireAll ⊆ requireAll →
        AccessRule.allows { rule with permissions := { rule.permissions with requireAll } } principal policy =
          true → rule.allows principal policy = true)) ↔
    (rule.Met principal policy → rule.Undenied principal policy) := by
  simp only [AccessRule.allows_iff, policy.allows_permissionsForRoles_iff]
  constructor
  · rintro ⟨sound, -⟩ met
    obtain ⟨required, allowed⟩ := sound met
    exact ⟨fun permission member => (required permission member).2, allowed⟩
  · intro undenied
    refine ⟨fun met => ⟨fun permission member => ?_, (undenied met).allowed⟩,
      fun role permission met => ?_, fun denyAny more met => ?_, fun requireAll more met => ?_⟩
    · exact ⟨met.required permission member, (undenied met).required permission member⟩
    · exact met.mono rfl rfl (List.Subset.refl _) (List.Subset.refl _) rfl
        (policy.grants_addDeny_iff role permission principal.roles) (fun _ => policy.denies_addDeny)
    · exact met.mono rfl rfl more (List.Subset.refl _) rfl (fun _ => Iff.rfl) (fun _ => id)
    · exact met.mono rfl rfl (List.Subset.refl _) more rfl (fun _ => Iff.rfl) (fun _ => id)

namespace Suspension

/-- A role that grants a permission, and one that takes it away. -/
def policy : RolePolicy where
  roles := .collect _ [("editor", PermissionSet.default.grant "orders:write"),
    ("suspended", PermissionSet.default.deny "orders:write")]

/-- A principal that has roles only. -/
def principal (roles : List String) : Principal := ⟨roles, none, .empty _⟩

/-- The permission is required, and is the only one of the alternatives. -/
def rule : AccessRule := ⟨⟨["orders:write"], ["orders:write"], []⟩, ⟨.empty _⟩, none⟩

end Suspension

open Suspension

/-- A rule accepts a principal by a permission that one of its roles denies. -/
theorem denied_permission_accepted :
    Suspension.rule.allows (Suspension.principal ["editor", "suspended"]) Suspension.policy = true ∧
      (Suspension.policy.permissionsForRoles ["editor", "suspended"]).allows "orders:write" = false := by
  decide +kernel

/-- Without the role that denies. -/
theorem deny_wins_iff_editor :
    Suspension.rule.allows (Suspension.principal ["editor"]) Suspension.policy = true ∧
      (Suspension.policy.permissionsForRoles ["editor"]).allows "orders:write" = true := by
  have accepted : rule.allows (principal ["editor"]) policy = true := by
    decide +kernel
  have granted : Grants policy ["editor"] "orders:write" :=
    (policy.grants_permissionsForRoles_iff _ _).mp (by decide +kernel)
  have undenied : ¬ Denies policy ["editor"] "orders:write" := by
    rw [← policy.denies_permissionsForRoles_iff]
    decide +kernel
  have sound := ((deny_wins_iff policy (principal ["editor"]) rule).mpr
    fun _ => ⟨fun permission member => List.mem_singleton.mp member ▸ undenied,
      fun _ => ⟨"orders:write", List.mem_singleton_self _, granted, undenied⟩⟩).1 accepted
  exact ⟨accepted, sound.1 "orders:write" (List.mem_singleton_self _)⟩

end Roze.Permission
