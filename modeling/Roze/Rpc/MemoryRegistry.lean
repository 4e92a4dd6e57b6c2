import Roze.Library.KeyedMap
import Roze.Library.ProcessPool

/-!
# The in-memory registry

A registration replaces the entry of its address in the list of its service. A deregistration takes
its address out of the list and, when it saw the list empty, removes the service in a second step.
Calls interleave, so another call can have filled the list between the two steps.
-/

namespace Roze.Rpc

open Roze.Library

structure ServiceInstance where
  name : String
  addr : String
  weight : Nat
  metadata : List (String × String)
deriving DecidableEq

/-- What the lists were told, by the calls that took effect. -/
inductive RegistryUpdate where
  | registered (item : ServiceInstance)
  | deregistered (name addr : String)
deriving DecidableEq

open RegistryUpdate

/-- The lists by service, and what they were told, the latest first. -/
structure MemoryRegistry where
  instances : Entries String (List ServiceInstance)
  updates : List RegistryUpdate

namespace MemoryRegistry

def new : MemoryRegistry := ⟨.empty _, []⟩

def listed (registry : MemoryRegistry) (name : String) : List ServiceInstance :=
  (registry.instances.get? name).getD []

end MemoryRegistry

/-- The calls of the registry, by what they do next. -/
inductive RegistryCall where
  | register (item : ServiceInstance)
  | deregister (name addr : String)
  | discover (name : String)
  | removing (name : String)
  | finished
deriving DecidableEq

/-- One step of a call, with what a discovery finds. -/
def RegistryCall.step (registry : MemoryRegistry) :
    RegistryCall → Option (MemoryRegistry × RegistryCall × Option (List ServiceInstance))
  | .register item =>
      let entry := registry.listed item.name
      let entry := entry.filter (fun existing => existing.addr ≠ item.addr) ++ [item]
      some (⟨registry.instances.put item.name entry, .registered item :: registry.updates⟩,
        .finished, none)
  | .deregister name addr =>
      let updates := .deregistered name addr :: registry.updates
      match registry.instances.get? name with
      | some entry =>
          let entry := entry.filter (fun existing => existing.addr ≠ addr)
          some (⟨registry.instances.put name entry, updates⟩,
            if entry.isEmpty then .removing name else .finished, none)
      | none => some ({ registry with updates }, .finished, none)
  | .removing name => some ({ registry with instances := registry.instances.erase name }, .finished, none)
  | .discover name => some (registry, .finished, some (registry.listed name))
  | .finished => none

/-- Any number of calls on one registry. -/
def registryCalls : Process MemoryRegistry RegistryCall Unit (Option (List ServiceInstance)) where
  initial
    | .register _ | .deregister _ _ | .discover _ => true
    | .removing _ | .finished => false
  step registry call _ := call.step registry

/-! ## What the lists should be -/

/-- The update is about the address of the service. -/
def RegistryUpdate.concerns (name addr : String) : RegistryUpdate → Bool
  | .registered item => item.name = name ∧ item.addr = addr
  | .deregistered other place => other = name ∧ place = addr

/-- What the last update of an address registered. -/
def registration (updates : List RegistryUpdate) (name addr : String) : Option ServiceInstance :=
  match updates.find? (RegistryUpdate.concerns name addr) with
  | some (.registered item) => some item
  | _ => none

/-- Each list has one entry for the addresses whose last update is a registration, and nothing for
any other address. -/
def MemoryRegistry.Reflects (registry : MemoryRegistry) : Prop :=
  ∀ name addr, (registry.listed name).filter (fun item => item.addr = addr) =
    (registration registry.updates name addr).toList

/-- The next step of a call removes a list that is not empty. -/
def RegistryCall.loses (registry : MemoryRegistry) : RegistryCall → Bool
  | .removing name => registry.listed name ≠ []
  | _ => false

/-- A step of the pool that removes a list that is not empty. -/
def removesListed (pool : Pool MemoryRegistry RegistryCall) : PoolAction RegistryCall Unit → Bool
  | .spawn _ => false
  | .act index _ => (pool.locals[index]?).any (RegistryCall.loses pool.shared)

section

variable {registry : MemoryRegistry}

theorem listed_put (instances : Entries String (List ServiceInstance)) (updates : List RegistryUpdate)
    (place : String) (entry : List ServiceInstance) (name : String) :
    (⟨instances.put place entry, updates⟩ : MemoryRegistry).listed name =
      if place = name then entry else (⟨instances, updates⟩ : MemoryRegistry).listed name := by
  simp only [MemoryRegistry.listed, Entries.get?_put]
  split <;> rfl

theorem registration_cons_of_not_concerns {update : RegistryUpdate} {updates : List RegistryUpdate}
    {name addr : String} (other : ¬ update.concerns name addr) :
    registration (update :: updates) name addr = registration updates name addr := by
  rw [registration, registration, List.find?_cons_of_neg other]

/-- Taking an address out of a list leaves the entries of the other addresses. -/
theorem filter_without {entry : List ServiceInstance} {addr place : String} :
    (entry.filter (fun item => item.addr ≠ place)).filter (fun item => item.addr = addr) =
      if place = addr then [] else entry.filter (fun item => item.addr = addr) := by
  rw [List.filter_filter]
  split
  · simp_all
  · grind

theorem registers (reflects : registry.Reflects) (item : ServiceInstance) :
    (⟨registry.instances.put item.name
        ((registry.listed item.name).filter (fun existing => existing.addr ≠ item.addr) ++ [item]),
      .registered item :: registry.updates⟩ : MemoryRegistry).Reflects := by
  intro name addr
  rw [listed_put]
  by_cases own : item.name = name
  · subst own
    rw [if_pos rfl, List.filter_append, filter_without]
    by_cases same : item.addr = addr
    · simp [registration, concerns, same]
    · rw [if_neg same, registration_cons_of_not_concerns (by simp [concerns, same]),
        reflects item.name addr]
      simp [same]
  · rw [if_neg own, registration_cons_of_not_concerns (by simp [concerns, own])]
    exact reflects name addr

theorem deregisters (reflects : registry.Reflects) (place addr : String) :
    (⟨registry.instances.put place ((registry.listed place).filter (fun item => item.addr ≠ addr)),
      .deregistered place addr :: registry.updates⟩ : MemoryRegistry).Reflects := by
  intro name other
  rw [listed_put]
  by_cases own : place = name
  · subst own
    rw [if_pos rfl, filter_without]
    by_cases same : addr = other
    · simp [registration, concerns, same]
    · rw [if_neg same, registration_cons_of_not_concerns (by simp [concerns, same])]
      exact reflects place other
  · rw [if_neg own, registration_cons_of_not_concerns (by simp [concerns, own])]
    exact reflects name other

/-- Only the lists and the updates matter. -/
theorem MemoryRegistry.Reflects.of_listed {other : MemoryRegistry} (reflects : registry.Reflects)
    (lists : ∀ name, other.listed name = registry.listed name)
    (updates : other.updates = registry.updates) : other.Reflects := by
  intro name addr
  rw [lists, updates]
  exact reflects name addr

theorem listed_erase (registry : MemoryRegistry) (place name : String) :
    ({ registry with instances := registry.instances.erase place } : MemoryRegistry).listed name =
      if place = name then [] else registry.listed name := by
  simp only [MemoryRegistry.listed, Entries.get?_erase]
  split <;> rfl

/-- The removal of a service keeps the lists right exactly when its list is empty. -/
theorem removes_iff (reflects : registry.Reflects) (place : String) :
    ({ registry with instances := registry.instances.erase place } : MemoryRegistry).Reflects ↔
      registry.listed place = [] := by
  constructor
  · intro kept
    -- an entry that was lost is still the registration of its address
    by_contra lost
    obtain ⟨item, _, entry⟩ := List.exists_cons_of_ne_nil lost
    have before := reflects place item.addr
    have after := kept place item.addr
    rw [listed_erase, if_pos rfl, List.filter_nil] at after
    simp_all
  · intro none
    refine reflects.of_listed (fun name => ?_) rfl
    rw [listed_erase]
    grind

/-- A step of a call keeps the lists right exactly when it loses nothing. -/
theorem RegistryCall.step_reflects_iff {call after : RegistryCall} {next : MemoryRegistry}
    {output : Option (List ServiceInstance)} (reflects : registry.Reflects)
    (taken : call.step registry = some (next, after, output)) :
    next.Reflects ↔ call.loses registry = false := by
  cases call with
  | register item =>
    cases taken
    exact iff_of_true (registers reflects item) rfl
  | deregister name addr =>
    have kept := deregisters reflects name addr
    cases found : registry.instances.get? name with
    | none =>
      simp only [step, found] at taken
      cases taken
      refine iff_of_true (kept.of_listed (fun other => ?_) rfl) rfl
      have none : registry.listed name = [] := by rw [MemoryRegistry.listed, found]; rfl
      rw [listed_put, none]
      split
      · rename_i same
        exact same ▸ none
      · rfl
    | some entry =>
      have same : registry.listed name = entry := by rw [MemoryRegistry.listed, found]; rfl
      simp only [step, found] at taken
      cases taken
      rw [same] at kept
      exact iff_of_true kept rfl
  | discover =>
    cases taken
    exact iff_of_true reflects rfl
  | removing name =>
    cases taken
    rw [removes_iff reflects name, loses, decide_eq_false_iff_not, not_not]
  | finished => cases taken

end

/-! ## Runs -/

/-- The lists are right in every state of a run exactly when no removal finds a list that is not
empty. -/
theorem registry_reflects_iff
    {events : List (PoolAction RegistryCall Unit × Option (Option (List ServiceInstance)))}
    {final : Pool MemoryRegistry RegistryCall}
    (run : registryCalls.pool.Run (.empty .new) events final) :
    registryCalls.pool.Throughout (fun pool => pool.shared.Reflects) (.empty .new) events ↔
      registryCalls.pool.Along (fun pool action _ _ => removesListed pool action = false)
        (.empty .new) events := by
  refine run.throughout_iff_along (fun pool action output next reflects taken => ?_) ?_
  · rcases Process.pool_step taken with ⟨_, rfl, _, rfl, rfl⟩ |
      ⟨index, move, current, shared, after, result, rfl, found, stepped, rfl, rfl⟩
    · exact iff_of_true reflects rfl
    · rw [RegistryCall.step_reflects_iff reflects stepped, removesListed, found, Option.any_some]
  · intro name addr
    rfl

namespace LostRegistration

def first : ServiceInstance := ⟨"users", "10.0.0.1:80", 1, []⟩

def second : ServiceInstance := ⟨"users", "10.0.0.2:80", 1, []⟩

/-- The second instance registers between the two steps of the deregistration of the first. -/
def actions : List (PoolAction RegistryCall Unit) :=
  [.spawn (.register first), .act 0 (), .spawn (.deregister "users" "10.0.0.1:80"), .act 1 (),
    .spawn (.register second), .act 2 (), .act 1 (), .spawn (.discover "users"), .act 3 ()]

end LostRegistration

/-- All calls are over, and the instance that registered last is not listed. -/
theorem registration_lost :
    (registryCalls.pool.exec (.empty .new) LostRegistration.actions).map (fun run =>
      (run.1.locals.all (· = .finished), run.1.shared.listed "users",
        registration run.1.shared.updates "users" "10.0.0.2:80")) =
      some (true, [], some LostRegistration.second) := by
  decide +kernel

/-- A deregistration that is over before the second instance registers. -/
def LostRegistration.apart : List (PoolAction RegistryCall Unit) :=
  [.spawn (.register first), .act 0 (), .spawn (.deregister "users" "10.0.0.1:80"), .act 1 (), .act 1 (),
    .spawn (.register second), .act 2 ()]

/-- When the deregistration is over before, no removal finds a list that is not empty, and the
second instance is listed. -/
theorem registry_reflects_iff_apart :
    ∃ final events, registryCalls.pool.exec (.empty .new) LostRegistration.apart = some (final, events) ∧
      final.shared.listed "users" = [LostRegistration.second] ∧
      registryCalls.pool.Throughout (fun pool => pool.shared.Reflects) (.empty .new) events := by
  have listed : (registryCalls.pool.exec (.empty .new) LostRegistration.apart).map (fun run =>
      run.1.shared.listed "users") = some [LostRegistration.second] := by
    decide +kernel
  obtain ⟨⟨final, events⟩, executed, last⟩ := Option.map_eq_some_iff.mp listed
  refine ⟨final, events, executed, last, ?_⟩
  exact (registry_reflects_iff (Machine.exec_run executed)).mpr
    (Machine.along_of_checks executed (by decide +kernel))

end Roze.Rpc
