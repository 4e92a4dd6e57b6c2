import Mathlib
import Roze.Library.Text

/-!
# The routes of one path

A route group holds the routes of one path, the `Allow` header for its 405 responses, and
the service that gives them once a layer has been put around it. The header is computed
again whenever routes are added; a service that was made from an earlier header keeps it.

Handlers and layers are opaque: what matters of a service is which one is at its core and
what was put around it.
-/

namespace Roze.Http

open Roze.Library List

/-! ## Methods and the `Allow` header -/

/-- A method is named by a token. -/
structure Method where
  name : String
  token : isToken name = true
deriving DecidableEq, Repr

namespace Method

def get : Method := ⟨"GET", by decide⟩

def head : Method := ⟨"HEAD", by decide⟩

def post : Method := ⟨"POST", by decide⟩

def put : Method := ⟨"PUT", by decide⟩

theorem name_injective : Function.Injective Method.name := by
  intro first second same
  cases second
  cases same
  rfl

end Method

inductive AllowHeader where
  | value (text : String)
  | skip
deriving DecidableEq, Repr

namespace AllowHeader

/-- One text of each run of equal texts. -/
def dedup : List String → List String
  | first :: second :: rest =>
    if first = second then dedup (second :: rest) else first :: dedup (second :: rest)
  | texts => texts

/-- The names that the header lists: `HEAD` is served where `GET` is. -/
def allowedNames (methods : List Method) : List String :=
  let allowed := methods.map Method.name
  let allowed := if allowed.contains Method.get.name then allowed ++ [Method.head.name] else allowed
  dedup (allowed.insertionSort (· ≤ ·))

/-- A route for any method (`none`) leaves the header out. -/
def fromMethods (methods : List (Option Method)) : AllowHeader :=
  match methods.mapM id with
  | none => .skip
  | some methods => .value (joinParts ", " (allowedNames methods))

end AllowHeader

/-! ## Services -/

/-- A service: a handler or a built-in response, with layers and mount points around it. -/
inductive Service (Handler Layer : Type) where
  | handler (handler : Handler)
  | notFound
  | methodNotAllowed (allow : AllowHeader)
  | layered (layer : Layer) (inner : Service Handler Layer)
  | stripPrefix (mount : String) (inner : Service Handler Layer)
deriving DecidableEq, Repr

/-- What a built-in response has of interest here. -/
structure BuiltInResponse where
  status : Nat
  allow : Option String
  body : String
deriving DecidableEq, Repr

/-- The response of the 405 service. -/
def AllowHeader.response : AllowHeader → BuiltInResponse
  | .value text => ⟨405, some text, "method not allowed"⟩
  | .skip => ⟨405, none, "method not allowed"⟩

variable {Handler Layer : Type}

/-- The response of the built-in service at the core, before the layers see it. -/
def Service.builtIn : Service Handler Layer → Option BuiltInResponse
  | .handler _ => none
  | .notFound => some ⟨404, none, "not found"⟩
  | .methodNotAllowed allow => some allow.response
  | .layered _ inner => inner.builtIn
  | .stripPrefix _ inner => inner.builtIn

/-! ## Groups -/

/-- A route for one method, or for any (`none`). -/
structure Route (Handler Layer : Type) where
  method : Option Method
  service : Service Handler Layer
deriving DecidableEq, Repr

structure RouteGroup (Handler Layer : Type) where
  path : String
  routes : List (Route Handler Layer)
  allowHeader : AllowHeader
  methodNotAllowedFallback : Option (Service Handler Layer)

def routesOverlap : Option Method → Option Method → Bool
  | some left, some right => left = right
  | none, none => true
  | some _, none => false
  | none, some _ => false

def methodLabel (method : Option Method) : String :=
  match method with
  | some method => method.name
  | none => "any"

/-- The messages of the two conflicts between a group and what is added to it: of routes,
with the label of the method, and of 405 services, with the path of the group. -/
structure ConflictMessages where
  overlappingRoute : String → String
  overlappingFallback : String → String

/-- The loop that adds routes one by one. -/
def pushRoutes (message : String → String) (routes : List (Route Handler Layer)) :
    List (Route Handler Layer) → Except String (List (Route Handler Layer))
  | [] => .ok routes
  | route :: rest =>
    if routes.any (fun existing => routesOverlap existing.method route.method) then
      .error (message (methodLabel route.method))
    else pushRoutes message (routes ++ [route]) rest

namespace RouteGroup

/-- The group of a new path. -/
def fresh (path : String) (fallback : Option (Service Handler Layer)) : RouteGroup Handler Layer :=
  ⟨path, [], .value "", fallback⟩

variable (group : RouteGroup Handler Layer)

def refreshAllowHeader : RouteGroup Handler Layer :=
  { group with allowHeader := .fromMethods (group.routes.map Route.method) }

/-- Add routes and a 405 service to a group. -/
def extend (messages : ConflictMessages) (routes : List (Route Handler Layer))
    (fallback : Option (Service Handler Layer)) : Except String (RouteGroup Handler Layer) :=
  match pushRoutes messages.overlappingRoute group.routes routes with
  | .error message => .error message
  | .ok routes =>
    match fallback with
    | none => .ok { group with routes }.refreshAllowHeader
    | some fallback =>
      if group.methodNotAllowedFallback.isSome then
        .error (messages.overlappingFallback group.path)
      else .ok { group with routes, methodNotAllowedFallback := some fallback }.refreshAllowHeader

/-- The route of a method: its own, for `HEAD` that of `GET`, or the one for any method. -/
def findRoute (method : Method) : Option (Route Handler Layer) :=
  (group.routes.find? (fun route => route.method = some method)).or
    ((if method = .head then group.routes.find? (fun route => route.method = some .get)
      else none).or (group.routes.find? (fun route => route.method.isNone)))

/-- The service for methods without a route. -/
def notAllowed : Service Handler Layer :=
  group.methodNotAllowedFallback.getD (.methodNotAllowed group.allowHeader)

/-- The service for a method. -/
def select (method : Method) : Service Handler Layer :=
  match group.findRoute method with
  | some route => route.service
  | none => group.notAllowed

/-- Put a layer around the routes, and around the 405 service if asked to. -/
def layerRoutes (layer : Layer) (includeMethodFallbacks : Bool) : RouteGroup Handler Layer :=
  { group with
    routes := group.routes.map fun route => { route with service := .layered layer route.service }
    methodNotAllowedFallback :=
      if includeMethodFallbacks then some (.layered layer group.notAllowed)
      else group.methodNotAllowedFallback }

/-- The group below a mount point. -/
def nested (mount : String) : RouteGroup Handler Layer :=
  { group with
    routes := group.routes.map fun route => { route with service := .stripPrefix mount route.service }
    methodNotAllowedFallback := group.methodNotAllowedFallback.map (.stripPrefix mount) }

/-- There is a route for any method. -/
def hasAny : Bool := group.routes.any (fun route => route.method.isNone)

/-- The methods that have a route of their own. -/
def methods : List Method := group.routes.filterMap Route.method

/-- The 405 response of the group lists exactly the methods that it serves, unless it has a
route for any method. -/
def AllowComplete : Prop :=
  group.hasAny = false →
    ∃ response text, group.notAllowed.builtIn = some response ∧ response.status = 405 ∧
      response.allow = some text ∧
      ∀ name, name ∈ listEntries text ↔
        ∃ method : Method, method.name = name ∧ (group.findRoute method).isSome = true

end RouteGroup

/-! ## What a header lists -/

/-- The methods that routes for some methods serve. -/
def Serves (methods : List Method) (method : Method) : Prop :=
  method ∈ methods ∨ (method = .head ∧ .get ∈ methods)

/-- A service has a built-in 405 response that lists what some methods serve. -/
def Service.Lists (service : Service Handler Layer) (methods : List Method) : Prop :=
  ∃ response text, service.builtIn = some response ∧ response.status = 405 ∧
    response.allow = some text ∧
    ∀ name, name ∈ listEntries text ↔ ∃ method : Method, method.name = name ∧ Serves methods method

namespace AllowHeader

theorem mem_dedup (text : String) (texts : List String) : text ∈ dedup texts ↔ text ∈ texts := by
  induction texts with
  | nil => rfl
  | cons first rest ih =>
    cases rest with
    | nil => rfl
    | cons =>
      rw [dedup]
      grind

theorem mem_allowedNames (methods : List Method) (name : String) :
    name ∈ allowedNames methods ↔ ∃ method : Method, method.name = name ∧ Serves methods method := by
  have getNamed : Method.get.name ∈ methods.map Method.name ↔ Method.get ∈ methods :=
    mem_map_of_injective Method.name_injective
  simp only [allowedNames, mem_dedup, mem_insertionSort, contains_iff_mem, getNamed]
  constructor
  · intro listed
    split at listed
    · rename_i served
      rcases mem_append.mp listed with own | implied
      · obtain ⟨method, member, rfl⟩ := mem_map.mp own
        exact ⟨method, rfl, .inl member⟩
      · exact ⟨.head, (mem_singleton.mp implied).symm, .inr ⟨rfl, served⟩⟩
    · obtain ⟨method, member, rfl⟩ := mem_map.mp listed
      exact ⟨method, rfl, .inl member⟩
  · rintro ⟨method, rfl, member | ⟨rfl, served⟩⟩
    · grind
    · simp_all

/-- Without a route for any method, all methods are collected. -/
theorem mapM_id {methods : List (Option Method)} (own : ∀ method ∈ methods, method.isSome = true) :
    methods.mapM id = some (methods.filterMap id) := by
  induction methods with
  | nil => rfl
  | cons first rest ih =>
    obtain ⟨method, rfl⟩ := Option.isSome_iff_exists.mp (own first mem_cons_self)
    simp_all

/-- The header of methods lists what they serve. -/
theorem lists_fromMethods {methods : List (Option Method)}
    (own : ∀ method ∈ methods, method.isSome = true) :
    (Service.methodNotAllowed (fromMethods methods) : Service Handler Layer).Lists
      (methods.filterMap id) := by
  simp only [fromMethods, mapM_id own]
  refine ⟨_, _, rfl, rfl, rfl, fun name => ?_⟩
  rw [listEntries_join, mem_allowedNames]
  intro part listed
  obtain ⟨method, rfl, _⟩ := (mem_allowedNames _ part).mp listed
  exact isEntry_of_isToken method.token

end AllowHeader

/-- One response lists two sets of methods exactly when they serve the same. -/
theorem Service.Lists.iff {service : Service Handler Layer} {methods others : List Method}
    (lists : service.Lists methods) :
    service.Lists others ↔ ∀ method, Serves others method ↔ Serves methods method := by
  obtain ⟨response, text, builtIn, status, allow, listed⟩ := lists
  have named (methods : List Method) (method : Method) :
      (∃ other : Method, other.name = method.name ∧ Serves methods other) ↔ Serves methods method := by
    constructor
    · rintro ⟨_, same, serves⟩
      rwa [← Method.name_injective same]
    · exact fun serves => ⟨method, rfl, serves⟩
  constructor
  · rintro ⟨response', text', builtIn', -, allow', listed'⟩ _
    obtain rfl : response = response' := Option.some.inj (builtIn.symm.trans builtIn')
    obtain rfl : text = text' := Option.some.inj (allow.symm.trans allow')
    rw [← named others, ← named methods, ← listed, ← listed']
  · intro same
    refine ⟨response, text, builtIn, status, allow, fun name => ?_⟩
    simp only [listed, same]

theorem serves_append (first second : List Method) (method : Method) :
    Serves (first ++ second) method ↔ Serves first method ∨ Serves second method := by
  simp only [Serves, mem_append]
  tauto

/-- Adding methods changes nothing exactly when they are served already. -/
theorem serves_append_iff (first second : List Method) :
    (∀ method, Serves (first ++ second) method ↔ Serves first method) ↔
      ∀ method ∈ second, Serves first method := by
  constructor
  · intro same method member
    exact (same method).mp ((serves_append _ _ _).mpr (.inr (.inl member)))
  · intro served method
    rw [serves_append]
    refine ⟨fun either => either.elim id ?_, .inl⟩
    rintro (member | ⟨rfl, member⟩)
    · exact served method member
    · -- `GET` is served by its own route only, and then so is `HEAD`
      rcases served .get member with own | ⟨same, _⟩
      · exact .inr ⟨rfl, own⟩
      · exact absurd same (by decide)

/-! ## Groups whose header is complete -/

namespace RouteGroup

variable {group incoming joined : RouteGroup Handler Layer} {messages : ConflictMessages}

theorem own_of_hasAny (noAny : group.hasAny = false) :
    ∀ method ∈ group.routes.map Route.method, method.isSome = true := by
  simpa [hasAny, any_eq_false, Option.isSome_iff_ne_none, Option.isNone_iff_eq_none] using noAny

/-- Dispatch serves what the methods of the routes serve. -/
theorem findRoute_isSome (noAny : group.hasAny = false) (method : Method) :
    (group.findRoute method).isSome = true ↔ Serves group.methods method := by
  have own (wanted : Method) :
      (group.routes.find? (fun route => route.method = some wanted)).isSome = true ↔
        wanted ∈ group.methods := by
    simp [methods, find?_isSome]
  have none : group.routes.find? (fun route => route.method.isNone) = none := by
    simpa [hasAny, any_eq_false] using noAny
  simp only [findRoute, none, Option.or_none, Option.isSome_or, Bool.or_eq_true, own, Serves]
  grind

theorem allowComplete_iff :
    group.AllowComplete ↔ (group.hasAny = false → group.notAllowed.Lists group.methods) := by
  refine forall_congr' fun noAny => ?_
  simp only [Service.Lists, findRoute_isSome noAny]

/-- A group without a stored 405 service answers with its own header. -/
theorem AllowComplete.of_current (unlayered : group.methodNotAllowedFallback = none)
    (current : group.allowHeader = .fromMethods (group.routes.map Route.method)) :
    group.AllowComplete := by
  rw [allowComplete_iff]
  intro noAny
  rw [notAllowed, unlayered, Option.getD_none, current]
  have lists : (Service.methodNotAllowed _ : Service Handler Layer).Lists _ :=
    AllowHeader.lists_fromMethods (own_of_hasAny noAny)
  rwa [filterMap_map] at lists

/-- Wrapping changes neither the routes' methods nor the response at the core. -/
theorem AllowComplete.congr (same : joined.routes.map Route.method = group.routes.map Route.method)
    (core : joined.notAllowed.builtIn = group.notAllowed.builtIn) :
    joined.AllowComplete ↔ group.AllowComplete := by
  have anyway : joined.hasAny = group.hasAny := by
    have either (routes : List (Route Handler Layer)) :
        routes.any (fun route => route.method.isNone) =
          (routes.map Route.method).any Option.isNone := by
      simp [Function.comp_def]
    rw [hasAny, hasAny, either, either, same]
  have methods : joined.methods = group.methods := by
    have collected (routes : List (Route Handler Layer)) :
        routes.filterMap Route.method = (routes.map Route.method).filterMap id := by
      rw [filterMap_map]
      rfl
    rw [RouteGroup.methods, RouteGroup.methods, collected, collected, same]
  rw [allowComplete_iff, allowComplete_iff, anyway, methods]
  simp only [Service.Lists, core]

theorem nested_allowComplete (mount : String) :
    (group.nested mount).AllowComplete ↔ group.AllowComplete := by
  apply AllowComplete.congr
  · simp [nested]
  · rw [notAllowed, notAllowed, nested]
    cases group.methodNotAllowedFallback <;> rfl

theorem pushRoutes_ok {message : String → String} {routes more pushed : List (Route Handler Layer)}
    (added : pushRoutes message routes more = .ok pushed) : pushed = routes ++ more := by
  induction more generalizing routes with
  | nil =>
    cases added
    rw [append_nil]
  | cons route rest ih =>
    rw [pushRoutes] at added
    grind

/-- What an extended group consists of. -/
theorem extend_ok {routes : List (Route Handler Layer)} {fallback : Option (Service Handler Layer)}
    (added : group.extend messages routes fallback = .ok joined) :
    joined.routes = group.routes ++ routes ∧
      joined.allowHeader = .fromMethods (joined.routes.map Route.method) ∧
      joined.methodNotAllowedFallback = fallback.or group.methodNotAllowedFallback ∧
      (fallback = none ∨ group.methodNotAllowedFallback = none) := by
  rw [extend] at added
  cases result : pushRoutes messages.overlappingRoute group.routes routes with
  | error => simp_all
  | ok =>
    rw [result] at added
    have routes := pushRoutes_ok result
    cases fallback with
    | none =>
      cases added
      exact ⟨routes, rfl, rfl, .inl rfl⟩
    | some =>
      simp only at added
      split at added
      · cases added
      · rename_i unlayered
        cases added
        exact ⟨routes, rfl, rfl, .inr (by simpa using unlayered)⟩

/-- What is added to a group leaves its stored 405 service complete, and the other way
round: whoever has the service serves the methods of the other already. -/
def Fits (group incoming : RouteGroup Handler Layer) : Prop :=
  group.hasAny = true ∨ incoming.hasAny = true ∨
    ((group.methodNotAllowedFallback.isSome = true →
        ∀ method ∈ incoming.methods, Serves group.methods method) ∧
      (incoming.methodNotAllowedFallback.isSome = true →
        ∀ method ∈ group.methods, Serves incoming.methods method))

/-- Joining two complete groups gives a complete one exactly when they fit.

Proof: without a stored service the header is computed again. A stored service lists what
its own group serves, and the joined group has to serve the same. -/
theorem extend_allowComplete_iff (complete : group.AllowComplete)
    (complete' : incoming.AllowComplete)
    (added : group.extend messages incoming.routes incoming.methodNotAllowedFallback = .ok joined) :
    joined.AllowComplete ↔ group.Fits incoming := by
  obtain ⟨routes, current, stored, one⟩ := extend_ok added
  have anyway : joined.hasAny = (group.hasAny || incoming.hasAny) := by
    rw [hasAny, routes, any_append, hasAny, hasAny]
  have methods : joined.methods = group.methods ++ incoming.methods := by
    rw [RouteGroup.methods, routes, filterMap_append, RouteGroup.methods, RouteGroup.methods]
  by_cases any : group.hasAny = true ∨ incoming.hasAny = true
  · have exempt : joined.hasAny = true := by simp_all
    have vacuous : joined.AllowComplete := fun noAny => by simp_all
    exact ⟨fun _ => any.elim .inl fun other => .inr (.inl other), fun _ => vacuous⟩
  simp only [not_or, Bool.not_eq_true] at any
  obtain ⟨noAny, noAny'⟩ := any
  have joinedNoAny : joined.hasAny = false := by rw [anyway, noAny, noAny']; rfl
  cases layered : group.methodNotAllowedFallback with
  | none =>
    cases layered' : incoming.methodNotAllowedFallback with
    | none =>
      have unlayered : joined.methodNotAllowedFallback = none := by simp_all
      simp [AllowComplete.of_current unlayered current, Fits, layered, layered']
    | some =>
      have lists := allowComplete_iff.mp complete' noAny'
      have same : joined.notAllowed = incoming.notAllowed := by
        rw [notAllowed, notAllowed, stored, layered, layered']
        rfl
      have swapped (method : Method) : Serves (group.methods ++ incoming.methods) method ↔
          Serves (incoming.methods ++ group.methods) method := by
        rw [serves_append, serves_append, or_comm]
      rw [allowComplete_iff, forall_prop_of_true joinedNoAny, same, lists.iff, methods]
      simp only [swapped, serves_append_iff]
      simp [Fits, noAny, noAny', layered, layered']
  | some =>
    have layered' : incoming.methodNotAllowedFallback = none := by simp_all
    have lists := allowComplete_iff.mp complete noAny
    have same : joined.notAllowed = group.notAllowed := by
      rw [notAllowed, notAllowed, stored, layered, layered']
      rfl
    rw [allowComplete_iff, forall_prop_of_true joinedNoAny, same, lists.iff, methods,
      serves_append_iff]
    simp [Fits, noAny, noAny', layered, layered']

end RouteGroup

end Roze.Http
