import Mathlib
import Roze.Http.Router

/-!
# The methods that 405 responses list

A router is built by calls, some of which take another router that was built the same way.
The calls that add routes to a path that has a stored 405 service leave its response as it
was. This says which calls keep the responses complete: those that add to such a path only
what it serves already.
-/

namespace Roze.Http

open PathRouter

open RouteGroup

open Roze.Library

variable {Handler Layer : Type}

/-- The calls that build a router. -/
inductive RouterCall (Handler Layer : Type) where
  | route (path : String) (methodRouter : MethodRouter Handler Layer)
  | nest (mount : String) (other : Router Handler Layer)
  | merge (other : Router Handler Layer)
  | layer (wrapper : Layer)
  | routeLayer (wrapper : Layer)
  | withState (stateLayer : Layer)
  | fallbackService (service : Service Handler Layer)
  | resetFallback
  | methodNotAllowedFallbackService (service : Service Handler Layer)

/-- The endpoints as a group. -/
def MethodRouter.asGroup (methodRouter : MethodRouter Handler Layer) (path : String) :
    RouteGroup Handler Layer where
  path := path
  routes := methodRouter.endpoints
  allowHeader := .fromMethods (methodRouter.endpoints.map Route.method)
  methodNotAllowedFallback := methodRouter.methodNotAllowedFallback

namespace RouterCall

/-- Make a call; a panic is an error. -/
def apply (matcher : PathMatcher) (router : Router Handler Layer) :
    RouterCall Handler Layer → Except String (Router Handler Layer)
  | .route path methodRouter => router.route matcher path methodRouter
  | .nest mount other => router.nest matcher mount other
  | .merge other => router.merge matcher other
  | .layer wrapper => .ok (router.layer wrapper)
  | .routeLayer wrapper => router.routeLayer wrapper
  | .withState stateLayer => .ok (router.withState stateLayer)
  | .fallbackService service => .ok (router.fallbackService service)
  | .resetFallback => .ok router.resetFallback
  | .methodNotAllowedFallbackService service => .ok (router.methodNotAllowedFallbackService service)

/-- The router that a call takes. -/
def argument : RouterCall Handler Layer → Option (Router Handler Layer)
  | .nest _ other => some other
  | .merge other => some other
  | _ => none

/-- The call installs no 405 service of the application. -/
def KeepsBuiltIn : RouterCall Handler Layer → Prop
  | .route _ methodRouter => methodRouter.methodNotAllowedFallback = none
  | .methodNotAllowedFallbackService _ => False
  | _ => True

/-- Make calls one after another. -/
def applyAll (matcher : PathMatcher) (router : Router Handler Layer) :
    List (RouterCall Handler Layer) → Except String (Router Handler Layer)
  | [] => .ok router
  | call :: rest => do
    let next ← call.apply matcher router
    applyAll matcher next rest

/-- What a call adds to a path fits the group that is there. -/
def Fits (router : Router Handler Layer) : RouterCall Handler Layer → Prop
  | .route path methodRouter => ∀ group, router.pathRouter.groupAt path = some group →
      group.Fits (methodRouter.asGroup path)
  | .nest mount other => ∀ root path placed group incoming,
      normalizeNestPrefix mount "use Router::merge instead" = .ok root →
      joinPaths root path = .ok placed → router.pathRouter.groupAt placed = some group →
      other.pathRouter.groupAt path = some incoming → group.Fits incoming
  | .merge other => ∀ path group incoming, router.pathRouter.groupAt path = some group →
      other.pathRouter.groupAt path = some incoming → group.Fits incoming
  | _ => True

end RouterCall

open RouterCall

/-- The routers that calls build when each of them meets a condition. -/
inductive Built (matcher : PathMatcher)
    (meets : Router Handler Layer → RouterCall Handler Layer → Prop) : Router Handler Layer → Prop
  | new : Built matcher meets .new
  | call {router next : Router Handler Layer} {call : RouterCall Handler Layer}
      (before : Built matcher meets router)
      (argument : ∀ other, call.argument = some other → Built matcher meets other)
      (builtIn : call.KeepsBuiltIn) (met : meets router call)
      (applied : call.apply matcher router = .ok next) : Built matcher meets next

/-- Every registered path has complete 405 responses. -/
def Router.AllowComplete (router : Router Handler Layer) : Prop :=
  ∀ path group, router.pathRouter.groupAt path = some group → group.AllowComplete

variable {matcher : PathMatcher} {router other next : Router Handler Layer}

/-! ## One call -/

theorem fresh_fits (path : String) (incoming : RouteGroup Handler Layer) :
    (RouteGroup.fresh path none).Fits incoming := by
  refine .inr (.inr ⟨fun stored => ?_, fun _ method member => ?_⟩)
  · cases stored
  · cases member

variable {pathRouter : PathRouter Handler Layer}

/-- The group at a place after an extension is complete exactly when the addition fits what
was there. -/
theorem extended_allowComplete_iff {path : String} {messages : ConflictMessages}
    {incoming joined : RouteGroup Handler Layer}
    (complete : ∀ path group, pathRouter.groupAt path = some group → group.AllowComplete)
    (complete' : incoming.AllowComplete)
    (extended : ((pathRouter.groupAt path).getD (.fresh path none)).extend messages incoming.routes
      incoming.methodNotAllowedFallback = .ok joined) :
    joined.AllowComplete ↔
      ∀ group, pathRouter.groupAt path = some group → group.Fits incoming := by
  cases registered : pathRouter.groupAt path with
  | none =>
    rw [registered, Option.getD_none] at extended
    rw [extend_allowComplete_iff (.of_current rfl rfl) complete' extended]
    simp [fresh_fits]
  | some group =>
    rw [registered, Option.getD_some] at extended
    rw [extend_allowComplete_iff (complete path group registered) complete' extended]
    simp

/-- The loop over the groups of a complete router. -/
theorem insertLoop_allowComplete_iff {place : String → Except String String}
    {change : RouteGroup Handler Layer → RouteGroup Handler Layer} {action : String}
    {added result : PathRouter Handler Layer}
    (injective : ∀ {first second placed}, place first = .ok placed → place second = .ok placed →
      first = second)
    (complete : ∀ path group, pathRouter.groupAt path = some group → group.AllowComplete)
    (complete' : ∀ path group, added.groupAt path = some group → (change group).AllowComplete)
    (inserted : pathRouter.insertLoop matcher place change none action added.entries = .ok result) :
    (∀ path group, result.groupAt path = some group → group.AllowComplete) ↔
      ∀ path placed group incoming, place path = .ok placed →
        pathRouter.groupAt placed = some group → added.groupAt path = some incoming →
        group.Fits (change incoming) := by
  obtain ⟨extended, untouched⟩ :=
    insertLoop_groupAt injective entries_distinct inserted
  constructor
  · intro completeAfter path placed group incoming placing registered arriving
    obtain ⟨placed', joined, messages, placing', extension, stored⟩ :=
      extended path incoming (mem_entries.mpr arriving)
    obtain rfl : placed' = placed := Except.ok.inj (placing'.symm.trans placing)
    exact (extended_allowComplete_iff complete (complete' path incoming arriving) extension).mp
      (completeAfter placed' joined stored) group registered
  · intro fits other group registered
    by_cases target : ∃ path ∈ added.entries.map Prod.fst, place path = .ok other
    · obtain ⟨path, listed, placing⟩ := target
      obtain ⟨⟨path, incoming⟩, member, rfl⟩ := List.mem_map.mp listed
      obtain ⟨placed, joined, _, placing', extension, stored⟩ := extended path incoming member
      obtain rfl : placed = other := Except.ok.inj (placing'.symm.trans placing)
      obtain rfl : joined = group := Option.some.inj (stored.symm.trans registered)
      have arriving := mem_entries.mp member
      exact (extended_allowComplete_iff complete (complete' path incoming arriving) extension).mpr
        fun group old => fits path placed group incoming placing old arriving
    · grind

theorem fits_nested (mount : String) (group incoming : RouteGroup Handler Layer) :
    group.Fits (incoming.nested mount) ↔ group.Fits incoming := by
  have methods : (incoming.nested mount).methods = incoming.methods := by
    simp [methods, nested, List.filterMap_map]
  have anyway : (incoming.nested mount).hasAny = incoming.hasAny := by
    simp [hasAny, nested, List.any_map, Function.comp_def]
  have stored : (incoming.nested mount).methodNotAllowedFallback.isSome =
      incoming.methodNotAllowedFallback.isSome := by
    simp [nested]
  rw [RouteGroup.Fits, RouteGroup.Fits, methods, anyway, stored]

/-- Layers change no group's completeness. -/
theorem mapGroups_allowComplete_iff {change : RouteGroup Handler Layer → RouteGroup Handler Layer}
    (keeps : ∀ group, (change group).AllowComplete ↔ group.AllowComplete) :
    (∀ path group, (pathRouter.mapGroups change).groupAt path = some group → group.AllowComplete) ↔
      ∀ path group, pathRouter.groupAt path = some group → group.AllowComplete := by
  simp only [groupAt_mapGroups, Option.map_eq_some_iff]
  constructor <;> simp_all

section

variable (plain : router.methodNotAllowedFallback = none)
include plain

section

variable (complete : router.AllowComplete)
include complete

theorem route_allowComplete_iff {path : String} {methodRouter : MethodRouter Handler Layer}
    (builtIn : methodRouter.methodNotAllowedFallback = none)
    (routed : router.route matcher path methodRouter = .ok next) :
    next.AllowComplete ↔ (RouterCall.route path methodRouter).Fits router := by
  obtain ⟨normal, normalized, rest⟩ := bind_ok routed
  obtain ⟨rfl, -⟩ := normalizePath_ok normalized
  obtain ⟨_, inserted, rfl⟩ := map_ok rest
  rw [plain] at inserted
  obtain ⟨joined, extended, groups⟩ := insertRoutes_groupAt inserted
  have current : (methodRouter.asGroup normal).AllowComplete := .of_current builtIn rfl
  have step : joined.AllowComplete ↔ (route normal methodRouter).Fits router :=
    extended_allowComplete_iff complete current extended
  rw [← step]
  constructor
  · intro completeAfter
    exact completeAfter normal joined (by rw [groups, if_pos rfl])
  · intro completeHere other group registered
    rw [groups] at registered
    split at registered
    · simp_all
    · exact complete other group registered

theorem nest_allowComplete_iff {mount : String} (complete' : other.AllowComplete)
    (nested : router.nest matcher mount other = .ok next) :
    next.AllowComplete ↔ (RouterCall.nest mount other).Fits router := by
  obtain ⟨root, normalized, rest⟩ := bind_ok nested
  obtain ⟨_, inserted, rfl⟩ := map_ok rest
  rw [plain] at inserted
  have below : ∀ path group, other.pathRouter.groupAt path = some group →
      (group.nested root).AllowComplete := fun path group registered =>
    (nested_allowComplete root).mpr (complete' path group registered)
  refine (insertLoop_allowComplete_iff joinPaths_injective complete below inserted).trans ?_
  simp only [fits_nested]
  constructor
  · intro fits root' path placed group incoming normalized' placing
    grind
  · intro fits path placed group incoming placing
    exact fits root path placed group incoming normalized placing

theorem merge_allowComplete_iff (complete' : other.AllowComplete)
    (merged : router.merge matcher other = .ok next) :
    next.AllowComplete ↔ (RouterCall.merge other).Fits router := by
  rw [Router.merge] at merged
  split at merged
  · cases merged
  · obtain ⟨_, inserted, rfl⟩ := map_ok merged
    rw [plain] at inserted
    have injective {first second placed : String}
        (left : (.ok first : Except String String) = .ok placed)
        (right : (.ok second : Except String String) = .ok placed) : first = second :=
      Except.ok.inj (left.trans right.symm)
    refine (insertLoop_allowComplete_iff injective complete complete' inserted).trans ?_
    constructor
    · intro fits path group incoming registered
      grind
    · rintro fits path _ group incoming ⟨⟩ registered
      exact fits path group incoming registered

/-- A call on complete routers gives a complete one exactly when it fits. -/
theorem apply_allowComplete_iff {call : RouterCall Handler Layer}
    (complete' : ∀ other, call.argument = some other → other.AllowComplete)
    (builtIn : call.KeepsBuiltIn) (applied : call.apply matcher router = .ok next) :
    next.AllowComplete ↔ call.Fits router := by
  have layered (wrapper : Layer) (includeMethodFallbacks : Bool) :
      (∀ path group, (router.pathRouter.layerRoutes wrapper includeMethodFallbacks).groupAt path =
        some group → group.AllowComplete) ↔ True := by
    refine (mapGroups_allowComplete_iff fun group => ?_).trans (iff_true_intro complete)
    apply AllowComplete.congr
    · simp [RouteGroup.layerRoutes]
    · cases includeMethodFallbacks <;> rfl
  cases call with
  | route => exact route_allowComplete_iff plain complete builtIn applied
  | nest mount other => exact nest_allowComplete_iff plain complete (complete' other rfl) applied
  | merge other => exact merge_allowComplete_iff plain complete (complete' other rfl) applied
  | layer wrapper =>
    cases applied
    exact layered wrapper true
  | routeLayer wrapper =>
    rw [apply, Router.routeLayer] at applied
    split at applied
    · cases applied
    · cases applied
      exact layered wrapper false
  | withState stateLayer =>
    cases applied
    exact layered stateLayer true
  | fallbackService | resetFallback =>
    cases applied
    exact iff_true_intro complete
  | methodNotAllowedFallbackService => exact builtIn.elim

end

end

/-! ## All calls -/

variable {meets : Router Handler Layer → RouterCall Handler Layer → Prop}

/-- No call installs a 405 service for new paths. -/
theorem apply_noFallback {call : RouterCall Handler Layer}
    (plain : router.methodNotAllowedFallback = none) (builtIn : call.KeepsBuiltIn)
    (applied : call.apply matcher router = .ok next) : next.methodNotAllowedFallback = none := by
  cases call with
  | route | nest =>
    obtain ⟨_, _, rest⟩ := bind_ok applied
    obtain ⟨_, _, rfl⟩ := map_ok rest
    exact plain
  | merge =>
    rw [apply, Router.merge] at applied
    split at applied
    · cases applied
    · obtain ⟨_, _, rfl⟩ := map_ok applied
      exact plain
  | routeLayer =>
    rw [apply, Router.routeLayer] at applied
    split at applied
    · cases applied
    · cases applied
      exact plain
  | methodNotAllowedFallbackService => exact builtIn.elim
  | _ =>
    cases applied
    exact plain

theorem Built.noFallback (built : Built matcher meets router) :
    router.methodNotAllowedFallback = none := by
  induction built with
  | new => rfl
  | call _ _ builtIn _ applied ih =>
    exact apply_noFallback ih builtIn applied

theorem Built.allowComplete (built : Built matcher (fun router call => call.Fits router) router) :
    router.AllowComplete := by
  induction built with
  | new =>
    intro path group registered
    cases registered
  | call before argument builtIn met applied ih argumentHypothesis =>
    exact (apply_allowComplete_iff before.noFallback ih argumentHypothesis builtIn
      applied).mpr met

/-- Where every call fits what it is made on, every registered path has complete 405
responses. A call on a router that has them keeps them exactly when it fits. Requests are
dispatched by the groups of the registered paths: to the 405 service when no route serves
the method. -/
theorem allow_header_complete_iff (matcher : PathMatcher) :
    (∀ router : Router Handler Layer, Built matcher (fun router call => call.Fits router) router →
      router.AllowComplete) ∧
    (∀ (router next : Router Handler Layer) (call : RouterCall Handler Layer),
      Built matcher (fun _ _ => True) router → router.AllowComplete →
      (∀ other, call.argument = some other → other.AllowComplete) →
      call.KeepsBuiltIn → call.apply matcher router = .ok next →
      (next.AllowComplete ↔ call.Fits router)) ∧
    ∀ (router : Router Handler Layer) (uri : String) (group : RouteGroup Handler Layer),
      router.pathRouter.matched matcher uri = some group →
        (∃ path, router.pathRouter.groupAt path = some group) ∧
        ∀ method, group.findRoute method = none →
          router.dispatch matcher method uri = group.notAllowed := by
  refine ⟨fun router built => built.allowComplete, ?_, ?_⟩
  · intro router next call built complete complete' builtIn applied
    exact apply_allowComplete_iff built.noFallback complete complete' builtIn applied
  · intro router uri group found
    refine ⟨matched_registered found, fun method unserved => ?_⟩
    simp [Router.dispatch, matchService, found, select, unserved]

/-! ## Routes before and after a layer -/

/-- The matcher of paths without captures. -/
def exactMatcher : PathMatcher where
  accepts entries path := !entries.any (fun entry => entry.1 == path)
  find entries uri := (entries.find? (fun entry => entry.1 == uri)).map Prod.snd
  found hit := by
    obtain ⟨entry, first, rfl⟩ := Option.map_eq_some_iff.mp hit
    grind

def listUsers : Route String String := ⟨some .get, .handler "list"⟩

def createUser : Route String String := ⟨some .post, .handler "create"⟩

/-- A route that is added after a layer is served, and the 405 response of its path does not
list it. -/
theorem allow_header_stale :
    ∃ router : Router String String,
      RouterCall.applyAll exactMatcher .new [.route "/users" ⟨[listUsers], none⟩, .layer "auth",
        .route "/users" ⟨[createUser], none⟩] = .ok router ∧
      router.dispatch exactMatcher .post "/users" = .handler "create" ∧
      (router.dispatch exactMatcher .put "/users").builtIn =
        some ⟨405, some "GET, HEAD", "method not allowed"⟩ ∧
      "POST" ∉ listEntries "GET, HEAD" := by
  have run : ((applyAll exactMatcher .new [.route "/users" ⟨[listUsers], none⟩,
      .layer "auth", .route "/users" ⟨[createUser], none⟩]).map fun router =>
        (router.dispatch exactMatcher .post "/users",
          (router.dispatch exactMatcher .put "/users").builtIn)) =
      .ok (.handler "create", some ⟨405, some "GET, HEAD", "method not allowed"⟩) := by
    decide +kernel
  obtain ⟨router, applied, observed⟩ := map_ok run
  exact ⟨router, applied, (Prod.ext_iff.mp observed).1, (Prod.ext_iff.mp observed).2, by decide +kernel⟩

/-- With both routes before the layer, the responses are complete. -/
theorem allow_header_complete_iff_layer_last :
    ∃ router : Router String String,
      RouterCall.applyAll exactMatcher .new [.route "/users" ⟨[listUsers, createUser], none⟩,
        .layer "auth"] = .ok router ∧
      router.AllowComplete := by
  have run : ((applyAll exactMatcher (Router.new : Router String String)
      [.route "/users" ⟨[listUsers, createUser], none⟩]).map fun _ => ()) = .ok () := by
    decide +kernel
  obtain ⟨_, applied, -⟩ := map_ok run
  obtain ⟨routed, routing, -⟩ := bind_ok applied
  have layering : (layer "auth").apply exactMatcher routed = .ok (routed.layer "auth") :=
    rfl
  have before : Built exactMatcher (fun router call => call.Fits router) routed := by
    refine .call .new ?_ ?_ ?_ routing
    · intro _ argument
      cases argument
    · rfl
    · intro _ registered
      cases registered
  have after : Built exactMatcher (fun router call => call.Fits router) (routed.layer "auth") := by
    refine .call before ?_ ?_ ?_ layering
    · intro _ argument
      cases argument
    · trivial
    · trivial
  refine ⟨routed.layer "auth", ?_, (allow_header_complete_iff exactMatcher).1 _ after⟩
  rw [applyAll, routing]
  rfl

end Roze.Http
