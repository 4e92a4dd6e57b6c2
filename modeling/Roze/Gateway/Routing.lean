import Roze.Context.Propagation
import Roze.Http.HeaderMap
import Roze.Library.Execution
import Roze.Library.StableOrder

/-!
# How the gateway chooses a route

The routes of a configuration are checked, compiled and ordered by the length of their paths. A
request takes the first route that matches its path, its headers, its cookies and its share of the
traffic. The method is only looked at after that: it is not part of the choice.
-/

namespace Roze.Gateway.Routing

open Roze.Http List
open Roze.Library

/-! ## Configuration -/

/-- A route of the configuration, with what the choice and the checks read. -/
structure GatewayRoute where
  path : String
  service : String
  methods : List String
  matchHeaders : List (String × String)
  matchCookies : List (String × String)
  trafficPercent : UInt32
  mirrorService : Option String
  mirrorPercent : UInt32
  maxStreamConnections : Option UInt32
  fallbackStatus : Option UInt16
deriving DecidableEq

structure GatewayConfig where
  services : List String
  routes : List GatewayRoute

/-- The text of a method, if it can be one. -/
def parseMethod (text : String) : Option String :=
  if isToken text then some text else none

/-- The reasons of `validate_gateway_config` that are about routes. -/
inductive InvalidRoute where
  | relativePath (path : String)
  | unknownService (path service : String)
  | invalidMethod (path method : String)
  | percentages (path : String)
  | unknownMirror (path mirror : String)
  | zeroStreams (path : String)
  | fallbackStatus (path : String)
deriving DecidableEq

def validateRoute (services : List String) (route : GatewayRoute) : Except InvalidRoute Unit :=
  if !beginsWith "/" route.path then .error (.relativePath route.path)
  else if !services.contains route.service then .error (.unknownService route.path route.service)
  else match route.methods.find? (fun method => (parseMethod method).isNone) with
    | some method => .error (.invalidMethod route.path method)
    | none =>
        if !(route.trafficPercent ≤ 100 && route.mirrorPercent ≤ 100) then .error (.percentages route.path)
        else match route.mirrorService.filter (fun mirror => !services.contains mirror) with
          | some mirror => .error (.unknownMirror route.path mirror)
          | none =>
              if route.maxStreamConnections = some 0 then .error (.zeroStreams route.path)
              else if route.fallbackStatus.any (fun status => !(100 ≤ status && status < 1000)) then
                .error (.fallbackStatus route.path)
              else .ok ()

/-! ## Compiled routes -/

structure CompiledRoute where
  path : String
  service : String
  methods : List String
  matchHeaders : List (String × String)
  matchCookies : List (String × String)
  trafficPercent : UInt32
deriving DecidableEq

def isWildcard (method : String) : Bool := trim method = "*" || trim method = "ALL" || trim method = "all"

/-- The methods of a route; none of them stands for all. The checks leave ASCII entries only. -/
def parseMethods (raw : List String) : List String :=
  if raw.any isWildcard then []
  else raw.filterMap (fun method => parseMethod (toAsciiUppercase (trim method)))

def normalizePathPrefix (path : String) : String :=
  let normalized := String.ofList (path.toList.rdropWhile (· = '/'))
  if normalized.isEmpty then "/"
  else if beginsWith "/" normalized then normalized
  else "/" ++ normalized

def compileRoute (route : GatewayRoute) : CompiledRoute where
  path := normalizePathPrefix route.path
  service := route.service
  methods := parseMethods route.methods
  matchHeaders := route.matchHeaders
  matchCookies := route.matchCookies
  trafficPercent := route.trafficPercent

/-- The routes of a runtime: checked, compiled, and the longest paths first. -/
def buildRoutes (config : GatewayConfig) : Except InvalidRoute (List CompiledRoute) := do
  config.routes.forM (validateRoute config.services)
  return sortDescending (fun route => route.path.utf8ByteSize) (config.routes.map compileRoute)

/-! ## Requests -/

structure IncomingRequest where
  method : String
  path : String
  headers : HeaderMap

namespace CompiledRoute

variable (route : CompiledRoute)

def matchesPath (requestPath : String) : Bool :=
  route.path = "/" || requestPath = route.path || beginsWith (route.path ++ "/") requestPath

def methodAllowed (method : String) : Bool :=
  route.methods.isEmpty || route.methods.any (· = method)

end CompiledRoute

/-- The text of the first field line of a name. -/
def headerText (headers : HeaderMap) (name : String) : Option String := do
  let name ← parseHeaderName name
  let value ← headers.get name
  value.toStr

def cookieValue (headers : HeaderMap) (name : String) : Option String := do
  let line ← headerText headers "cookie"
  (splitParts ';' line).findSome? (fun part => do
    let (key, value) ← splitOnce '=' (trim part)
    if key = name then some value else none)

def CompiledRoute.matchesRequest (route : CompiledRoute) (headers : HeaderMap) : Bool :=
  route.matchHeaders.all (fun (name, expected) => headerText headers name = some expected) &&
    route.matchCookies.all (fun (name, expected) => cookieValue headers name = some expected)

/-- What the share of the traffic is drawn from. -/
def gatewaySelectionKey (headers : HeaderMap) (path : String) : String :=
  (["x-user-id", "x-tenant-id", Context.requestIdHeader].findSome? (headerText headers)).getD path

def stableBucket (value : String) : UInt32 :=
  value.toUTF8.data.toList.foldl (fun hash byte => (hash ^^^ byte.toUInt32) * 0x01000193) 0x811c9dc5 % 100

/-- The route has the request but for its method. -/
def CompiledRoute.matches (request : IncomingRequest) (route : CompiledRoute) : Bool :=
  route.matchesPath request.path && route.matchesRequest request.headers &&
    stableBucket (gatewaySelectionKey request.headers request.path) < route.trafficPercent

def selectRoute (routes : List CompiledRoute) (request : IncomingRequest) : Option CompiledRoute :=
  routes.find? (CompiledRoute.matches request)

/-- How `handle_inner` goes on. -/
inductive RouteDecision where
  | notFound
  | methodNotAllowed (route : CompiledRoute)
  | serviceNotFound (route : CompiledRoute)
  | served (route : CompiledRoute)
deriving DecidableEq

def handleInner (config : GatewayConfig) (routes : List CompiledRoute) (request : IncomingRequest) :
    RouteDecision :=
  match selectRoute routes request with
  | none => .notFound
  | some route =>
      if !route.methodAllowed request.method then .methodNotAllowed route
      else if !config.services.contains route.service then .serviceNotFound route
      else .served route

/-! ## What is asked of the choice -/

/-- A configured method, as it is compared. -/
def listed (methods : List String) (method : String) : Bool :=
  methods.any (fun entry => toAsciiUppercase (trim entry) = method)

/-- The methods of a route accept a method. -/
def accepts (methods : List String) (method : String) : Bool :=
  methods.isEmpty || methods.any isWildcard || listed methods method

/-- The route of the configuration has the request but for its method. -/
def GatewayRoute.matches (request : IncomingRequest) (route : GatewayRoute) : Bool :=
  (compileRoute route).matches request

/-- The length of the path that counts. -/
def GatewayRoute.length (route : GatewayRoute) : Nat := (compileRoute route).path.utf8ByteSize

/-- A request that some route has, method included, is served by the longest of these routes. A
method is refused only when a route has the rest, and a route with a list of methods serves no
other. -/
structure Routed (config : GatewayConfig) (request : IncomingRequest) (decision : RouteDecision) :
    Prop where
  served : (∃ route ∈ config.routes, route.matches request ∧ accepts route.methods request.method) →
    ∃ route ∈ config.routes, decision = .served (compileRoute route) ∧ route.matches request ∧
      accepts route.methods request.method ∧
      ∀ other ∈ config.routes, other.matches request → accepts other.methods request.method →
        other.length ≤ route.length
  refused : ∀ compiled, decision = .methodNotAllowed compiled →
    ∃ route ∈ config.routes, compileRoute route = compiled ∧ route.matches request ∧
      ¬ accepts route.methods request.method
  restricted : ∀ route ∈ config.routes, decision = .served (compileRoute route) → route.methods ≠ [] →
    route.methods.any isWildcard = false → listed route.methods request.method

/-- No route that has the rest of a request and refuses its method comes first. Whenever some route
accepts, each route that refuses has one before it that accepts: with a longer path, or as long and
earlier in the configuration. -/
def Unobstructed (config : GatewayConfig) (request : IncomingRequest) : Prop :=
  (∃ route ∈ config.routes, route.matches request ∧ accepts route.methods request.method) →
    ∀ front route back, config.routes = front ++ route :: back → route.matches request →
      ¬ accepts route.methods request.method →
      (∃ other ∈ front, other.matches request ∧ accepts other.methods request.method ∧
        route.length ≤ other.length) ∨
      ∃ other ∈ back, other.matches request ∧ accepts other.methods request.method ∧
        route.length < other.length

/-! ## Methods -/

/-- What is a method stays one in capital letters and without white space at its ends. -/
theorem parseMethod_normalized {entry : String} (valid : (parseMethod entry).isSome = true) :
    parseMethod (toAsciiUppercase (trim entry)) = some (toAsciiUppercase (trim entry)) := by
  simp only [parseMethod] at valid
  split at valid
  · rename_i token
    obtain ⟨filled, characters⟩ := Bool.and_eq_true_iff.mp token
    have upper : isToken (toAsciiUppercase entry) = true := by
      rw [isToken, toAsciiUppercase, String.toList_ofList, all_map, Bool.and_eq_true, all_eq_true]
      refine ⟨by simpa using filled, fun ch member => ?_⟩
      have own := all_eq_true.mp characters ch member
      exact forall_ascii (fun ch => tokenChar ch = true → tokenChar ch.toUpper = true)
        (by decide +kernel) (tokenChar_ascii own) own
    rw [trim_entry (isEntry_of_isToken token), parseMethod, upper]
    rfl
  · cases valid

theorem validateRoute_methods {services : List String} {route : GatewayRoute}
    (valid : validateRoute services route = .ok ()) :
    services.contains route.service = true ∧ ∀ entry ∈ route.methods, (parseMethod entry).isSome = true := by
  rw [validateRoute] at valid
  split at valid
  · cases valid
  split at valid
  · cases valid
  rename_i known
  split at valid
  · cases valid
  rename_i parsed
  refine ⟨by simpa using known, fun entry member => ?_⟩
  simpa [Option.isSome_iff_ne_none] using find?_eq_none.mp parsed entry member

/-- For a route that passes the checks, the compiled methods allow what the configured ones accept. -/
theorem methodAllowed_eq {services : List String} {route : GatewayRoute}
    (valid : validateRoute services route = .ok ()) (method : String) :
    (compileRoute route).methodAllowed method = accepts route.methods method := by
  simp only [CompiledRoute.methodAllowed, compileRoute, parseMethods, accepts]
  cases wildcard : route.methods.any isWildcard with
  | true => simp
  | false =>
    have parsed : route.methods.filterMap (fun entry => parseMethod (toAsciiUppercase (trim entry))) =
        route.methods.map (fun entry => toAsciiUppercase (trim entry)) := by
      rw [← filterMap_eq_map]
      apply filterMap_congr
      intro entry member
      exact parseMethod_normalized ((validateRoute_methods valid).2 entry member)
    simp [parsed, listed, Function.comp_def]

/-! ## The choice -/

section Choice

variable {config : GatewayConfig} {routes : List CompiledRoute} {request : IncomingRequest}

section

variable (built : buildRoutes config = .ok routes)
include built

theorem buildRoutes_ok :
    (∀ route ∈ config.routes, validateRoute config.services route = .ok ()) ∧
      routes = sortDescending (fun route => route.path.utf8ByteSize) (config.routes.map compileRoute) := by
  obtain ⟨⟨⟩, checked, sorted⟩ := bind_ok built
  refine ⟨?_, (Except.ok.inj sorted).symm⟩
  generalize config.routes = items at checked
  induction items with
  | nil => nofun
  | cons first rest ih =>
    obtain ⟨⟨⟩, here, later⟩ := bind_ok checked
    simp_all

/-- The route that is chosen: what matches before it in the configuration has a shorter path, and
what matches after it has no longer one. -/
theorem selectRoute_eq_some {chosen : CompiledRoute}
    (selected : selectRoute routes request = some chosen) :
    ∃ front route back, config.routes = front ++ route :: back ∧ compileRoute route = chosen ∧
      route.matches request ∧ (∀ other ∈ front, other.matches request → other.length < route.length) ∧
      ∀ other ∈ back, other.matches request → other.length ≤ route.length := by
  rw [selectRoute, (buildRoutes_ok built).2] at selected
  obtain ⟨_, _, split, found, before, after⟩ := find?_sortDescending selected
  obtain ⟨head, _, whole, rfl, rest⟩ := map_eq_append_iff.mp split
  obtain ⟨route, last, rfl, rfl, rfl⟩ := map_eq_cons_iff.mp rest
  refine ⟨head, route, last, whole, rfl, found, fun other member => ?_, fun other member => ?_⟩
  · exact before _ (mem_map_of_mem member)
  · exact after _ (mem_map_of_mem member)

/-- A method is refused only when a route has the rest, and a list of methods keeps others out. -/
theorem refused_restricted (request : IncomingRequest) :
    (∀ compiled, handleInner config routes request = .methodNotAllowed compiled →
      ∃ route ∈ config.routes, compileRoute route = compiled ∧ route.matches request ∧
        ¬ accepts route.methods request.method) ∧
    ∀ route ∈ config.routes, handleInner config routes request = .served (compileRoute route) →
      route.methods ≠ [] → route.methods.any isWildcard = false →
      listed route.methods request.method := by
  obtain ⟨valid, -⟩ := buildRoutes_ok built
  constructor
  · intro compiled decided
    cases selected : selectRoute routes request with
    | none =>
      rw [handleInner, selected] at decided
      cases decided
    | some =>
      obtain ⟨_, route, _, whole, rfl, found, -⟩ := selectRoute_eq_some built selected
      have member : route ∈ config.routes := whole ▸ mem_append_right _ mem_cons_self
      simp only [handleInner, selected, methodAllowed_eq (valid route member)] at decided
      grind
  · intro route member decided some plain
    cases selected : selectRoute routes request with
    | none =>
      rw [handleInner, selected] at decided
      cases decided
    | some =>
      simp only [handleInner, selected] at decided
      split at decided
      · cases decided
      rename_i allowed
      split at decided
      · cases decided
      obtain rfl := RouteDecision.served.inj decided
      rw [Bool.not_eq_true, Bool.not_eq_false', methodAllowed_eq (valid route member)] at allowed
      simpa [accepts, plain, some] using allowed

end

/-- For every configuration that passes the checks and every request, the choice is right exactly
when no route that refuses the method stands before those that accept it. -/
theorem routed_iff (built : buildRoutes config = .ok routes) (request : IncomingRequest) :
    Routed config request (handleInner config routes request) ↔ Unobstructed config request := by
  obtain ⟨valid, -⟩ := buildRoutes_ok built
  obtain ⟨refused, restricted⟩ := refused_restricted built request
  have enough : Routed config request (handleInner config routes request) ↔
      ((∃ route ∈ config.routes, route.matches request ∧ accepts route.methods request.method) →
        ∃ route ∈ config.routes, handleInner config routes request = .served (compileRoute route) ∧
          route.matches request ∧ accepts route.methods request.method ∧
          ∀ other ∈ config.routes, other.matches request → accepts other.methods request.method →
            other.length ≤ route.length) :=
    ⟨Routed.served, fun served => ⟨served, refused, restricted⟩⟩
  rw [enough, Unobstructed]
  refine forall_congr' fun some => ?_
  cases selected : selectRoute routes request with
  | none =>
    obtain ⟨route, member, matched, -⟩ := some
    rw [selectRoute, (buildRoutes_ok built).2] at selected
    exact absurd matched
      (find?_eq_none.mp selected _ (mem_sortDescending.mpr (mem_map_of_mem member)))
  | some =>
    obtain ⟨front, route, back, whole, rfl, found, before, after⟩ := selectRoute_eq_some built selected
    have member : route ∈ config.routes := whole ▸ mem_append_right _ mem_cons_self
    have allowed := methodAllowed_eq (valid route member) request.method
    have known := (validateRoute_methods (valid route member)).1
    have same : (compileRoute route).service = route.service := rfl
    constructor
    · rintro ⟨_, _, decided, -⟩ _ other _ whole' matched refuses
      have accepted : accepts route.methods request.method = true := by
        simp only [handleInner, selected, allowed] at decided
        split at decided
        · cases decided
        · rename_i accepted
          simpa using accepted
      have different : route ≠ other := by
        rintro rfl
        exact refuses accepted
      rcases before_or_after (whole.symm.trans whole') different with ⟨early, late⟩ | ⟨late, early⟩
      · exact .inl ⟨route, early, found, accepted, after other late matched⟩
      · exact .inr ⟨route, late, found, accepted, before other early matched⟩
    · intro unobstructed
      have accepted : accepts route.methods request.method = true := by
        by_contra refuses
        rcases unobstructed front route back whole found refuses with
          ⟨other, early, matched, -, longer⟩ | ⟨other, late, matched, -, longer⟩
        · have shorter := before other early matched
          omega
        · have shorter := after other late matched
          omega
      refine ⟨route, member, ?_, found, accepted, fun other listed matched _ => ?_⟩
      · simpa [handleInner, selected, allowed, accepted, same] using known
      · rw [whole] at listed
        rcases mem_append.mp listed with early | rest
        · exact (before other early matched).le
        · rcases mem_cons.mp rest with rfl | late
          · exact le_rfl
          · exact after other late matched

end Choice

namespace MethodSplit

/-- A route of the service, with its methods. -/
def route (path : String) (methods : List String) : GatewayRoute :=
  ⟨path, "users", methods, [], [], 100, none, 0, none, none⟩

/-- One path is split by method over two routes. -/
def config : GatewayConfig := ⟨["users"], [route "/users" ["POST"], route "/users" ["GET"]]⟩

/-- The same service with a route for one method and one for the rest. -/
def whole : GatewayConfig := ⟨["users"], [route "/" [], route "/users/" ["get"]]⟩

def request : IncomingRequest := ⟨"GET", "/users/7", ⟨[]⟩⟩

end MethodSplit

/-- The second route has the request, method included, and the answer is 405. -/
theorem method_split_refused :
    (MethodSplit.route "/users" ["GET"]).matches MethodSplit.request = true ∧
      accepts ["GET"] MethodSplit.request.method = true ∧
      (buildRoutes MethodSplit.config).map (fun routes =>
          handleInner MethodSplit.config routes MethodSplit.request) =
        .ok (.methodNotAllowed (compileRoute (MethodSplit.route "/users" ["POST"]))) := by
  decide +kernel

theorem routed_iff_whole :
    ∃ routes, buildRoutes MethodSplit.whole = .ok routes ∧
      Routed MethodSplit.whole MethodSplit.request
        (handleInner MethodSplit.whole routes MethodSplit.request) := by
  have succeeds : (buildRoutes MethodSplit.whole).isOk = true := by decide +kernel
  cases built : buildRoutes MethodSplit.whole with
  | error =>
    rw [built] at succeeds
    cases succeeds
  | ok routes =>
    refine ⟨routes, rfl, (routed_iff built MethodSplit.request).mpr ?_⟩
    intro _ front route back parts _ refuses
    have all : MethodSplit.whole.routes.all (fun route => accepts route.methods "GET") = true := by
      decide +kernel
    have member : route ∈ MethodSplit.whole.routes := parts ▸ mem_append_right _ mem_cons_self
    exact absurd (all_eq_true.mp all route member) refuses

end Roze.Gateway.Routing
