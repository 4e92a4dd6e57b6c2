import Mathlib
import Roze.Library.Execution
import Roze.Library.KeyedMap
import Roze.Http.RouteGroup

/-!
# Routers

A path router holds one route group for each registered path: the matcher finds the index
of a group from the path of a request, and the exact index finds it from the registered
path. Routers are built by calls that add routes, merge and nest other routers, and put
layers around what is there already.

Which paths the matcher accepts, and which of them a request path matches, is a parameter.
-/

namespace Roze.Http

open Roze.Library List

/-! ## Paths -/

/-- The first character of a text. -/
def startsWith (ch : Char) (text : String) : Bool := text.toList.head? == some ch

/-- The check of one segment. -/
def validateSegment (segment : String) : Except String Unit :=
  if startsWith ':' segment then
    .error "route path segments must not start with `:`; use `\x7bparam\x7d` captures"
  else if startsWith '*' segment then
    .error "route path segments must not start with `*`; use `\x7b*wildcard\x7d` captures"
  else .ok ()

/-- A path that begins with a slash and has valid segments. -/
def normalizePath (path : String) : Except String String :=
  if path.isEmpty then .error "route path must not be empty"
  else if !startsWith '/' path then .error "route path must start with `/`"
  else ((splitParts '/' path).forM validateSegment).map fun _ => path

/-- A segment that captures the rest of a path. -/
def isWildcard (segment : String) : Bool :=
  "\x7b*".toList.isPrefixOf segment.toList && segment.toList.getLast? == "\x7d".toList.head?

/-- A path to nest under, without slashes at its end; not the root. -/
def normalizeNestPrefix (mount rootHint : String) : Except String String := do
  let mount ← normalizePath mount
  let mount := String.ofList (mount.toList.rdropWhile (· == '/'))
  if mount.isEmpty || mount == "/" then .error ("nest prefix must not be root; " ++ rootHint)
  else if (splitParts '/' mount).any isWildcard then
    .error "nest prefix must not contain wildcard captures"
  else return mount

/-- The path of a nested route. -/
def joinPaths (mount path : String) : Except String String :=
  if path = "/" then .ok mount else (normalizePath path).map fun path => mount ++ path

/-- An accepted path stays as it is. -/
theorem normalizePath_ok {path normal : String} (accepted : normalizePath path = .ok normal) :
    normal = path ∧ path ≠ "" := by
  rw [normalizePath] at accepted
  split at accepted
  · cases accepted
  · rename_i filled
    split at accepted
    · cases accepted
    · obtain ⟨_, _, rfl⟩ := map_ok accepted
      simp_all

/-- Different paths stay different below a mount point. -/
theorem joinPaths_injective {mount first second placed : String}
    (left : joinPaths mount first = .ok placed) (right : joinPaths mount second = .ok placed) :
    first = second := by
  have shape {path : String} (joined : joinPaths mount path = .ok placed) :
      (path = "/" ∧ placed = mount) ∨ (path ≠ "" ∧ placed = mount ++ path) := by
    rw [joinPaths] at joined
    split at joined
    · simp_all
    · obtain ⟨_, accepted, rfl⟩ := map_ok joined
      obtain ⟨rfl, filled⟩ := normalizePath_ok accepted
      exact .inr ⟨filled, rfl⟩
  have apart {path : String} (filled : path ≠ "") : mount ≠ mount ++ path := by
    intro same
    have lengths := congrArg String.length same
    rw [String.length_append] at lengths
    exact filled (String.length_eq_zero_iff.mp (by omega))
  rcases shape left with ⟨rfl, root⟩ | ⟨filled, below⟩ <;>
    rcases shape right with ⟨rfl, root'⟩ | ⟨filled', below'⟩
  · rfl
  · simp_all
  · simp_all
  · simp_all

/-! ## Path routers -/

/-- The matcher of paths, over the paths inserted so far with the indices of their groups:
whether another path can be inserted, and the index that a request path matches, which is
one that was inserted. -/
structure PathMatcher where
  accepts : List (String × Nat) → String → Bool
  find : List (String × Nat) → String → Option Nat
  found : ∀ {entries uri index}, find entries uri = some index → ∃ path, (path, index) ∈ entries

/-- The groups, and the two indices to them: every path of the matcher is in the exact index,
whose entries belong to different groups. -/
structure PathRouter (Handler Layer : Type) where
  routes : List (String × Nat)
  routeGroups : List (RouteGroup Handler Layer)
  pathIndex : KeyedMap (Prod.fst : String × Nat → String)
  indexed : ∀ entry ∈ routes, entry ∈ pathIndex.values
  inRange : ∀ entry ∈ pathIndex.values, entry.2 < routeGroups.length
  distinct : ∀ entry ∈ pathIndex.values, ∀ other ∈ pathIndex.values, entry.2 = other.2 → entry = other

variable {Handler Layer : Type}

namespace PathRouter

/-- No paths. -/
def empty : PathRouter Handler Layer where
  routes := []
  routeGroups := []
  pathIndex := .empty _
  indexed := by simp
  inRange := by simp [KeyedMap.empty]
  distinct := by simp [KeyedMap.empty]

variable (router : PathRouter Handler Layer)

/-- The group of a registered path. -/
def groupAt (path : String) : Option (RouteGroup Handler Layer) :=
  (router.pathIndex.find? path).bind fun entry => router.routeGroups[entry.2]?

/-- The registered paths and their groups, in the order of the paths. -/
def entries : List (String × RouteGroup Handler Layer) :=
  router.pathIndex.values.attach.map fun entry =>
    (entry.1.1, router.routeGroups.get ⟨entry.1.2, router.inRange entry.1 entry.2⟩)

/-- Replace a group. -/
def setGroup (index : Nat) (group : RouteGroup Handler Layer) : PathRouter Handler Layer :=
  { router with
    routeGroups := router.routeGroups.set index group
    inRange := by simpa using router.inRange }

/-- Change every group. -/
def mapGroups (change : RouteGroup Handler Layer → RouteGroup Handler Layer) :
    PathRouter Handler Layer :=
  { router with
    routeGroups := router.routeGroups.map change
    inRange := by simpa using router.inRange }

/-- A group for a path that is not registered. -/
def addGroup (path : String) (fallback : Option (Service Handler Layer))
    (absent : router.pathIndex.find? path = none) : PathRouter Handler Layer :=
  have fresh : ∀ entry ∈ router.pathIndex.values, entry.1 ≠ path := by
    rintro entry member rfl
    rw [KeyedMap.find?_eq_some_iff.mpr ⟨member, rfl⟩] at absent
    cases absent
  have members (entry : String × Nat) :
      entry ∈ (router.pathIndex.insert (path, router.routeGroups.length)).values →
        entry = (path, router.routeGroups.length) ∨ entry ∈ router.pathIndex.values :=
    fun member => ((KeyedMap.mem_insertSorted_iff router.pathIndex.ascending).mp member).imp_right And.left
  { routes := router.routes ++ [(path, router.routeGroups.length)]
    routeGroups := router.routeGroups ++ [.fresh path fallback]
    pathIndex := router.pathIndex.insert (path, router.routeGroups.length)
    indexed := by
      intro entry member
      apply (KeyedMap.mem_insertSorted_iff router.pathIndex.ascending).mpr
      rcases List.mem_append.mp member with old | new
      · have kept := router.indexed entry old
        exact .inr ⟨kept, fresh entry kept⟩
      · simp_all
    inRange := by
      intro entry member
      rw [List.length_append, List.length_singleton]
      rcases members entry member with rfl | old
      · exact Nat.lt_succ_self _
      · exact Nat.lt_succ_of_lt (router.inRange entry old)
    distinct := by
      intro entry member other member' same
      rcases members entry member with rfl | old <;> rcases members other member' with rfl | old'
      · rfl
      · exact absurd same (Nat.ne_of_gt (router.inRange other old'))
      · exact absurd same (Nat.ne_of_lt (router.inRange entry old))
      · exact router.distinct entry old other old' same }

variable (matcher : PathMatcher)

/-- The index of the group of a path, with a new group where there is none. -/
def ensureRouteGroup (path : String) (fallback : Option (Service Handler Layer)) :
    Except String (PathRouter Handler Layer × Nat) :=
  match found : router.pathIndex.find? path with
  | some entry => .ok (router, entry.2)
  | none =>
    if matcher.accepts router.routes path then
      .ok (router.addGroup path fallback found, router.routeGroups.length)
    else .error "invalid route path"

/-- Add routes and a 405 service at a path. An index out of bounds would panic. -/
def insertRoutes (messages : ConflictMessages) (path : String)
    (routes : List (Route Handler Layer)) (fallback defaultFallback : Option (Service Handler Layer)) :
    Except String (PathRouter Handler Layer) := do
  let (router, index) ← router.ensureRouteGroup matcher path defaultFallback
  match router.routeGroups[index]? with
  | none => .error "index out of bounds"
  | some group =>
    let group ← group.extend messages routes fallback
    return router.setGroup index group

/-- Add the routes of a group of another router. -/
def insertGroupRoutes (path : String) (group : RouteGroup Handler Layer)
    (defaultFallback : Option (Service Handler Layer)) (action : String) :
    Except String (PathRouter Handler Layer) :=
  router.insertRoutes matcher
    ⟨fun label => "overlapping " ++ action ++ " route for " ++ label,
      fun _ => "overlapping " ++ action ++ " method-not-allowed fallback"⟩
    path group.routes group.methodNotAllowedFallback defaultFallback

/-- The loop over the groups of another router: each goes to a place that its path gives,
after a change. -/
def insertLoop (place : String → Except String String)
    (change : RouteGroup Handler Layer → RouteGroup Handler Layer)
    (defaultFallback : Option (Service Handler Layer)) (action : String)
    (router : PathRouter Handler Layer) :
    List (String × RouteGroup Handler Layer) → Except String (PathRouter Handler Layer)
  | [] => .ok router
  | (path, group) :: rest => do
    let placed ← place path
    let router ← router.insertGroupRoutes matcher placed (change group) defaultFallback action
    insertLoop place change defaultFallback action router rest

/-- The groups of another router, at their own paths. -/
def merge (other : PathRouter Handler Layer) (defaultFallback : Option (Service Handler Layer)) :
    Except String (PathRouter Handler Layer) :=
  router.insertLoop matcher .ok id defaultFallback "merged" other.entries

/-- The groups of another router, below a path. -/
def nest (mount : String) (other : PathRouter Handler Layer)
    (defaultFallback : Option (Service Handler Layer)) : Except String (PathRouter Handler Layer) :=
  router.insertLoop matcher (joinPaths mount) (·.nested mount) defaultFallback "nested" other.entries

/-- Some path is registered. -/
def hasRoutes : Bool := !router.routeGroups.isEmpty

/-- One fallback for all groups. -/
def setMethodNotAllowedFallback (fallback : Service Handler Layer) : PathRouter Handler Layer :=
  router.mapGroups fun group => { group with methodNotAllowedFallback := some fallback }

/-- A layer around all groups. -/
def layerRoutes (layer : Layer) (includeMethodFallbacks : Bool) : PathRouter Handler Layer :=
  router.mapGroups (·.layerRoutes layer includeMethodFallbacks)

/-- The group that a request path matches. -/
def matched (uri : String) : Option (RouteGroup Handler Layer) :=
  match found : matcher.find router.routes uri with
  | none => none
  | some index => some (router.routeGroups.get ⟨index, by
      obtain ⟨_, member⟩ := matcher.found found
      exact router.inRange _ (router.indexed _ member)⟩)

/-- The service of a request, if a path matches. -/
def matchService (method : Method) (uri : String) : Option (Service Handler Layer) :=
  (router.matched matcher uri).map fun group => group.select method

/-! ### Groups by their paths -/

variable {matcher} {router}

/-- A change of all groups changes each. -/
@[simp] theorem groupAt_mapGroups (change : RouteGroup Handler Layer → RouteGroup Handler Layer)
    (path : String) : (router.mapGroups change).groupAt path = (router.groupAt path).map change := by
  simp only [groupAt, mapGroups]
  simp

variable {path : String}

/-- One group is replaced. -/
theorem groupAt_setGroup {entry : String × Nat} (found : router.pathIndex.find? path = some entry)
    (group : RouteGroup Handler Layer) (other : String) :
    (router.setGroup entry.2 group).groupAt other =
      if other = path then some group else router.groupAt other := by
  obtain ⟨member, rfl⟩ := KeyedMap.find?_eq_some_iff.mp found
  simp only [groupAt, setGroup]
  split
  · rename_i same
    rw [same, found]
    simp [router.inRange entry member]
  · rename_i different
    cases found' : router.pathIndex.find? other with
    | none => rfl
    | some entry' =>
      obtain ⟨member', rfl⟩ := KeyedMap.find?_eq_some_iff.mp found'
      have apart : entry.2 ≠ entry'.2 := fun same =>
        different (congrArg Prod.fst (router.distinct _ member' _ member same.symm))
      simp [getElem?_set_ne apart]

/-- One group is new. -/
theorem groupAt_addGroup (fallback : Option (Service Handler Layer))
    (absent : router.pathIndex.find? path = none) (other : String) :
    (router.addGroup path fallback absent).groupAt other =
      if other = path then some (.fresh path fallback) else router.groupAt other := by
  simp only [groupAt, addGroup, KeyedMap.find?_insert]
  by_cases same : path = other
  · simp [same]
  · simp only [if_neg same, if_neg (Ne.symm same)]
    cases found : router.pathIndex.find? other with
    | none => rfl
    | some entry =>
      obtain ⟨member, -⟩ := KeyedMap.find?_eq_some_iff.mp found
      simp [getElem?_append_left (router.inRange entry member)]

/-- The index leads to the group. -/
theorem groupAt_of_find {entry : String × Nat} (found : router.pathIndex.find? path = some entry) :
    router.groupAt path = router.routeGroups[entry.2]? := by
  rw [groupAt, found, Option.bind_some]

/-- After an insertion the path has the extended group, and other paths have what they
had. -/
theorem insertRoutes_groupAt {messages : ConflictMessages} {routes : List (Route Handler Layer)}
    {fallback defaultFallback : Option (Service Handler Layer)} {next : PathRouter Handler Layer}
    (inserted : router.insertRoutes matcher messages path routes fallback defaultFallback = .ok next) :
    ∃ joined, ((router.groupAt path).getD (.fresh path defaultFallback)).extend messages routes
        fallback = .ok joined ∧
      ∀ other, next.groupAt other = if other = path then some joined else router.groupAt other := by
  obtain ⟨⟨ensured, index⟩, ensuring, inserted⟩ := bind_ok inserted
  -- the path is registered in the ensured router, with the group that was there or a new one
  have registered : ∃ entry, ensured.pathIndex.find? path = some entry ∧ index = entry.2 ∧
      ensured.groupAt path = some ((router.groupAt path).getD (.fresh path defaultFallback)) ∧
      ∀ other, other ≠ path → ensured.groupAt other = router.groupAt other := by
    rw [ensureRouteGroup] at ensuring
    split at ensuring
    · rename_i entry found
      cases ensuring
      have member := (KeyedMap.find?_eq_some_iff.mp found).1
      refine ⟨entry, found, rfl, ?_, fun _ _ => rfl⟩
      rw [groupAt_of_find found, getElem?_eq_getElem (router.inRange entry member)]
      rfl
    · rename_i absent
      split at ensuring
      · cases ensuring
        refine ⟨(path, router.routeGroups.length), ?_, rfl, ?_, fun other different => ?_⟩
        · rw [addGroup, KeyedMap.find?_insert, if_pos rfl]
        · have none : router.groupAt path = none := by rw [groupAt, absent, Option.bind_none]
          rw [groupAt_addGroup, if_pos rfl, none, Option.getD_none]
        · rw [groupAt_addGroup, if_neg different]
      · cases ensuring
  obtain ⟨_, found, rfl, group, others⟩ := registered
  rw [groupAt_of_find found] at group
  simp only [group] at inserted
  obtain ⟨joined, extended, set⟩ := bind_ok inserted
  cases set
  refine ⟨joined, extended, fun other => ?_⟩
  rw [groupAt_setGroup found]
  simp_all

/-- The entries are the groups with their paths. -/
theorem mem_entries {group : RouteGroup Handler Layer} :
    (path, group) ∈ router.entries ↔ router.groupAt path = some group := by
  constructor
  · intro listed
    obtain ⟨⟨entry, member⟩, -, same⟩ := mem_map.mp listed
    cases same
    rw [groupAt_of_find (KeyedMap.find?_eq_some_iff.mpr ⟨member, rfl⟩)]
    exact getElem?_eq_getElem _
  · intro registered
    obtain ⟨entry, found, stored⟩ := Option.bind_eq_some_iff.mp registered
    obtain ⟨member, rfl⟩ := KeyedMap.find?_eq_some_iff.mp found
    refine mem_map.mpr ⟨⟨entry, member⟩, mem_attach _ _, ?_⟩
    grind

/-- No path is there twice. -/
theorem entries_distinct : (router.entries.map Prod.fst).Nodup := by
  have paths : router.entries.map Prod.fst = router.pathIndex.values.map Prod.fst := by
    rw [entries, map_map]
    conv => rhs; rw [← attach_map_subtype_val router.pathIndex.values, map_map]
    rfl
  rw [paths]
  exact router.pathIndex.ascending.imp fun less => ne_of_lt less

/-- A request path that matches goes to the group of a registered path. -/
theorem matched_registered {uri : String} {group : RouteGroup Handler Layer}
    (found : router.matched matcher uri = some group) : ∃ path, router.groupAt path = some group := by
  rw [matched] at found
  split at found
  · cases found
  · rename_i hit
    obtain ⟨path, member⟩ := matcher.found hit
    refine ⟨path, ?_⟩
    rw [groupAt_of_find (KeyedMap.find?_eq_some_iff.mpr ⟨router.indexed _ member, rfl⟩), ← found]
    exact getElem?_eq_getElem _

/-- The loop over groups with different paths: the place of each has the extended group, and
other paths have what they had.

Proof: a place is changed by one group only, so the group at a place is the one from before
the loop until then, and stays from then on. -/
theorem insertLoop_groupAt {place : String → Except String String}
    {change : RouteGroup Handler Layer → RouteGroup Handler Layer}
    {defaultFallback : Option (Service Handler Layer)} {action : String}
    (injective : ∀ {first second placed}, place first = .ok placed → place second = .ok placed →
      first = second)
    {groups : List (String × RouteGroup Handler Layer)} (distinct : (groups.map Prod.fst).Nodup)
    {next : PathRouter Handler Layer}
    (inserted : insertLoop matcher place change defaultFallback action router groups = .ok next) :
    (∀ path group, (path, group) ∈ groups → ∃ placed joined messages, place path = .ok placed ∧
      ((router.groupAt placed).getD (.fresh placed defaultFallback)).extend messages
        (change group).routes (change group).methodNotAllowedFallback = .ok joined ∧
      next.groupAt placed = some joined) ∧
    ∀ other, (∀ path ∈ groups.map Prod.fst, place path ≠ .ok other) →
      next.groupAt other = router.groupAt other := by
  induction groups generalizing router with
  | nil =>
    cases inserted
    simp
  | cons first rest ih =>
    obtain ⟨path, _⟩ := first
    obtain ⟨placed, placing, inserted⟩ := bind_ok inserted
    obtain ⟨_, inserting, inserted⟩ := bind_ok inserted
    obtain ⟨joined, extended, groups⟩ := insertRoutes_groupAt inserting
    obtain ⟨fresh, distinct⟩ := nodup_cons.mp distinct
    obtain ⟨later, untouched⟩ := ih distinct inserted
    have untaken : ∀ other ∈ rest.map Prod.fst, place other ≠ .ok placed := by grind
    constructor
    · intro path' group' member
      rcases mem_cons.mp member with same | member
      · cases same
        refine ⟨placed, joined, _, placing, extended, ?_⟩
        rw [untouched placed untaken, groups, if_pos rfl]
      · obtain ⟨placed', joined', messages', placing', extended', stored⟩ := later path' group' member
        have different : placed' ≠ placed := by grind
        grind
    · intro other avoided
      grind

end PathRouter

/-! ## Routers and their calls -/

/-- The endpoints of one path before they are registered. -/
structure MethodRouter (Handler Layer : Type) where
  endpoints : List (Route Handler Layer)
  methodNotAllowedFallback : Option (Service Handler Layer)

/-- The service for paths that match nothing. -/
inductive Fallback (Handler Layer : Type) where
  | default (service : Service Handler Layer)
  | custom (service : Service Handler Layer)

namespace Fallback

/-- The service of a fallback, chosen or not. -/
def service : Fallback Handler Layer → Service Handler Layer
  | .default service => service
  | .custom service => service

/-- A chosen fallback wins; two of them clash. -/
def merge : Fallback Handler Layer → Fallback Handler Layer → Option (Fallback Handler Layer)
  | .default _, pick => some pick
  | pick, .default _ => some pick
  | .custom _, .custom _ => none

/-- A layer around a fallback. -/
def layer (layer : Layer) : Fallback Handler Layer → Fallback Handler Layer
  | .default service => .default (.layered layer service)
  | .custom service => .custom (.layered layer service)

end Fallback

/-- A router with its fallbacks. -/
structure Router (Handler Layer : Type) where
  pathRouter : PathRouter Handler Layer
  fallback : Fallback Handler Layer
  methodNotAllowedFallback : Option (Service Handler Layer)

namespace Router

/-- No routes. -/
def new : Router Handler Layer := ⟨.empty, .default .notFound, none⟩

variable (matcher : PathMatcher) (router : Router Handler Layer)

/-- Register a path. -/
def route (path : String) (methodRouter : MethodRouter Handler Layer) :
    Except String (Router Handler Layer) := do
  let path ← normalizePath path
  (router.pathRouter.insertRoutes matcher
    ⟨fun label => "overlapping method route for " ++ label,
      fun path => "overlapping method-not-allowed fallback for " ++ path⟩
    path methodRouter.endpoints methodRouter.methodNotAllowedFallback
    router.methodNotAllowedFallback).map fun pathRouter => { router with pathRouter }

/-- The routes of another router below a path, not its fallback. -/
def nest (mount : String) (other : Router Handler Layer) : Except String (Router Handler Layer) := do
  let mount ← normalizeNestPrefix mount "use Router::merge instead"
  (router.pathRouter.nest matcher mount other.pathRouter router.methodNotAllowedFallback).map
    fun pathRouter => { router with pathRouter }

/-- The routes of another router and its fallback. -/
def merge (other : Router Handler Layer) : Except String (Router Handler Layer) :=
  match router.fallback.merge other.fallback with
  | none => .error "cannot merge two routers that both have a fallback"
  | some fallback =>
    (router.pathRouter.merge matcher other.pathRouter router.methodNotAllowedFallback).map
      fun pathRouter => { router with pathRouter, fallback }

/-- A layer around all routes and the fallback. -/
def layer (layer : Layer) : Router Handler Layer :=
  { router with
    pathRouter := router.pathRouter.layerRoutes layer true
    fallback := router.fallback.layer layer }

/-- A layer around the routes; there must be one. -/
def routeLayer (layer : Layer) : Except String (Router Handler Layer) :=
  if !router.pathRouter.hasRoutes then
    .error ("adding a route_layer before any routes is a no-op; " ++
      "add the routes you want the layer to apply to first")
  else .ok { router with pathRouter := router.pathRouter.layerRoutes layer false }

/-- A state is stored by a layer of its own. -/
def withState (stateLayer : Layer) : Router Handler Layer := router.layer stateLayer

/-- Choose a fallback. -/
def fallbackService (service : Service Handler Layer) : Router Handler Layer :=
  { router with fallback := .custom service }

/-- Choose none again. -/
def resetFallback : Router Handler Layer := { router with fallback := .default .notFound }

/-- One fallback for other methods, also of the routes so far. -/
def methodNotAllowedFallbackService (service : Service Handler Layer) : Router Handler Layer :=
  { router with
    methodNotAllowedFallback := some service
    pathRouter := router.pathRouter.setMethodNotAllowedFallback service }

/-- The service for a request. -/
def dispatch (method : Method) (uri : String) : Service Handler Layer :=
  (router.pathRouter.matchService matcher method uri).getD router.fallback.service

end Router

end Roze.Http
