import Apicast.Foundation.LuaValue
import Apicast.Foundation.SharedDict
import Mathlib.Data.List.Induction

/-!
# Standalone routing

`policy/standalone`: a configuration is a forest of routes. A request goes down the forest: it takes
the first route that matches and then searches the routes below it, where it stays at the route
itself when none of them matches. The destination of the route names one of the services or
upstreams, of which the last one with a name counts.
-/

namespace Apicast.Standalone

open Foundation

/-- The variables of a request that conditions are about. -/
structure Request where
  serverName : String
  serverPort : String
  uri : String
  method : String
  host : String

section Conditions

variable {Number : Type*}

/-- A value of the configuration equals a variable, which is a string. -/
def isText (value : Json Number) (text : String) : Bool :=
  match value with
  | .string other => decide (other = text)
  | _ => false

structure Condition (Number : Type*) where
  name : String
  value : Json Number

/-- The operation of a name, which is `unknown` for other names. -/
def Condition.isMatch (condition : Condition Number) (request : Request) : Bool :=
  match condition.name with
  | "server_port" =>
      isText condition.value request.serverName || isText condition.value request.serverPort
  | "uri_path" => isText condition.value request.uri
  | "http_method" => isText condition.value request.method
  | "http_host" => isText condition.value request.host
  | "always" => (LuaValue.json condition.value).truthy
  | _ => false

structure Destination where
  service : Option String
  upstream : Option String

/-- A route as `Route.new` builds it; its conditions come in any order. -/
inductive Route (Number : Type*)
  | mk (conditions : List (Condition Number)) (destination : Destination)
      (routes : List (Route Number))

namespace Route

def conditions : Route Number → List (Condition Number)
  | mk conditions _ _ => conditions

def destination : Route Number → Destination
  | mk _ destination _ => destination

def routes : Route Number → List (Route Number)
  | mk _ _ routes => routes

/-- `Match:all` -/
def isMatch (route : Route Number) (request : Request) : Bool :=
  route.conditions.all (·.isMatch request)

end Route

mutual

def matchRoute (request : Request) : Route Number → Option (Route Number)
  | .mk conditions destination routes =>
      let route := Route.mk conditions destination routes
      if route.isMatch request then some ((findRoute request routes).getD route) else none

def findRoute (request : Request) : List (Route Number) → Option (Route Number)
  | [] => none
  | route :: routes =>
      match matchRoute request route with
      | some found => some found
      | none => findRoute request routes

end

end Conditions

section Objects

variable {Object : Type*}

/-- What `build_objects` builds, as far as it is looked up by name. -/
def buildObjects (name : Object → Option String) (list : List Object) : SharedDict String Object :=
  list.foldl
    (fun objects object =>
      match name object with
      | some name => objects.set name object
      | none => objects)
    ∅

/-- A configuration that was loaded. Services and upstreams both have a policy chain. -/
structure Configuration (Number Object : Type*) where
  routes : List (Route Number)
  internal : List Object
  external : List Object

variable {Number : Type*} (name : Object → Option String) (defaultNotFound : Object)
  (configuration : Configuration Number Object)

/-- `self.services`, which falls back on the default services. -/
def service (key : String) : Option Object :=
  ((buildObjects name configuration.internal).get key).or
    (if key = "not_found" then some defaultNotFound else none)

/-- `find_service` -/
def findService (destination : Destination) : Option Object :=
  match destination.service with
  | some key => service name defaultNotFound configuration key
  | none =>
      match destination.upstream with
      | some key => (buildObjects name configuration.external).get key
      | none => none

/-- `not_found`; the default services have it. -/
def notFound : Object :=
  (service name defaultNotFound configuration "not_found").getD defaultNotFound

def dispatch : Option (Route Number) → Object
  | none => notFound name defaultNotFound configuration
  | some route =>
      (findService name defaultNotFound configuration route.destination).getD
        (notFound name defaultNotFound configuration)

/-- The object whose policy chain the rewrite phase stores in the context. -/
def rewrite (request : Request) : Object :=
  dispatch name defaultNotFound configuration (findRoute request configuration.routes)

end Objects

section Routing

variable {Number : Type*} {request : Request} {route target : Route Number}
  {routes before after : List (Route Number)}

/-- A way down the forest: no earlier route beside one on the way matches, and no route below the
last one. -/
inductive Selects (request : Request) : List (Route Number) → Route Number → Prop
  | ends {before after : List (Route Number)} {route : Route Number} :
      (∀ earlier ∈ before, earlier.isMatch request = false) → route.isMatch request = true →
      (∀ below ∈ route.routes, below.isMatch request = false) →
      Selects request (before ++ route :: after) route
  | descends {before after : List (Route Number)} {route target : Route Number} :
      (∀ earlier ∈ before, earlier.isMatch request = false) → route.isMatch request = true →
      Selects request route.routes target → Selects request (before ++ route :: after) target

theorem matchRoute_eq : matchRoute request route =
    if route.isMatch request then some ((findRoute request route.routes).getD route) else none := by
  cases route
  unfold matchRoute
  rfl

theorem findRoute_cons_of_match (matched : route.isMatch request = true) :
    findRoute request (route :: routes) = some ((findRoute request route.routes).getD route) := by
  rw [findRoute, matchRoute_eq, if_pos matched]

theorem findRoute_cons_of_mismatch (mismatched : route.isMatch request = false) :
    findRoute request (route :: routes) = findRoute request routes := by
  rw [findRoute, matchRoute_eq, mismatched]
  rfl

/-- The search ends at the first route that matches. -/
theorem findRoute_of_first (skipped : ∀ earlier ∈ before, earlier.isMatch request = false)
    (matched : route.isMatch request = true) :
    findRoute request (before ++ route :: after) =
      some ((findRoute request route.routes).getD route) := by
  induction before with
  | nil => exact findRoute_cons_of_match matched
  | cons first before ih =>
      rw [List.cons_append, findRoute_cons_of_mismatch (skipped first List.mem_cons_self)]
      exact ih fun earlier member => skipped earlier (List.mem_cons_of_mem _ member)

theorem findRoute_eq_none (skipped : ∀ route ∈ routes, route.isMatch request = false) :
    findRoute request routes = none := by
  induction routes with
  | nil => rw [findRoute]
  | cons first routes ih =>
      rw [findRoute_cons_of_mismatch (skipped first List.mem_cons_self)]
      exact ih fun route member => skipped route (List.mem_cons_of_mem _ member)

/-- What is at the end of a way down is found. -/
theorem Selects.findRoute_eq (selects : Selects request routes target) :
    findRoute request routes = some target := by
  induction selects with
  | ends skipped matched below =>
      rw [findRoute_of_first skipped matched, findRoute_eq_none below, Option.getD_none]
  | descends skipped matched _ ih => rw [findRoute_of_first skipped matched, ih, Option.getD_some]

/-- A route that does not match is passed by. -/
theorem Selects.cons (selects : Selects request routes target)
    (mismatched : route.isMatch request = false) : Selects request (route :: routes) target := by
  have extended {before : List (Route Number)}
      (skipped : ∀ earlier ∈ before, earlier.isMatch request = false) :
      ∀ earlier ∈ route :: before, earlier.isMatch request = false :=
    List.forall_mem_cons.mpr ⟨mismatched, skipped⟩
  cases selects with
  | ends skipped matched below =>
      rw [← List.cons_append]
      exact .ends (extended skipped) matched below
  | descends skipped matched below =>
      rw [← List.cons_append]
      exact .descends (extended skipped) matched below

/-- There is a way down, unless no route at the top matches. -/
theorem exists_selects (request : Request) : (routes : List (Route Number)) →
    (∃ target, Selects request routes target) ∨ ∀ route ∈ routes, route.isMatch request = false
  | [] => .inr nofun
  | .mk conditions destination below :: rest => by
      cases matched : (Route.mk conditions destination below).isMatch request with
      | true =>
          have first : ∀ earlier ∈ ([] : List (Route Number)), earlier.isMatch request = false :=
            nofun
          rcases exists_selects request below with ⟨target, selects⟩ | mismatched
          · exact .inl ⟨target, .descends first matched selects⟩
          · exact .inl ⟨_, .ends first matched mismatched⟩
      | false =>
          rcases exists_selects request rest with ⟨target, selects⟩ | mismatched
          · exact .inl ⟨target, selects.cons matched⟩
          · exact .inr (List.forall_mem_cons.mpr ⟨matched, mismatched⟩)

end Routing

section Dispatch

variable {Number Object : Type*} (name : Object → Option String) (defaultNotFound : Object)
  (configuration : Configuration Number Object)

/-- The last object with a name. -/
def lastNamed (list : List Object) (key : String) : Option Object :=
  list.reverse.find? fun object => decide (name object = some key)

/-- The object that a destination leads to. -/
inductive Destined (destination : Destination) : Object → Prop
  | service {key : String} {object : Object} : destination.service = some key →
      lastNamed name configuration.internal key = some object → Destined destination object
  /-- A name that is only known to the default services. -/
  | default : destination.service = some "not_found" →
      lastNamed name configuration.internal "not_found" = none →
      Destined destination defaultNotFound
  | upstream {key : String} {object : Object} : destination.service = none →
      destination.upstream = some key →
      lastNamed name configuration.external key = some object → Destined destination object

variable {name defaultNotFound configuration}

theorem get_buildObjects (list : List Object) (key : String) :
    (buildObjects name list).get key = lastNamed name list key := by
  induction list using List.reverseRecOn with
  | nil => rfl
  | append_singleton list object ih =>
      unfold buildObjects lastNamed
      rw [List.foldl_concat, List.reverse_append, List.reverse_singleton, List.singleton_append,
        List.find?_cons]
      change SharedDict.get (match name object with
        | some own => (buildObjects name list).set own object
        | none => buildObjects name list) key = _
      cases named : name object with
      | none =>
          rw [decide_eq_false nofun]
          exact ih
      | some own =>
          dsimp only
          rw [SharedDict.get_set]
          by_cases same : key = own
          · rw [if_pos same, decide_eq_true (congrArg some same.symm)]
          · have other : some own ≠ some key := fun equal => same (Option.some.inj equal).symm
            rw [if_neg same, decide_eq_false other]
            exact ih

theorem service_eq (key : String) : service name defaultNotFound configuration key =
    (lastNamed name configuration.internal key).or
      (if key = "not_found" then some defaultNotFound else none) := by
  unfold service
  rw [get_buildObjects]

theorem findService_iff {destination : Destination} {object : Object} :
    findService name defaultNotFound configuration destination = some object ↔
      Destined name defaultNotFound configuration destination object := by
  constructor
  · intro found
    unfold findService at found
    cases named : destination.service with
    | some key =>
        rw [named] at found
        dsimp only at found
        rw [service_eq] at found
        rcases Option.or_eq_some_iff.mp found with known | ⟨unknown, fallback⟩
        · exact .service named known
        · obtain ⟨rfl, default⟩ := Option.ite_none_right_eq_some.mp fallback
          cases default
          exact .default named unknown
    | none =>
        rw [named] at found
        cases upstream : destination.upstream with
        | some key =>
            rw [upstream] at found
            exact .upstream named upstream ((get_buildObjects _ _).symm.trans found)
        | none =>
            rw [upstream] at found
            cases found
  · intro destined
    unfold findService
    cases destined with
    | service named known =>
        rw [named]
        dsimp only
        rw [service_eq, known, Option.some_or]
    | default named unknown =>
        rw [named]
        dsimp only
        rw [service_eq, unknown, Option.none_or, if_pos rfl]
    | upstream named upstream known =>
        rw [named, upstream]
        exact (get_buildObjects _ _).trans known

/-- What is served when nothing else is found. -/
theorem notFound_eq : notFound name defaultNotFound configuration =
    (lastNamed name configuration.internal "not_found").getD defaultNotFound := by
  unfold notFound
  rw [service_eq, if_pos rfl]
  cases lastNamed name configuration.internal "not_found" <;> rfl

/-- **What serves a request.** In every configuration a request goes down the forest of routes along
one way: to the last object with the name of the destination at its end, and when there is no such
way or no such object to the last service named not_found, for which there is a default. -/
theorem rewrite_follows_routes (name : Object → Option String) (defaultNotFound : Object)
    (configuration : Configuration Number Object) (request : Request) :
    let served := rewrite name defaultNotFound configuration request
    let fallback := (lastNamed name configuration.internal "not_found").getD defaultNotFound
    (∃ route, Selects request configuration.routes route ∧
      (∀ other, Selects request configuration.routes other → other = route) ∧
      (Destined name defaultNotFound configuration route.destination served ∨
        (∀ object, ¬ Destined name defaultNotFound configuration route.destination object) ∧
          served = fallback)) ∨
      ((∀ route ∈ configuration.routes, route.isMatch request = false) ∧ served = fallback) := by
  intro served fallback
  have serves : served = dispatch name defaultNotFound configuration
    (findRoute request configuration.routes) := rfl
  rcases exists_selects request configuration.routes with ⟨route, selects⟩ | mismatched
  · left
    refine ⟨route, selects, ?_, ?_⟩
    · intro other alternative
      exact Option.some.inj (alternative.findRoute_eq.symm.trans selects.findRoute_eq)
    · rw [selects.findRoute_eq] at serves
      dsimp only [dispatch] at serves
      cases found : findService name defaultNotFound configuration route.destination with
      | some object =>
          rw [found, Option.getD_some] at serves
          exact .inl (serves ▸ findService_iff.mp found)
      | none =>
          rw [found, Option.getD_none, notFound_eq] at serves
          refine .inr ⟨?_, serves⟩
          intro object destined
          rw [findService_iff.mpr destined] at found
          cases found
  · right
    rw [findRoute_eq_none mismatched] at serves
    exact ⟨mismatched, serves.trans notFound_eq⟩

/-- A request stays at a route when no route below it matches. -/
example :
    let below : Route Nat := .mk [⟨"uri_path", .string "/metrics"⟩] ⟨some "metrics", none⟩ []
    let above : Route Nat := .mk [⟨"server_port", .string "9421"⟩] ⟨some "closed", none⟩ [below]
    rewrite some "default" ⟨[above], ["metrics", "closed"], []⟩
      ⟨"localhost", "9421", "/", "GET", "localhost"⟩ = "closed" := by decide

end Dispatch

end Apicast.Standalone
