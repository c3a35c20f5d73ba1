import Apicast.Configuration.StoredServices
import Apicast.Foundation.FirstMatch

/-!
# Finding the service of a request

`policy/find_service`: the finders look the host of a request up in the store and compare it
with the hosts of the services that are listed for it. The store lists the services under
their hosts in lower case; the finders compare the hosts as they are.
-/

namespace Apicast

open Foundation

namespace ConfigurationStore

/-- `_M.reset` -/
def reset {Value : Type*} (self : ConfigurationStore Value) : ConfigurationStore Value :=
  { self with services := self.services.flushAll, cache := self.cache.flushAll }

end ConfigurationStore

namespace FindService

open ConfigurationStore

variable {Value Rule : Type*}

/-- `mapping_rules_matcher.matches`: the first rule that matches the request. -/
def MappingRulesMatcher.matches (ruleMatches : Rule → Bool) (rules : List Rule) :
    Bool × Option Nat :=
  match rules.findIdx? ruleMatches with
  | some index => (true, some (index + 1))
  | none => (false, none)

section Finders

variable [DecidableEq (Service Value)] (rules : Service Value → List Rule)
  (ruleMatches : Rule → Bool)

/-- `host_based_finder.lua`. The objects that are compared are those that were stored. -/
def hostBasedFinder (configStore : ConfigurationStore Value) (now : Int) (host : String) :
    Option (Service Value) :=
  (configStore.findByHost now host true).find? fun service =>
    service.hosts.any fun listed =>
      decide (listed = host) && decide (configStore.findById now service.id = some service)

omit [DecidableEq (Service Value)] in
/-- `path_based_finder.lua`; the rules are matched against the request. -/
def pathBasedFinder (configStore : ConfigurationStore Value) (now : Int) (host : String) :
    Option (Service Value) :=
  (configStore.findByHost now host true).find? fun service =>
    service.hosts.any fun listed =>
      decide (listed = host) && (MappingRulesMatcher.matches ruleMatches (rules service)).1

/-- `path_based_with_fallback_to_host` -/
def pathBasedWithFallbackToHost (configuration : ConfigurationStore Value) (now : Int)
    (host : String) : Option (Service Value) :=
  (pathBasedFinder rules ruleMatches configuration now host).or
    (hostBasedFinder configuration now host)

/-- `find_service_func` -/
def findServiceFunc (pathRoutingEnabled pathRoutingOnly : Bool) :
    ConfigurationStore Value → Int → String → Option (Service Value) :=
  if pathRoutingOnly then pathBasedFinder rules ruleMatches
  else if pathRoutingEnabled then pathBasedWithFallbackToHost rules ruleMatches
  else hostBasedFinder

end Finders

section Index

variable {pathRouting : Bool} {now : Int} {key : String}

/-- The services that the store lists for a host. -/
def listing (byHost : SharedDict String (List (Service Value))) (key : String) :
    List (Service Value) :=
  (byHost.get key).getD []

/-- Without path routing only the first service keeps a host. -/
def keptServices (pathRouting : Bool) (services : List (Service Value)) : List (Service Value) :=
  if pathRouting then services else services.take 1

/-- A service once for every host of it that is the key in lower case. -/
def copies (key : String) (service : Service Value) : List (Service Value) :=
  List.replicate (service.hosts.countP fun host => decide (lower host = key)) service

theorem keptServices_append (services : List (Service Value)) (service : Service Value) :
    keptServices pathRouting (services ++ [service]) =
      match keptServices pathRouting services with
      | [] => [service]
      | first :: rest => if pathRouting then first :: rest ++ [service] else first :: rest := by
  cases pathRouting with
  | true => cases services <;> rfl
  | false => cases services <;> rfl

/-- Adding a host lists the service for it. -/
theorem listing_addHost {byHost : SharedDict String (List (Service Value))}
    {services : List (Service Value)}
    (listed : listing byHost key = keptServices pathRouting services)
    (service : Service Value) (host : String) :
    listing (addHost pathRouting service byHost host) key =
      keptServices pathRouting
        (services ++ if lower host = key then [service] else []) := by
  by_cases same : lower host = key
  · subst same
    rw [if_pos rfl, keptServices_append, ← listed]
    unfold addHost listing
    cases found : (byHost.get (lower host)).getD [] with
    | nil => rw [SharedDict.get_set_self, Option.getD_some]
    | cons first rest =>
        dsimp only
        cases pathRouting with
        | true => rw [if_pos rfl, if_pos rfl, SharedDict.get_set_self, Option.getD_some]
        | false => exact found
  · rw [if_neg same, List.append_nil, ← listed]
    unfold addHost listing
    cases (byHost.get (lower host)).getD [] with
    | nil => rw [SharedDict.get_set_of_ne _ _ (Ne.symm same)]
    | cons first rest =>
        dsimp only
        split
        · rw [SharedDict.get_set_of_ne _ _ (Ne.symm same)]
        · rfl

/-- The hosts of a service list it once for every host that is the key. -/
theorem listing_foldl_addHost (service : Service Value) (hosts : List String)
    {byHost : SharedDict String (List (Service Value))} {services : List (Service Value)}
    (listed : listing byHost key = keptServices pathRouting services) :
    listing (hosts.foldl (addHost pathRouting service) byHost) key =
      keptServices pathRouting (services ++
        List.replicate (hosts.countP fun host => decide (lower host = key)) service) := by
  induction hosts generalizing byHost services with
  | nil =>
      rw [List.countP_nil, List.replicate_zero, List.append_nil]
      exact listed
  | cons host hosts ih =>
      rw [List.foldl_cons, ih (listing_addHost listed service host), List.append_assoc,
        List.countP_cons]
      congr 2
      by_cases same : lower host = key
      · simp only [same, ↓reduceIte, decide_true, List.replicate_succ, List.singleton_append]
      · simp only [same, ↓reduceIte, decide_false, Bool.false_eq_true, List.nil_append,
          Nat.add_zero]

/-- The loop lists the services with a new identifier, in the order of the configuration. -/
theorem listing_foldl_storeService (services : List (Service Value)) {stored : Stored Value}
    {before : List (Service Value)}
    (listed : listing stored.byHost key = keptServices pathRouting before) :
    listing (services.foldl (storeService pathRouting now) stored).byHost key =
      keptServices pathRouting (before ++
        (FirstMatch.firstOccurrences (·.id) stored.ids services).flatMap (copies key)) := by
  induction services generalizing stored before with
  | nil =>
      change listing stored.byHost key = keptServices pathRouting (before ++ [])
      rw [List.append_nil]
      exact listed
  | cons service rest ih =>
      rw [List.foldl_cons]
      by_cases seen : service.id ∈ stored.ids
      · rw [FirstMatch.firstOccurrences_of_seen seen, storeService_seen seen]
        exact ih listed
      · rw [FirstMatch.firstOccurrences_of_new seen, List.flatMap_cons, ← List.append_assoc,
          storeService_new seen]
        exact ih (listing_foldl_addHost service service.hosts listed)

end Index

section Routing

variable {self : ConfigurationStore Value} {now moment : Int} {config : Configuration Value}
  {ttl : Option Int} {host : String}

/-- The services of a configuration, each identifier once. -/
def distinctServices (config : Configuration Value) : List (Service Value) :=
  FirstMatch.firstOccurrences (·.id) [] (mergeOidc config)

/-- The services that are found for a host after a reset. -/
theorem findByHost_reset_store :
    (self.reset.store now config ttl).findByHost moment host true =
      keptServices self.pathRouting ((distinctServices config).flatMap (copies host)) := by
  let initial : Stored Value := ⟨∅, [], self.services.flushAll⟩
  have start : listing initial.byHost host = keptServices self.pathRouting [] := by
    cases self.pathRouting <;> rfl
  rw [findByHost_store moment host rfl]
  exact listing_foldl_storeService (mergeOidc config) start

/-- The service lists a host that is this one but for the letter case. -/
def listsHost (host : String) (service : Service Value) : Bool :=
  service.hosts.any fun listed => decide (lower listed = lower host)

/-- The first service of the configuration for a host. -/
def hostRouted (config : Configuration Value) (host : String) : Option (Service Value) :=
  (distinctServices config).find? (listsHost host)

/-- What a search among the services for a host finds. -/
theorem find?_findByHost (lowered : lower host = host) (accepts : Service Value → Bool) :
    ((self.reset.store now config ttl).findByHost moment host true).find? accepts =
      if self.pathRouting then
        (distinctServices config).find? fun service => listsHost host service && accepts service
      else (hostRouted config host).filter accepts := by
  have counted (service : Service Value) : decide (0 < service.hosts.countP fun listed =>
      decide (lower listed = host)) = listsHost host service := by
    unfold listsHost
    rw [lowered, Bool.eq_iff_iff, decide_eq_true_iff, List.countP_pos_iff, List.any_eq_true]
  have all (condition : Service Value → Bool) :
      ((distinctServices config).flatMap (copies host)).find? condition =
        (distinctServices config).find? fun service =>
          listsHost host service && condition service := by
    refine (FirstMatch.find?_flatMap_replicate _ condition).trans ?_
    simp only [counted]
  rw [findByHost_reset_store]
  unfold keptServices
  cases self.pathRouting with
  | true => exact all accepts
  | false =>
      have first : ((distinctServices config).flatMap (copies host)).head? =
          hostRouted config host := by
        have found := all fun _ => true
        simp only [Bool.and_true, ← List.head?_filter, List.filter_true] at found
        rw [found, List.head?_filter]
        rfl
      simp only [Bool.false_eq_true, ↓reduceIte]
      rw [FirstMatch.find?_take_one, first]

section Finders

variable [DecidableEq (Service Value)] {rules : Service Value → List Rule}
  {ruleMatches : Rule → Bool}

omit [DecidableEq (Service Value)] in
theorem mem_of_mem_keptServices {pathRouting : Bool} {services : List (Service Value)}
    {service : Service Value} (member : service ∈ keptServices pathRouting services) :
    service ∈ services := by
  unfold keptServices at member
  split at member
  · exact member
  · exact List.mem_of_mem_take member

/-- The stored identifiers never turn a service down. -/
theorem hostBasedFinder_store :
    hostBasedFinder (self.reset.store now config ttl) moment host =
      ((self.reset.store now config ttl).findByHost moment host true).find? fun service =>
        decide (host ∈ service.hosts) := by
  apply List.find?_congr
  intro service member
  rw [findByHost_reset_store] at member
  obtain ⟨original, stored, copied⟩ := List.mem_flatMap.mp (mem_of_mem_keptServices member)
  obtain rfl : service = original := List.eq_of_mem_replicate copied
  rw [findById_of_first stored, Bool.eq_iff_iff, List.any_eq_true, decide_eq_true_iff]
  simp only [decide_true, Bool.and_true, decide_eq_true_eq, exists_eq_right]

omit [DecidableEq (Service Value)] in
theorem pathBasedFinder_eq (configStore : ConfigurationStore Value) :
    pathBasedFinder rules ruleMatches configStore moment host =
      (configStore.findByHost moment host true).find? fun service =>
        decide (host ∈ service.hosts) &&
          (MappingRulesMatcher.matches ruleMatches (rules service)).1 := by
  apply List.find?_congr
  intro service _
  rw [Bool.eq_iff_iff, List.any_eq_true, Bool.and_eq_true, decide_eq_true_iff]
  constructor
  · intro ⟨listed, within, both⟩
    obtain ⟨same, matching⟩ := Bool.and_eq_true_iff.mp both
    exact ⟨of_decide_eq_true same ▸ within, matching⟩
  · intro ⟨within, matching⟩
    exact ⟨host, within, Bool.and_eq_true_iff.mpr ⟨decide_eq_true rfl, matching⟩⟩

variable (rules ruleMatches)

/-- The first service of the configuration for a host that has a rule for the request. -/
def ruleRouted (config : Configuration Value) (host : String) : Option (Service Value) :=
  (distinctServices config).find? fun service =>
    listsHost host service && (MappingRulesMatcher.matches ruleMatches (rules service)).1

/-- What routing is meant to find. -/
def routed (pathRouting : Bool) (config : Configuration Value) (host : String) :
    Option (Service Value) :=
  if pathRouting then (ruleRouted rules ruleMatches config host).or (hostRouted config host)
  else hostRouted config host

variable {rules ruleMatches}

omit [DecidableEq (Service Value)] in
/-- Adding a condition to the search for a service of the host changes nothing exactly when the
service has the host as it is. -/
theorem find?_literal_iff (config : Configuration Value) (host : String)
    (condition : Service Value → Bool) :
    ((distinctServices config).find? fun service =>
        listsHost host service && (decide (host ∈ service.hosts) && condition service)) =
        ((distinctServices config).find? fun service =>
          listsHost host service && condition service) ↔
      ∀ service ∈ (distinctServices config).find? fun service =>
        listsHost host service && condition service, host ∈ service.hosts := by
  rw [FirstMatch.find?_eq_find?_iff]
  · apply forall₂_congr
    intro service found
    have wide := List.find?_some found
    rw [Bool.and_eq_true] at wide
    simp only [wide, Bool.and_true, Bool.true_and, decide_eq_true_eq]
  · intro service _ narrow
    simp only [Bool.and_eq_true] at narrow ⊢
    exact ⟨narrow.1, narrow.2.2⟩

/-- For every configuration that is stored after a reset, at any time and for every host in lower
case: the finders find what routing is meant to find exactly when this service, if there is one,
lists the host in lower case. -/
theorem findService_eq_iff (lowered : lower host = host) :
    findServiceFunc rules ruleMatches self.pathRouting false (self.reset.store now config ttl)
        moment host = routed rules ruleMatches self.pathRouting config host ↔
      ∀ service ∈ routed rules ruleMatches self.pathRouting config host, host ∈ service.hosts := by
  unfold findServiceFunc routed pathBasedWithFallbackToHost
  rw [if_neg Bool.false_ne_true]
  cases routing : self.pathRouting with
  | false =>
      simp only [Bool.false_eq_true, ↓reduceIte]
      rw [hostBasedFinder_store, find?_findByHost lowered, routing, if_neg Bool.false_ne_true]
      cases hostRouted config host with
      | none => exact iff_of_true rfl nofun
      | some service =>
          simp only [Option.filter_some, decide_eq_true_eq, Option.ite_none_right_eq_some, and_true,
            Option.mem_some_iff, forall_eq']
  | true =>
      simp only [↓reduceIte]
      rw [hostBasedFinder_store, pathBasedFinder_eq, find?_findByHost lowered,
        find?_findByHost lowered, routing, if_pos rfl, if_pos rfl]
      have byRule := find?_literal_iff config host
        fun service => (MappingRulesMatcher.matches ruleMatches (rules service)).1
      have byHost := find?_literal_iff config host fun _ => true
      simp only [Bool.and_true] at byHost
      refine FirstMatch.or_eq_or_iff byRule byHost ?_ ?_
      · intro service found
        have narrow := List.find?_some found
        simp only [Bool.and_eq_true, decide_eq_true_eq] at narrow
        exact narrow.2.1
      · intro service found
        have narrow := List.find?_some found
        simp only [Bool.and_eq_true, decide_eq_true_eq] at narrow
        exact narrow.2

end Finders

end Routing

deriving instance DecidableEq for OidcTable, Service

/-- A configuration of one service with one host. -/
private def hosted (host : String) : Configuration Unit where
  services := [⟨"1", [host], ⟨none, ∅⟩⟩]
  oidc := []
  ttl := none

/-- Two services that share a host. -/
private def overlapping : Configuration Unit where
  services := [⟨"1", ["B", "a"], ⟨none, ∅⟩⟩, ⟨"2", ["a", "c"], ⟨none, ∅⟩⟩]
  oidc := []
  ttl := none

/-- Of two services with the host, routing by path finds the second one, which has the only
matching rule, and routing by host the first one. -/
theorem findService_overlapping :
    findServiceFunc (fun service => [service.id]) (fun rule => decide (rule = "2"))
        (new true : ConfigurationStore Unit).pathRouting false
        ((new true).reset.store 0 overlapping none) 1 "a" = overlapping.services[1]? ∧
      findServiceFunc (fun service => [service.id]) (fun rule => decide (rule = "2"))
        (new false : ConfigurationStore Unit).pathRouting false
        ((new false).reset.store 0 overlapping none) 1 "a" = overlapping.services[0]? := by
  refine ⟨?_, ?_⟩
  · exact (findService_eq_iff (by decide)).mpr (by decide)
  · exact (findService_eq_iff (by decide)).mpr (by decide)

/-- A host that is written in upper case is not found, although the store lists the service. -/
theorem findService_upperCase :
    ((new false).reset.store 0 (hosted "A") none).findByHost 1 "a" true = (hosted "A").services ∧
      routed (fun _ => []) (fun _ : Unit => true) false (hosted "A") "a" =
        (hosted "A").services.head? ∧
      findServiceFunc (fun _ => []) (fun _ : Unit => true) false false
        ((new false).reset.store 0 (hosted "A") none) 1 "a" = none :=
  ⟨rfl, rfl, rfl⟩

end FindService

end Apicast
