import Apicast.Foundation.ExpiringCache
import Mathlib.Data.Int.Order.Basic
import Apicast.Foundation.SharedDict

/-!
# The configuration store

`configuration_store.lua`: the services of a configuration, merged with the OIDC
entries at their indices, stored by identifier and by host.
-/

namespace Apicast

open Foundation

/-- `string.lower` -/
def lower (text : String) : String := String.ofList (text.toList.map Char.toLower)

/-- A table of OIDC settings, with the identifier of the service it was made for. -/
structure OidcTable (Value : Type*) where
  serviceId : Option String
  fields : SharedDict String Value

/-- `for k,v in pairs(entry) do self[k] = v end` -/
def OidcTable.merge {Value : Type*} (self entry : OidcTable Value) : OidcTable Value where
  serviceId := entry.serviceId.or self.serviceId
  fields := entry.fields.entries.foldl (fun fields field => fields.set field.1 field.2) self.fields

structure Service (Value : Type*) where
  id : String
  hosts : List String
  oidc : OidcTable Value

structure Configuration (Value : Type*) where
  services : List (Service Value)
  oidc : List (OidcTable Value)
  ttl : Option Int

structure ConfigurationStore (Value : Type*) where
  services : ExpiringCache Int String (Service Value)
  cache : ExpiringCache Int String (List (Service Value))
  pathRouting : Bool

namespace ConfigurationStore

variable {Value : Type*}

/-- `_M.new` -/
def new (pathRouting : Bool) : ConfigurationStore Value where
  services := fun _ => none
  cache := fun _ => none
  pathRouting

/-- `_M.find_by_id` -/
def findById (self : ConfigurationStore Value) (now : Int) (id : String) :
    Option (Service Value) :=
  self.services.get now id

/-- `_M.find_by_host` -/
def findByHost (self : ConfigurationStore Value) (now : Int) (host : String) (stale : Bool) :
    List (Service Value) :=
  match self.cache.get now host with
  | some services => services
  | none => if stale then (self.cache.getStale now host).getD [] else []

/-- The services of a configuration after the merge with the OIDC entries. -/
def mergeOidc (config : Configuration Value) : List (Service Value) :=
  config.services.mapIdx fun i service =>
    match config.oidc[i]? with
    | some entry => { service with oidc := service.oidc.merge entry }
    | none => service

/-- The services of a host; without path routing the first one keeps the host. -/
def addHost (pathRouting : Bool) (service : Service Value)
    (byHost : SharedDict String (List (Service Value))) (host : String) :
    SharedDict String (List (Service Value)) :=
  match (byHost.get (lower host)).getD [] with
  | [] => byHost.set (lower host) [service]
  | first :: rest =>
      if pathRouting then byHost.set (lower host) (first :: rest ++ [service]) else byHost

/-- What the loop of `_M.store` builds up. -/
structure Stored (Value : Type*) where
  byHost : SharedDict String (List (Service Value))
  ids : List String
  services : ExpiringCache Int String (Service Value)

/-- One pass of the loop: a service whose identifier was seen is skipped. -/
def storeService (pathRouting : Bool) (now : Int) (stored : Stored Value)
    (service : Service Value) : Stored Value :=
  if service.id ∈ stored.ids then stored
  else
    { byHost := service.hosts.foldl (addHost pathRouting service) stored.byHost
      ids := service.id :: stored.ids
      services := stored.services.set now service.id service none }

theorem storeService_seen {pathRouting : Bool} {now : Int} {stored : Stored Value}
    {service : Service Value} (seen : service.id ∈ stored.ids) :
    storeService pathRouting now stored service = stored := if_pos seen

theorem storeService_new {pathRouting : Bool} {now : Int} {stored : Stored Value}
    {service : Service Value} (unseen : service.id ∉ stored.ids) :
    storeService pathRouting now stored service =
      ⟨service.hosts.foldl (addHost pathRouting service) stored.byHost, service.id :: stored.ids,
        stored.services.set now service.id service none⟩ := if_neg unseen

/-- A negative time to live means that entries never expire. -/
def cacheTtl (config : Configuration Value) (ttl : Option Int) : Option Int :=
  (config.ttl.or ttl).filter (0 ≤ ·)

/-- `_M.store` -/
def store (self : ConfigurationStore Value) (now : Int) (config : Configuration Value)
    (ttl : Option Int) : ConfigurationStore Value :=
  let stored := (mergeOidc config).foldl (storeService self.pathRouting now)
    ⟨∅, [], self.services⟩
  { self with
    services := stored.services
    cache := stored.byHost.entries.foldl
      (fun cache entry => cache.set now entry.1 entry.2 (cacheTtl config ttl)) self.cache }

/-- The entry of a host is dropped by the cache. -/
def evict (self : ConfigurationStore Value) (host : String) : ConfigurationStore Value :=
  { self with cache := self.cache.evict host }

/-- `configuration_loader.lua`, `_M.configured` -/
def Configured (self : ConfigurationStore Value) (now : Int) (host : String) : Prop :=
  0 < (self.findByHost now host false).length

instance (self : ConfigurationStore Value) (now : Int) (host : String) :
    Decidable (self.Configured now host) :=
  inferInstanceAs (Decidable (0 < _))

section Lookup

variable {self : ConfigurationStore Value} {now : Int} {host : String}

/-- With stale entries, a host is found as long as it has an entry. -/
theorem findByHost_stale :
    self.findByHost now host true = ((self.cache host).map (·.value)).getD [] := by
  rw [← ExpiringCache.get_or_getStale self.cache now host]
  unfold findByHost
  cases self.cache.get now host with
  | none => rfl
  | some services => rfl

/-- Nothing is found for a host that is not found with stale entries. -/
theorem findByHost_subset {stale : Bool} :
    self.findByHost now host stale ⊆ self.findByHost now host true := by
  unfold findByHost
  cases self.cache.get now host with
  | some services => exact List.Subset.refl services
  | none =>
      cases stale with
      | true => exact List.Subset.refl _
      | false => exact List.nil_subset _

theorem configured_iff :
    self.Configured now host ↔ ∃ services, self.cache.get now host = some services ∧
      services ≠ [] := by
  unfold Configured findByHost
  cases self.cache.get now host with
  | none =>
      constructor
      · intro configured
        exact absurd configured (Nat.lt_irrefl 0)
      · rintro ⟨services, found, _⟩
        cases found
  | some services =>
      rw [List.length_pos_iff]
      constructor
      · intro nonempty
        exact ⟨services, rfl, nonempty⟩
      · rintro ⟨other, found, nonempty⟩
        cases found
        exact nonempty

/-- A host that is configured was configured before, if nothing was stored since. -/
theorem Configured.earlier {later : Int} (order : now ≤ later)
    (configured : self.Configured later host) : self.Configured now host := by
  obtain ⟨services, found, nonempty⟩ := configured_iff.mp configured
  exact configured_iff.mpr ⟨services, ExpiringCache.get_earlier order found, nonempty⟩

/-- An eviction configures no host. -/
theorem Configured.of_evict {evicted : String}
    (configured : (self.evict evicted).Configured now host) : self.Configured now host := by
  obtain ⟨services, found, nonempty⟩ := configured_iff.mp configured
  exact configured_iff.mpr ⟨services, ExpiringCache.get_evict found, nonempty⟩

end Lookup

end ConfigurationStore

end Apicast
