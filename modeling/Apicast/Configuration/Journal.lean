import Apicast.Configuration.FindService

/-!
# The loads that a configuration store remembers

A store is never read as a whole: a lookup by identifier and one by host each answer from
their own cache, and both caches outlive the load that filled them. The journal of a store
holds the configurations that were stored since it was last reset, the newest first. A lookup
answers from the newest of them that knows the key, which need not be the newest of all.
-/

namespace Apicast

open Foundation

namespace ConfigurationStore

open FindService

variable {Value : Type*}

/-- The service that a configuration has under an identifier. -/
def loadedById (config : Configuration Value) (id : String) : Option (Service Value) :=
  (mergeOidc config).find? fun service => decide (service.id = id)

/-- The services that a configuration lists for a host. -/
def loadedByHost (pathRouting : Bool) (config : Configuration Value) (host : String) :
    List (Service Value) :=
  keptServices pathRouting ((distinctServices config).flatMap (copies host))

/-- The answer of the newest load that knows the identifier. -/
def newestById (journal : List (Configuration Value)) (id : String) : Option (Service Value) :=
  journal.findSome? fun config => loadedById config id

/-- The answer of the newest load that lists the host. -/
def newestByHost (pathRouting : Bool) :
    List (Configuration Value) → String → List (Service Value)
  | [], _ => []
  | config :: older, host =>
      match loadedByHost pathRouting config host with
      | [] => newestByHost pathRouting older host
      | first :: rest => first :: rest

theorem newestById_cons (config : Configuration Value) (older : List (Configuration Value))
    (id : String) :
    newestById (config :: older) id = (loadedById config id).or (newestById older id) := by
  unfold newestById
  rw [List.findSome?_cons]
  cases loadedById config id with
  | none => rfl
  | some service => rfl

/-- A loop over services keeps what is listed for a host from being empty. -/
theorem get_foldl_storeService_ne_nil {pathRouting : Bool} {now : Int} {host : String}
    (services : List (Service Value)) {stored : Stored Value}
    (nonempty : stored.byHost.get host ≠ some []) :
    (services.foldl (storeService pathRouting now) stored).byHost.get host ≠ some [] := by
  have added (service : Service Value) (name : String)
      {byHost : SharedDict String (List (Service Value))} (nonempty : byHost.get host ≠ some []) :
      (addHost pathRouting service byHost name).get host ≠ some [] := by
    unfold addHost
    cases (byHost.get (lower name)).getD [] with
    | nil =>
        rw [SharedDict.get_set]
        split
        · exact fun empty => List.cons_ne_nil _ _ (Option.some.inj empty)
        · exact nonempty
    | cons first rest =>
        dsimp only
        split
        · rw [SharedDict.get_set]
          split
          · exact fun empty => List.cons_ne_nil _ _ (Option.some.inj empty)
          · exact nonempty
        · exact nonempty
  have hosts (service : Service Value) (names : List String)
      {byHost : SharedDict String (List (Service Value))} (nonempty : byHost.get host ≠ some []) :
      (names.foldl (addHost pathRouting service) byHost).get host ≠ some [] := by
    induction names generalizing byHost with
    | nil => exact nonempty
    | cons name names ih => exact ih (added service name nonempty)
  induction services generalizing stored with
  | nil => exact nonempty
  | cons service rest ih =>
      rw [List.foldl_cons]
      by_cases seen : service.id ∈ stored.ids
      · rw [storeService_seen seen]
        exact ih nonempty
      · rw [storeService_new seen]
        exact ih (hosts service service.hosts nonempty)

section Operations

variable {self : ConfigurationStore Value} {now moment : Int} {config : Configuration Value}
  {ttl : Option Int} {host id : String}

/-- A stored configuration answers for the hosts that it lists; for other hosts the answer is
the one from before. -/
theorem findByHost_store_stale :
    (self.store now config ttl).findByHost moment host true =
      match loadedByHost self.pathRouting config host with
      | [] => self.findByHost moment host true
      | first :: rest => first :: rest := by
  let initial : Stored Value := ⟨∅, [], self.services⟩
  have start : listing initial.byHost host = keptServices self.pathRouting [] := by
    cases self.pathRouting <;> rfl
  have absent : initial.byHost.get host ≠ some [] := fun empty => by cases empty
  have listed : listing ((mergeOidc config).foldl (storeService self.pathRouting now)
      initial).byHost host = loadedByHost self.pathRouting config host :=
    listing_foldl_storeService (mergeOidc config) start
  have nonempty : ((mergeOidc config).foldl (storeService self.pathRouting now)
      initial).byHost.get host ≠ some [] :=
    get_foldl_storeService_ne_nil (mergeOidc config) absent
  rw [← listed, findByHost_stale, findByHost_stale]
  unfold store listing
  dsimp only
  rw [foldl_set_entries]
  cases found : ((mergeOidc config).foldl (storeService self.pathRouting now)
      initial).byHost.get host with
  | none => rfl
  | some services =>
      cases services with
      | nil => exact absurd found nonempty
      | cons first rest => rfl

/-- A fresh lookup finds nothing or what a stale one finds. -/
theorem findByHost_eq_nil_or (self : ConfigurationStore Value) (moment : Int) (host : String)
    (stale : Bool) :
    self.findByHost moment host stale = [] ∨
      self.findByHost moment host stale = self.findByHost moment host true := by
  unfold findByHost
  cases self.cache.get moment host with
  | some services => exact .inr rfl
  | none =>
      cases stale with
      | true => exact .inr rfl
      | false => exact .inl rfl

/-- The entry of an identifier is dropped by the cache. -/
def evictId (self : ConfigurationStore Value) (id : String) : ConfigurationStore Value :=
  { self with services := self.services.evict id }

end Operations

/-- Every lookup answers from the newest load that knows the key, unless its entry was
evicted. -/
structure Records (journal : List (Configuration Value)) (store : ConfigurationStore Value) :
    Prop where
  byId : ∀ moment id,
    store.findById moment id = none ∨ store.findById moment id = newestById journal id
  byHost : ∀ moment host stale, store.findByHost moment host stale = [] ∨
    store.findByHost moment host stale = newestByHost store.pathRouting journal host

/-- Every lookup by identifier, and every one by host that takes stale entries too, finds what the
newest load that knows the key has for it. A lookup that takes fresh entries only finds nothing once
they have expired. -/
structure Retains (journal : List (Configuration Value)) (store : ConfigurationStore Value) :
    Prop where
  byId : ∀ moment id, store.findById moment id = newestById journal id
  byHost : ∀ moment host,
    store.findByHost moment host true = newestByHost store.pathRouting journal host

section Journal

variable {self : ConfigurationStore Value} {journal : List (Configuration Value)} {now : Int}
  {ttl : Option Int}

theorem retains_new (pathRouting : Bool) : Retains [] (new pathRouting : ConfigurationStore Value)
    where
  byId _ _ := rfl
  byHost _ _ := rfl

theorem retains_reset (self : ConfigurationStore Value) : Retains [] self.reset where
  byId _ _ := rfl
  byHost _ _ := rfl

/-- A store that retains its journal answers from nothing else. -/
theorem Retains.records (retains : Retains journal self) : Records journal self where
  byId moment id := .inr (retains.byId moment id)
  byHost moment host stale := by
    rcases self.findByHost_eq_nil_or moment host stale with empty | same
    · exact .inl empty
    · exact .inr (same.trans (retains.byHost moment host))

/-- Storing a configuration makes it the newest load. -/
theorem Retains.store (retains : Retains journal self) (config : Configuration Value) :
    Retains (config :: journal) (self.store now config ttl) where
  byId moment id := by
    rw [findById_store, newestById_cons, retains.byId]
    rfl
  byHost moment host := by
    rw [findByHost_store_stale, retains.byHost]
    rfl

theorem Records.store (records : Records journal self) (config : Configuration Value) :
    Records (config :: journal) (self.store now config ttl) where
  byId moment id := by
    rw [findById_store, newestById_cons]
    change (loadedById config id).or _ = none ∨ (loadedById config id).or _ = _
    cases loadedById config id with
    | some service => exact .inr rfl
    | none =>
        rw [Option.none_or, Option.none_or]
        exact records.byId moment id
  byHost moment host stale := by
    rcases (self.store now config ttl).findByHost_eq_nil_or moment host stale with empty | same
    · exact .inl empty
    · rw [same, findByHost_store_stale]
      change _ ∨ _ = newestByHost self.pathRouting (config :: journal) host
      unfold newestByHost
      cases loadedByHost self.pathRouting config host with
      | nil => exact records.byHost moment host true
      | cons first rest => exact .inr rfl

/-- Evictions only make a lookup find nothing. -/
theorem Records.evict (records : Records journal self) (evicted : String) :
    Records journal (self.evict evicted) where
  byId := records.byId
  byHost moment host stale := by
    rcases (self.evict evicted).findByHost_eq_nil_or moment host stale with empty | same
    · exact .inl empty
    · rw [same, findByHost_stale]
      change ((self.cache.evict evicted host).map (·.value)).getD [] = [] ∨
        ((self.cache.evict evicted host).map (·.value)).getD [] = _
      by_cases hit : host = evicted
      · subst hit
        left
        rw [ExpiringCache.evict, Function.update_self]
        rfl
      · have kept : self.cache.evict evicted host = self.cache host := Function.update_of_ne hit ..
        rw [kept, ← @findByHost_stale _ self moment]
        exact records.byHost moment host true

theorem Records.evictId (records : Records journal self) (evicted : String) :
    Records journal (self.evictId evicted) where
  byId moment id := by
    cases found : (self.evictId evicted).findById moment id with
    | none => exact .inl rfl
    | some service =>
        have before : self.findById moment id = some service := ExpiringCache.get_evict found
        rcases records.byId moment id with nothing | newest
        · rw [before] at nothing
          cases nothing
        · exact .inr (before.symm.trans newest)
  byHost := records.byHost

/-- The services that a store lists for a host are services of loads that it remembers. -/
theorem Records.exists_load (records : Records journal self) {moment : Int} {host : String}
    {stale : Bool} {service : Service Value}
    (listed : service ∈ self.findByHost moment host stale) :
    ∃ config ∈ journal, service ∈ distinctServices config := by
  have loaded (loads : List (Configuration Value))
      (member : service ∈ newestByHost self.pathRouting loads host) :
      ∃ config ∈ loads, service ∈ distinctServices config := by
    induction loads with
    | nil => cases member
    | cons config older ih =>
        unfold newestByHost at member
        cases found : loadedByHost self.pathRouting config host with
        | nil =>
            rw [found] at member
            obtain ⟨other, remembered, within⟩ := ih member
            exact ⟨other, List.mem_cons_of_mem _ remembered, within⟩
        | cons first rest =>
            rw [found] at member
            dsimp only at member
            rw [← found] at member
            obtain ⟨original, within, copied⟩ :=
              List.mem_flatMap.mp (mem_of_mem_keptServices member)
            rw [List.eq_of_mem_replicate copied]
            exact ⟨config, List.mem_cons_self, within⟩
  rcases records.byHost moment host stale with nothing | newest
  · rw [nothing] at listed
    cases listed
  · rw [newest] at listed
    exact loaded journal listed

end Journal

end ConfigurationStore

namespace FindService

variable {Value Rule : Type*} [DecidableEq (Service Value)] {rules : Service Value → List Rule}
  {ruleMatches : Rule → Bool} {configStore : ConfigurationStore Value} {now : Int} {host : String}
  {service : Service Value}

/-- Every finder finds a service that the store lists for the host and that has the host among
its own. -/
theorem findServiceFunc_sound {pathRoutingEnabled pathRoutingOnly : Bool}
    (found : findServiceFunc rules ruleMatches pathRoutingEnabled pathRoutingOnly configStore now
      host = some service) :
    service ∈ configStore.findByHost now host true ∧ host ∈ service.hosts := by
  have byHost (found : hostBasedFinder configStore now host = some service) :
      service ∈ configStore.findByHost now host true ∧ host ∈ service.hosts := by
    have accepts := List.find?_some found
    obtain ⟨listed, within, accepted⟩ := List.any_eq_true.mp accepts
    have same := of_decide_eq_true (Bool.and_eq_true_iff.mp accepted).1
    exact ⟨List.mem_of_find?_eq_some found, same ▸ within⟩
  have byPath (found : pathBasedFinder rules ruleMatches configStore now host = some service) :
      service ∈ configStore.findByHost now host true ∧ host ∈ service.hosts := by
    have accepts := List.find?_some found
    obtain ⟨listed, within, accepted⟩ := List.any_eq_true.mp accepts
    have same := of_decide_eq_true (Bool.and_eq_true_iff.mp accepted).1
    exact ⟨List.mem_of_find?_eq_some found, same ▸ within⟩
  unfold findServiceFunc at found
  split at found
  · exact byPath found
  · split at found
    · rcases Option.or_eq_some_iff.mp found with path | ⟨_, host⟩
      · exact byPath path
      · exact byHost host
    · exact byHost found

end FindService

end Apicast
