import Apicast.Configuration.Store
import Apicast.Foundation.FirstMatch

/-!
# What a configuration store finds

After a configuration is stored in a new store, the services found by identifier and
by host are its services merged with the OIDC entries at their indices.
-/

namespace Apicast

open Foundation

/-- Merged fields come from the entry, and from the table where the entry has none. -/
theorem OidcTable.get_merge {Value : Type*} (self entry : OidcTable Value) (name : String) :
    (self.merge entry).fields.get name = (entry.fields.get name).or (self.fields.get name) := by
  have folded (entries : List (Sigma fun _ : String => Value)) (fields : SharedDict String Value)
      (nodup : entries.NodupKeys) :
      (entries.foldl (fun fields field => fields.set field.1 field.2) fields).get name =
        (entries.dlookup name).or (fields.get name) := by
    induction entries generalizing fields with
    | nil => rfl
    | cons field rest ih =>
        obtain ⟨absent, distinct⟩ := List.nodupKeys_cons.mp nodup
        rw [List.foldl_cons, ih _ distinct, SharedDict.get_set]
        by_cases same : name = field.1
        · subst same
          rw [List.dlookup_eq_none.mpr absent, if_pos rfl, Option.none_or]
          change _ = (List.dlookup field.1 (⟨field.1, field.2⟩ :: rest)).or _
          rw [List.dlookup_cons_eq, Option.some_or]
        · rw [if_neg same]
          change _ = (List.dlookup name (⟨field.1, field.2⟩ :: rest)).or _
          rw [List.dlookup_cons_ne _ _ same]
  exact folded entry.fields.entries self.fields entry.fields.nodupKeys

namespace ConfigurationStore

variable {Value : Type*}

/-- Merging keeps the identifiers. -/
theorem map_id_mergeOidc (config : Configuration Value) :
    (mergeOidc config).map (·.id) = config.services.map (·.id) := by
  apply List.ext_getElem?
  intro position
  unfold mergeOidc
  rw [List.getElem?_map, List.getElem?_map, List.getElem?_mapIdx, Option.map_map]
  congr 1
  funext service
  simp only [Function.comp_apply]
  cases config.oidc[position]? with
  | none => rfl
  | some entry => rfl

section Services

variable {pathRouting : Bool} {now moment : Int}

/-- The loop stores the first service of every new identifier under it. -/
theorem get_foldl_storeService (services : List (Service Value)) {stored : Stored Value}
    (id : String) :
    (services.foldl (storeService pathRouting now) stored).services.get moment id =
      if id ∈ stored.ids then stored.services.get moment id
      else (services.find? fun service => decide (service.id = id)).or
        (stored.services.get moment id) := by
  induction services generalizing stored with
  | nil => exact (ite_self _).symm
  | cons service rest ih =>
      rw [List.foldl_cons, ih, List.find?_cons]
      by_cases seen : service.id ∈ stored.ids
      · rw [storeService_seen seen]
        by_cases known : id ∈ stored.ids
        · rw [if_pos known, if_pos known]
        · have different : service.id ≠ id := fun same => known (same ▸ seen)
          simp only [known, different, ↓reduceIte, decide_false]
      · rw [storeService_new seen]
        by_cases same : service.id = id
        · subst same
          simp only [seen, List.mem_cons_self, ↓reduceIte, decide_true, Option.some_or]
          exact ExpiringCache.get_set_unlimited
        · have kept : (stored.services.set now service.id service none).get moment id =
              stored.services.get moment id := ExpiringCache.get_set_of_ne (Ne.symm same)
          simp only [kept, same, Ne.symm same, List.mem_cons, false_or, decide_false]

end Services

section Hosts

variable {pathRouting : Bool} {now moment : Int}

/-- Adding a service to a host lists no other service than this one. -/
theorem addHost_mem {service member : Service Value} {host other : String}
    {byHost : SharedDict String (List (Service Value))}
    (within : member ∈ ((addHost pathRouting service byHost host).get other).getD []) :
    member = service ∨ member ∈ (byHost.get other).getD [] := by
  unfold addHost at within
  by_cases same : other = lower host
  · subst same
    cases known : (byHost.get (lower host)).getD [] with
    | nil =>
        rw [known, SharedDict.get_set_self, Option.getD_some] at within
        exact .inl (List.mem_singleton.mp within)
    | cons first rest =>
        rw [known] at within
        cases pathRouting with
        | true =>
            simp only [↓reduceIte, SharedDict.get_set_self, Option.getD_some] at within
            rcases List.mem_append.mp within with before | last
            · exact .inr before
            · exact .inl (List.mem_singleton.mp last)
        | false =>
            simp only [Bool.false_eq_true, ↓reduceIte, known] at within
            exact .inr within
  · right
    cases known : (byHost.get (lower host)).getD [] with
    | nil => rwa [known, SharedDict.get_set_of_ne _ _ same] at within
    | cons first rest =>
        rw [known] at within
        cases pathRouting with
        | true =>
            simp only [↓reduceIte, SharedDict.get_set_of_ne _ _ same] at within
            exact within
        | false => exact within

theorem foldl_addHost_mem {service member : Service Value} {hosts : List String} {other : String}
    {byHost : SharedDict String (List (Service Value))}
    (within : member ∈ ((hosts.foldl (addHost pathRouting service) byHost).get other).getD []) :
    member = service ∨ member ∈ (byHost.get other).getD [] := by
  induction hosts generalizing byHost with
  | nil => exact .inr within
  | cons host hosts ih =>
      rcases ih within with same | between
      · exact .inl same
      · exact addHost_mem between

/-- The services that the loop lists for a host are services of the configuration. -/
theorem foldl_storeService_mem {services : List (Service Value)} {stored : Stored Value}
    {host : String} {member : Service Value}
    (within : member ∈
      ((services.foldl (storeService pathRouting now) stored).byHost.get host).getD []) :
    member ∈ services ∨ member ∈ (stored.byHost.get host).getD [] := by
  induction services generalizing stored with
  | nil => exact .inr within
  | cons service rest ih =>
      rcases ih within with later | before
      · exact .inl (List.mem_cons_of_mem _ later)
      · by_cases seen : service.id ∈ stored.ids
        · rw [storeService_seen seen] at before
          exact .inr before
        · rw [storeService_new seen] at before
          rcases foldl_addHost_mem before with same | earlier
          · exact .inl (same ▸ List.mem_cons_self)
          · exact .inr earlier

/-- Every host of a dictionary is cached with what is listed for it. -/
theorem foldl_set_entries (dict : SharedDict String (List (Service Value)))
    (cache : ExpiringCache Int String (List (Service Value))) (ttl : Option Int) (host : String) :
    dict.entries.foldl (fun cache entry => cache.set now entry.1 entry.2 ttl) cache host =
      match dict.get host with
      | some services => some ⟨services, ttl.map (now + ·)⟩
      | none => cache host := by
  have folded (entries : List (Sigma fun _ : String => List (Service Value)))
      (cache : ExpiringCache Int String (List (Service Value))) (nodup : entries.NodupKeys) :
      entries.foldl (fun cache entry => cache.set now entry.1 entry.2 ttl) cache host =
        match entries.dlookup host with
        | some services => some ⟨services, ttl.map (now + ·)⟩
        | none => cache host := by
    induction entries generalizing cache with
    | nil => rfl
    | cons entry rest ih =>
        obtain ⟨name, services⟩ := entry
        obtain ⟨absent, distinct⟩ := List.nodupKeys_cons.mp nodup
        rw [List.foldl_cons, ih _ distinct]
        by_cases same : host = name
        · subst same
          rw [List.dlookup_eq_none.mpr absent, List.dlookup_cons_eq]
          exact ExpiringCache.set_self
        · rw [List.dlookup_cons_ne _ _ same]
          rw [ExpiringCache.set_of_ne same]
  exact folded dict.entries cache dict.nodupKeys

end Hosts

/-- Some lookup finds the service. -/
def Finds (self : ConfigurationStore Value) (service : Service Value) : Prop :=
  ∃ moment, (∃ id, self.findById moment id = some service) ∨
    ∃ host stale, service ∈ self.findByHost moment host stale

section Stored

variable {self : ConfigurationStore Value} {pathRouting : Bool} {now : Int}
  {config : Configuration Value} {ttl : Option Int}

/-- A stored configuration is found by its identifiers, before what was stored earlier. -/
theorem findById_store (moment : Int) (id : String) :
    (self.store now config ttl).findById moment id =
      ((mergeOidc config).find? fun service => decide (service.id = id)).or
        (self.findById moment id) :=
  (get_foldl_storeService (mergeOidc config) id).trans (if_neg List.not_mem_nil)

/-- Stored in an empty cache, a configuration is found by its hosts at any time: an expired
entry is found as a stale one. -/
theorem findByHost_store (moment : Int) (host : String) (empty : self.cache host = none) :
    (self.store now config ttl).findByHost moment host true =
      (((mergeOidc config).foldl (storeService self.pathRouting now)
        ⟨∅, [], self.services⟩).byHost.get host).getD [] := by
  rw [findByHost_stale]
  unfold store
  dsimp only
  rw [foldl_set_entries, empty]
  cases ((mergeOidc config).foldl (storeService self.pathRouting now)
      ⟨∅, [], self.services⟩).byHost.get host with
  | none => rfl
  | some services => rfl

/-- A service that is the first with its identifier is found by it. -/
theorem findById_of_first {service : Service Value}
    (first : service ∈ FirstMatch.firstOccurrences (·.id) [] (mergeOidc config)) (moment : Int) :
    (self.store now config ttl).findById moment service.id = some service := by
  rw [findById_store, FirstMatch.find?_of_mem_firstOccurrences first, Option.some_or]

/-- Where no identifier occurs twice, every merged service is found by its own. -/
theorem findById_of_mem (distinct : ((mergeOidc config).map (·.id)).Nodup)
    {service : Service Value} (member : service ∈ mergeOidc config) (moment : Int) :
    (self.store now config ttl).findById moment service.id = some service := by
  apply findById_of_first
  rw [FirstMatch.firstOccurrences_of_nodup distinct fun _ _ => List.not_mem_nil]
  exact member

/-- A new store finds nothing but merged services of the configuration. -/
theorem mem_of_finds {service : Service Value}
    (finds : ((new pathRouting).store now config ttl).Finds service) :
    service ∈ mergeOidc config := by
  obtain ⟨moment, ⟨id, found⟩ | ⟨host, stale, member⟩⟩ := finds
  · rw [findById_store] at found
    rcases Option.or_eq_some_iff.mp found with searched | ⟨_, absent⟩
    · exact List.mem_of_find?_eq_some searched
    · cases absent
  · have listed := findByHost_subset member
    rw [findByHost_store moment host rfl] at listed
    rcases foldl_storeService_mem listed with merged | absent
    · exact merged
    · cases absent

end Stored

end ConfigurationStore

end Apicast
