import Apicast.Configuration.Filter
import Apicast.Configuration.StoredServices
import Mathlib.Data.List.Basic

/-!
# The pairing of services with OIDC entries

The loader makes the list of OIDC entries as long as that of the services, the filters
drop services and entries independently of each other, and the store pairs what is left
by index. A service gets its own OIDC configuration when the entry that arrives at its
index comes from the same source as its own entry.
-/

namespace Apicast

open Foundation

namespace OidcPairing

variable {Value : Type*}

/-- What a configuration is made of, besides the services: what the discovery finds, what
was left in its tables, and what the environment selects. -/
structure Setting (Value : Type*) where
  discovery : OidcLoader.Discovery Value
  marks : SharedDict String String
  filter : ServiceFilter
  pathRouting : Bool
  now : Int
  ttl : Option Int

/-- Where the OIDC configuration of a service comes from. -/
inductive Source
  | given (index : Nat)
  | discovered (issuer : String)
  | nothing
  deriving DecidableEq, Repr

/-- The source of the entry at an index: the entry given in the configuration, or else
the issuer of the service at this index. -/
def source (discovery : OidcLoader.Discovery Value) (config : RawConfiguration Value)
    (index : Nat) : Source :=
  match config.oidc[index]?.join with
  | some _ => .given index
  | none =>
      match config.services[index]?.bind (OidcLoader.discoveredIssuer discovery) with
      | some issuer => .discovered issuer
      | none => .nothing

/-- The OIDC configuration that a source gives. -/
def contents (discovery : OidcLoader.Discovery Value) (config : RawConfiguration Value) :
    Source → SharedDict String Value
  | .given index => (config.oidc[index]?.join.map (·.fields)).getD ∅
  | .discovered issuer => (discovery issuer).getD ∅
  | .nothing => ∅

/-- The identifiers that are written into the table of an issuer, in the order of the
services it is discovered for. -/
def writtenIds (discovery : OidcLoader.Discovery Value) (config : RawConfiguration Value)
    (issuer : String) : List String :=
  (List.range config.services.length).filterMap fun index =>
    if source discovery config index = .discovered issuer then
      config.services[index]?.bind (·.id)
    else none

/-- The identifier in the entry at an index: the one that was given with it, the one
written last into the shared table, or that of the service it was made for. -/
def entryId (discovery : OidcLoader.Discovery Value) (marks : SharedDict String String)
    (config : RawConfiguration Value) (index : Nat) : Option String :=
  match source discovery config index with
  | .given index => config.oidc[index]?.join.bind (·.serviceId)
  | .discovered issuer => (writtenIds discovery config issuer).getLast?.or (marks.get issuer)
  | .nothing => config.services[index]?.bind (·.id)

section Loader

open OidcLoader

variable {discovery : Discovery Value}

/-- The entry of a service does not depend on what the tables were marked with. -/
theorem loadEntry_fst (service : RawService Value) (given : Option (OidcTable Value))
    (marks others : SharedDict String String) :
    (loadEntry discovery service given marks).1 = (loadEntry discovery service given others).1 := by
  unfold loadEntry
  cases given with
  | some table => rfl
  | none =>
      cases discoveredIssuer discovery service with
      | some issuer => rfl
      | none => rfl

/-- The loop gives every service its own entry, and keeps the rest. -/
theorem getElem?_loadEntries (services : List (RawService Value))
    (oidc : List (Option (OidcTable Value))) (marks : SharedDict String String) (index : Nat) :
    (loadEntries discovery services oidc marks).1[index]? =
      match services[index]? with
      | some service => some (some (loadEntry discovery service oidc[index]?.join ∅).1)
      | none => oidc[index]?.map fun given => given.map .own := by
  induction services generalizing oidc marks index with
  | nil =>
      rw [List.getElem?_nil]
      exact List.getElem?_map
  | cons service services ih =>
      cases index with
      | zero =>
          have first : oidc[0]? = oidc.head? := List.head?_eq_getElem?.symm
          rw [List.getElem?_cons_zero, first]
          change some (some (loadEntry discovery service oidc.head?.join marks).1) =
            some (some (loadEntry discovery service oidc.head?.join ∅).1)
          rw [loadEntry_fst _ _ marks ∅]
      | succ index =>
          have next : oidc[index + 1]? = oidc.tail[index]? := List.getElem?_tail.symm
          rw [List.getElem?_cons_succ, next]
          exact ih ..

/-- The table at an index has the contents of the source of this index. -/
theorem fields_of_call {config : RawConfiguration Value} {marks : SharedDict String String}
    {index : Nat} {entry : Option (OidcTable Value)}
    (found : (call discovery marks config).oidc[index]? = some entry) :
    (entry.getD ⟨none, ∅⟩).fields = contents discovery config (source discovery config index) := by
  change ((loadEntries discovery config.services config.oidc marks).1.map _)[index]? = _ at found
  rw [List.getElem?_map, getElem?_loadEntries] at found
  unfold source
  cases present : config.services[index]? with
  | none =>
      rw [present] at found
      cases given : config.oidc[index]? with
      | none =>
          rw [given] at found
          cases found
      | some table =>
          rw [given] at found
          cases table with
          | none =>
              cases found
              rfl
          | some table =>
              cases found
              change table.fields = (config.oidc[index]?.join.map _).getD ∅
              rw [given]
              rfl
  | some service =>
      rw [present] at found
      cases given : config.oidc[index]?.join with
      | some table =>
          rw [given] at found
          cases found
          change table.fields = (config.oidc[index]?.join.map _).getD ∅
          rw [given]
          rfl
      | none =>
          simp only [given, loadEntry, Option.map_some, Option.some.injEq] at found
          subst found
          simp only [Option.bind_some]
          cases discoveredIssuer discovery service with
          | some issuer => rfl
          | none => rfl

/-- There is an entry for every service, and the entries given are kept. -/
theorem length_loadEntries (services : List (RawService Value))
    (oidc : List (Option (OidcTable Value))) (marks : SharedDict String String) :
    (loadEntries discovery services oidc marks).1.length = max services.length oidc.length := by
  induction services generalizing oidc marks with
  | nil =>
      change (oidc.map _).length = _
      rw [List.length_map, List.length_nil, Nat.zero_max]
  | cons service services ih =>
      change (_ :: (loadEntries discovery services oidc.tail _).1).length = _
      rw [List.length_cons, ih, List.length_cons, List.length_tail]
      omega

/-- Whether a service after the first one has its table discovered does not depend on
the first one. -/
theorem source_cons {service : RawService Value} {services : List (RawService Value)}
    {oidc : List (Option (OidcTable Value))} {index : Nat} {issuer : String} :
    source discovery ⟨service :: services, oidc⟩ (index + 1) = .discovered issuer ↔
      source discovery ⟨services, oidc.tail⟩ index = .discovered issuer := by
  have next : oidc[index + 1]? = oidc.tail[index]? := List.getElem?_tail.symm
  unfold source
  simp only [next, List.getElem?_cons_succ]
  cases oidc.tail[index]?.join with
  | some table => exact iff_of_false nofun nofun
  | none => exact Iff.rfl

/-- The first service has its table discovered where none is given for it. -/
theorem source_zero {service : RawService Value} {services : List (RawService Value)}
    {oidc : List (Option (OidcTable Value))} {issuer : String} :
    source discovery ⟨service :: services, oidc⟩ 0 = .discovered issuer ↔
      oidc.head?.join = none ∧ discoveredIssuer discovery service = some issuer := by
  have first : oidc[0]? = oidc.head? := List.head?_eq_getElem?.symm
  unfold source
  simp only [first, List.getElem?_cons_zero, Option.bind_some]
  cases oidc.head?.join with
  | some table => exact iff_of_false nofun nofun
  | none =>
      cases discoveredIssuer discovery service with
      | none => exact iff_of_false nofun nofun
      | some other =>
          simp only [Source.discovered.injEq, Option.some.injEq, true_and]

theorem writtenIds_cons (service : RawService Value) (services : List (RawService Value))
    (oidc : List (Option (OidcTable Value))) (issuer : String) :
    writtenIds discovery ⟨service :: services, oidc⟩ issuer =
      (if source discovery ⟨service :: services, oidc⟩ 0 = .discovered issuer then service.id
        else none).toList ++ writtenIds discovery ⟨services, oidc.tail⟩ issuer := by
  have rest : ((List.range services.length).map Nat.succ).filterMap (fun index =>
        if source discovery ⟨service :: services, oidc⟩ index = .discovered issuer then
          (service :: services)[index]?.bind (·.id)
        else none) = writtenIds discovery ⟨services, oidc.tail⟩ issuer := by
    rw [List.filterMap_map]
    refine List.filterMap_congr fun index _ => ?_
    change (if source discovery ⟨service :: services, oidc⟩ (index + 1) = _ then _ else _) = _
    rw [List.getElem?_cons_succ]
    exact if_congr source_cons rfl rfl
  unfold writtenIds at rest ⊢
  rw [← rest, List.length_cons, List.range_succ_eq_map, List.filterMap_cons,
    List.getElem?_cons_zero, Option.bind_some]
  cases (if source discovery ⟨service :: services, oidc⟩ 0 = .discovered issuer then service.id
    else none) with
  | some id => rfl
  | none => rfl

/-- The first service marks the table of an issuer where it is discovered for it. -/
theorem get_marks_loadEntry (service : RawService Value) (services : List (RawService Value))
    (oidc : List (Option (OidcTable Value))) (marks : SharedDict String String)
    (issuer : String) :
    (loadEntry discovery service oidc.head?.join marks).2.get issuer =
      (if source discovery ⟨service :: services, oidc⟩ 0 = .discovered issuer then service.id
        else none).or (marks.get issuer) := by
  rw [if_congr source_zero rfl rfl]
  unfold loadEntry
  cases oidc.head?.join with
  | some table => rfl
  | none =>
      cases discoveredIssuer discovery service with
      | none => rfl
      | some other =>
          simp only [true_and, Option.some.injEq, markTable]
          cases service.id with
          | none => rw [ite_self, Option.none_or]
          | some id =>
              rw [SharedDict.get_set]
              by_cases same : issuer = other
              · rw [if_pos same, if_pos same.symm, Option.some_or]
              · rw [if_neg same, if_neg (Ne.symm same), Option.none_or]

/-- The table of an issuer is left with the identifier that was written last. -/
theorem get_marks_loadEntries (services : List (RawService Value))
    (oidc : List (Option (OidcTable Value))) (marks : SharedDict String String)
    (issuer : String) :
    (loadEntries discovery services oidc marks).2.get issuer =
      (writtenIds discovery ⟨services, oidc⟩ issuer).getLast?.or (marks.get issuer) := by
  induction services generalizing oidc marks with
  | nil => rfl
  | cons service services ih =>
      change (loadEntries discovery services oidc.tail
        (loadEntry discovery service oidc.head?.join marks).2).2.get issuer = _
      rw [ih, get_marks_loadEntry service services, writtenIds_cons, List.getLast?_append,
        Option.or_assoc]
      cases (if source discovery ⟨service :: services, oidc⟩ 0 = .discovered issuer then service.id
        else none) with
      | some id => rfl
      | none => rfl

/-- The table at an index has the identifier of the entry there. -/
theorem serviceId_of_call {config : RawConfiguration Value} {marks : SharedDict String String}
    {index : Nat} {entry : Option (OidcTable Value)}
    (found : (call discovery marks config).oidc[index]? = some entry) :
    entry.bind (·.serviceId) = entryId discovery marks config index := by
  change ((loadEntries discovery config.services config.oidc marks).1.map _)[index]? = _ at found
  rw [List.getElem?_map, getElem?_loadEntries] at found
  have written := @get_marks_loadEntries _ discovery config.services config.oidc marks
  unfold entryId source
  cases present : config.services[index]? with
  | none =>
      rw [present] at found
      cases given : config.oidc[index]? with
      | none =>
          rw [given] at found
          cases found
      | some table =>
          rw [given] at found
          cases table with
          | none =>
              cases found
              rfl
          | some table =>
              cases found
              change table.serviceId = config.oidc[index]?.join.bind _
              rw [given]
              rfl
  | some service =>
      rw [present] at found
      cases given : config.oidc[index]?.join with
      | some table =>
          rw [given] at found
          cases found
          change table.serviceId = config.oidc[index]?.join.bind _
          rw [given]
          rfl
      | none =>
          simp only [given, loadEntry, Option.map_some, Option.some.injEq] at found
          subst found
          simp only [Option.bind_some]
          cases discoveredIssuer discovery service with
          | some issuer => exact written issuer
          | none => rfl

end Loader

section Shape

open OidcLoader

/-- Two discoveries know the same issuers. -/
def SameIssuers (discovery other : Discovery Value) : Prop :=
  ∀ issuer, (discovery issuer).isSome = (other issuer).isSome

/-- Two lists have entries at the same places, with the same identifiers. -/
def SameIds (oidc other : List (Option (OidcTable Value))) : Prop :=
  oidc.map (·.map OidcTable.serviceId) = other.map (·.map OidcTable.serviceId)

variable {discovery other : Discovery Value} {oidc others : List (Option (OidcTable Value))}

theorem SameIssuers.discoveredIssuer (same : SameIssuers discovery other)
    (service : RawService Value) :
    OidcLoader.discoveredIssuer discovery service = OidcLoader.discoveredIssuer other service := by
  unfold OidcLoader.discoveredIssuer
  simp only [same _]

theorem SameIds.getElem? (same : SameIds oidc others) (index : Nat) :
    oidc[index]?.map (·.map OidcTable.serviceId) =
      others[index]?.map (·.map OidcTable.serviceId) := by
  have equal := congrArg (·[index]?) same
  simpa only [List.getElem?_map] using equal

theorem SameIds.join (same : SameIds oidc others) (index : Nat) :
    oidc[index]?.join.map OidcTable.serviceId = others[index]?.join.map OidcTable.serviceId := by
  have equal := congrArg Option.join (same.getElem? index)
  simpa only [Option.join_map_eq_map_join] using equal

end Shape

section Filters

variable (filter : ServiceFilter)

/-- The environment selects the service. -/
def keepsService (service : Service Value) : Bool :=
  !(filter.filterByUrl.any fun regexp => !filter.compiles regexp) &&
    (decide (filter.servicesLimit = [] ∧ filter.filterByUrl = none) ||
      (Configuration.matchHost filter service || decide (service.id ∈ filter.servicesLimit)))

/-- An entry is kept with the services when it has no identifier, or one of theirs. -/
def keepsId (ids : List String) (entry : Option String) : Bool :=
  decide (∀ id ∈ entry, id ∈ ids)

theorem filterServices_eq (services : List (Service Value)) :
    Configuration.filterServices filter services = services.filter (keepsService filter) := by
  unfold Configuration.filterServices
  by_cases broken : filter.filterByUrl.any fun regexp => !filter.compiles regexp
  · rw [if_pos broken, eq_comm, List.filter_eq_nil_iff]
    intro service _
    simp only [keepsService, broken, Bool.not_true, Bool.false_and, Bool.false_eq_true,
      not_false_eq_true]
  · rw [if_neg broken]
    by_cases unset : filter.servicesLimit = [] ∧ filter.filterByUrl = none
    · rw [if_pos unset, eq_comm, List.filter_eq_self]
      intro service _
      unfold keepsService
      rw [eq_false_of_ne_true broken, decide_eq_true unset]
      rfl
    · rw [if_neg unset]
      refine List.filter_congr fun service _ => ?_
      simp only [keepsService, broken, Bool.not_false, unset, decide_false, Bool.false_or,
        Bool.true_and]

theorem filterOidcConfig_eq (services : List (Service Value))
    (oidc : List (Option (OidcTable Value))) :
    Configuration.filterOidcConfig services oidc =
      (oidc.filter fun entry => keepsId (services.map (·.id)) (entry.bind (·.serviceId))).map
        (·.getD ⟨none, ∅⟩) := by
  unfold Configuration.filterOidcConfig
  induction oidc with
  | nil => rfl
  | cons entry rest ih =>
      rw [List.filterMap_cons, List.filter_cons, ih]
      cases entry with
      | none => rfl
      | some table =>
          by_cases kept : ∀ id ∈ table.serviceId, id ∈ services.map (·.id)
          · have keeps : keepsId (services.map (·.id)) table.serviceId = true :=
              decide_eq_true kept
            simp only [if_pos kept, Option.bind_some, keeps, ↓reduceIte, List.map_cons,
              Option.getD_some]
          · have drops : keepsId (services.map (·.id)) table.serviceId = false :=
              decide_eq_false kept
            simp only [if_neg kept, Option.bind_some, drops, Bool.false_eq_true, ↓reduceIte]

/-- The positions after a filter, in terms of the indices before it. -/
theorem getElem?_filter_eq {Item : Type*} (keeps : Item → Bool) (items : List Item)
    (position : Nat) :
    (items.filter keeps)[position]? =
      (items.findIdxs keeps)[position]?.bind fun index => items[index]? := by
  by_cases within : position < (items.filter keeps).length
  · have found : position < (items.findIdxs keeps).length := by
      rwa [List.length_findIdxs, List.countP_eq_length_filter]
    rw [List.getElem?_eq_getElem within, List.getElem?_eq_getElem found, Option.bind_some,
      List.getElem_filter_eq_getElem_getElem_findIdxs within, List.getElem?_eq_getElem]
  · have missing : ¬ position < (items.findIdxs keeps).length := by
      rwa [List.length_findIdxs, List.countP_eq_length_filter]
    rw [List.getElem?_eq_none (Nat.le_of_not_lt within),
      List.getElem?_eq_none (Nat.le_of_not_lt missing), Option.bind_none]

/-- The indices of the items that are kept, among all indices. -/
theorem findIdxs_eq_filter_range {Item : Type*} (keeps : Item → Bool) (items : List Item) :
    items.findIdxs keeps = (List.range items.length).filter fun index =>
      items[index]?.any keeps := by
  induction items with
  | nil => rfl
  | cons item items ih =>
      rw [List.findIdxs_cons, List.findIdxs_start, ih, List.length_cons, List.range_succ_eq_map,
        List.filter_cons, List.filter_map]
      rfl

end Filters

section Pairing

variable (text : String → Value) (setting : Setting Value) (config : RawConfiguration Value)

/-- The configuration after the loader and the filters. -/
def filtered : Configuration Value :=
  Configuration.new text setting.filter
    (OidcLoader.call setting.discovery setting.marks config)

/-- The store with the configuration. -/
def stored : ConfigurationStore Value :=
  (ConfigurationStore.new setting.pathRouting).store setting.now (filtered text setting config)
    setting.ttl

/-- The indices of the services that are selected. -/
def keptServices : List Nat :=
  (config.services.map (Configuration.parseService text)).findIdxs (keepsService setting.filter)

/-- The identifiers of these services. -/
def keptIds : List String :=
  ((config.services.map (Configuration.parseService text)).filter
    (keepsService setting.filter)).map (·.id)

/-- The indices of the OIDC entries that are kept with them. -/
def keptEntries : List Nat :=
  (List.range (max config.services.length config.oidc.length)).filter fun index =>
    keepsId (keptIds text setting config) (entryId setting.discovery setting.marks config index)

/-- The source of the entry that arrives at a position, if one does. -/
def arriving (position : Nat) : Source :=
  ((keptEntries text setting config)[position]?.map (source setting.discovery config)).getD
    .nothing

/-- The entry that arrives with a service comes from the source of its own entry. -/
def SourceAligned : Prop :=
  ∀ position index, (keptServices text setting config)[position]? = some index →
    arriving text setting config position = source setting.discovery config index

/-- A service has the settings of one of the configuration, with the OIDC configuration
of its own source. The identifier in a shared table only serves the filter. -/
def Carries (service : Service Value) : Prop :=
  ∃ index raw, config.services[index]? = some raw ∧ service.id = Configuration.serviceId raw ∧
    service.oidc.fields = ((Configuration.ownOidc text raw).merge
      ⟨none, contents setting.discovery config (source setting.discovery config index)⟩).fields

/-- Every service that the store finds carries its own OIDC configuration, and every
selected service is found. -/
def CarriesOwn : Prop :=
  (∀ service, (stored text setting config).Finds service → Carries text setting config service) ∧
    ∀ index ∈ keptServices text setting config, ∀ raw ∈ config.services[index]?, ∀ moment,
      ((stored text setting config).findById moment (Configuration.serviceId raw)).isSome

variable {text setting config} {position : Nat} {service : Service Value}

theorem map_id_filtered :
    (filtered text setting config).services.map (·.id) = keptIds text setting config := by
  change (Configuration.filterServices _ _).map _ = _
  rw [filterServices_eq]
  rfl

/-- The filter keeps the entries at these indices of the loader's list. -/
theorem keptEntries_eq :
    keptEntries text setting config =
      (OidcLoader.call setting.discovery setting.marks config).oidc.findIdxs fun entry =>
        keepsId ((filtered text setting config).services.map (·.id))
          (entry.bind (·.serviceId)) := by
  have length : (OidcLoader.call setting.discovery setting.marks config).oidc.length =
      max config.services.length config.oidc.length := by
    change (List.map _ _).length = _
    rw [List.length_map, length_loadEntries]
  unfold keptEntries
  rw [findIdxs_eq_filter_range, length, map_id_filtered]
  refine List.filter_congr fun index within => ?_
  rw [List.mem_range, ← length] at within
  have found := List.getElem?_eq_getElem within
  rw [found, Option.any_some, serviceId_of_call found]

/-- Merging depends on the fields of the entry only, and without an entry nothing changes. -/
theorem merge_fields (self entry : OidcTable Value) (fields : SharedDict String Value)
    (same : entry.fields = fields) :
    (self.merge entry).fields = (self.merge ⟨none, fields⟩).fields := by
  subst same
  rfl

/-- The service at a position after the filters and the merge. -/
theorem getElem?_mergeOidc :
    (ConfigurationStore.mergeOidc (filtered text setting config))[position]? = some service ↔
      ∃ index raw, (keptServices text setting config)[position]? = some index ∧
        config.services[index]? = some raw ∧
        service = match (filtered text setting config).oidc[position]? with
          | some entry => { Configuration.parseService text raw with
              oidc := (Configuration.ownOidc text raw).merge entry }
          | none => Configuration.parseService text raw := by
  have kept : (filtered text setting config).services =
      (config.services.map (Configuration.parseService text)).filter
        (keepsService setting.filter) := filterServices_eq ..
  unfold ConfigurationStore.mergeOidc
  rw [List.getElem?_mapIdx, kept, getElem?_filter_eq]
  unfold keptServices
  cases found : ((config.services.map (Configuration.parseService text)).findIdxs
      (keepsService setting.filter))[position]? with
  | none =>
      constructor
      · intro missing
        cases missing
      · intro listed
        obtain ⟨index, raw, missing, _⟩ := listed
        cases missing
  | some index =>
      simp only [Option.bind_some, List.getElem?_map, Option.some.injEq, exists_and_left,
        exists_eq_left']
      cases config.services[index]? with
      | none =>
          constructor
          · intro missing
            cases missing
          · intro listed
            obtain ⟨raw, missing, _⟩ := listed
            cases missing
      | some raw =>
          simp only [Option.map_some, Option.some.injEq, exists_eq_left']
          exact eq_comm

/-- The merged service carries what arrives at its position. -/
theorem carries_arriving
    (present : (ConfigurationStore.mergeOidc (filtered text setting config))[position]? =
      some service) :
    ∃ index raw, (keptServices text setting config)[position]? = some index ∧
      config.services[index]? = some raw ∧ service.id = Configuration.serviceId raw ∧
      service.oidc.fields = ((Configuration.ownOidc text raw).merge
        ⟨none, contents setting.discovery config
          (arriving text setting config position)⟩).fields := by
  obtain ⟨index, raw, kept, found, equal⟩ := getElem?_mergeOidc.mp present
  refine ⟨index, raw, kept, found, ?_⟩
  have entries : (filtered text setting config).oidc[position]? =
      ((keptEntries text setting config)[position]?.bind fun index =>
        (OidcLoader.call setting.discovery setting.marks config).oidc[index]?).map
          (·.getD ⟨none, ∅⟩) := by
    change (Configuration.filterOidcConfig _ _)[position]? = _
    rw [filterOidcConfig_eq, List.getElem?_map, getElem?_filter_eq, keptEntries_eq]
    rfl
  subst equal
  unfold arriving
  rw [entries]
  cases arrives : (keptEntries text setting config)[position]? with
  | none => exact ⟨rfl, rfl⟩
  | some arrived =>
      rw [Option.bind_some, Option.map_some, Option.getD_some]
      cases loaded : (OidcLoader.call setting.discovery setting.marks config).oidc[arrived]? with
      | none =>
          rw [keptEntries_eq] at arrives
          have within := List.lt_add_of_mem_findIdxs _ (List.mem_of_getElem? arrives)
          rw [Nat.add_zero] at within
          exact absurd within (Nat.not_lt.mpr (List.getElem?_eq_none_iff.mp loaded))
      | some entry => exact ⟨rfl, merge_fields _ _ _ (fields_of_call loaded)⟩

/-- The services that are left have distinct identifiers. -/
theorem nodup_ids_mergeOidc (text : String → Value) (setting : Setting Value)
    (distinct : (config.services.map Configuration.serviceId).Nodup) :
    ((ConfigurationStore.mergeOidc (filtered text setting config)).map (·.id)).Nodup := by
  rw [ConfigurationStore.map_id_mergeOidc]
  change ((Configuration.filterServices setting.filter (config.services.map
    (Configuration.parseService text))).map (·.id)).Nodup
  rw [filterServices_eq]
  refine List.Nodup.sublist (List.filter_sublist.map _) ?_
  rwa [List.map_map]

/-- A selected service is found, with what arrives at its position. -/
theorem findById_kept (distinct : (config.services.map Configuration.serviceId).Nodup)
    {index : Nat} {raw : RawService Value}
    (kept : (keptServices text setting config)[position]? = some index)
    (found : config.services[index]? = some raw) (moment : Int) :
    ∃ service,
      (stored text setting config).findById moment (Configuration.serviceId raw) = some service ∧
      service.id = Configuration.serviceId raw ∧
      service.oidc.fields = ((Configuration.ownOidc text raw).merge
        ⟨none, contents setting.discovery config
          (arriving text setting config position)⟩).fields := by
  have nodup := nodup_ids_mergeOidc text setting distinct
  obtain ⟨service, present⟩ : ∃ service,
      (ConfigurationStore.mergeOidc (filtered text setting config))[position]? = some service :=
    ⟨_, getElem?_mergeOidc.mpr ⟨index, raw, kept, found, rfl⟩⟩
  obtain ⟨index', raw', kept', found', id, fields⟩ := carries_arriving present
  rw [kept] at kept'
  cases kept'
  rw [found] at found'
  cases found'
  refine ⟨service, ?_, id, fields⟩
  rw [← id]
  exact ConfigurationStore.findById_of_mem nodup (List.mem_of_getElem? present) moment

/-- Services that get entries of their own sources carry their own configuration. -/
theorem carriesOwn_of_aligned (distinct : (config.services.map Configuration.serviceId).Nodup)
    (aligned : SourceAligned text setting config) : CarriesOwn text setting config := by
  refine ⟨?_, ?_⟩
  · intro service finds
    have member := ConfigurationStore.mem_of_finds finds
    obtain ⟨position, present⟩ := List.getElem?_of_mem member
    obtain ⟨index, raw, kept, found, id, fields⟩ := carries_arriving present
    rw [aligned position index kept] at fields
    exact ⟨index, raw, found, id, fields⟩
  · intro index member raw found moment
    obtain ⟨position, kept⟩ := List.getElem?_of_mem member
    obtain ⟨service, present, _⟩ := findById_kept distinct kept found moment
    rw [present]
    rfl

/-- Where every selected service carries its own configuration, what arrives is merged
to the same fields as what the own source gives. -/
theorem fields_of_carriesOwn (position index : Nat) {raw : RawService Value}
    (distinct : (config.services.map Configuration.serviceId).Nodup)
    (carries : CarriesOwn text setting config)
    (kept : (keptServices text setting config)[position]? = some index)
    (found : config.services[index]? = some raw) :
    ((Configuration.ownOidc text raw).merge ⟨none, contents setting.discovery config
        (arriving text setting config position)⟩).fields =
      ((Configuration.ownOidc text raw).merge ⟨none, contents setting.discovery config
        (source setting.discovery config index)⟩).fields := by
  obtain ⟨service, present, id, fields⟩ := findById_kept distinct kept found 0
  obtain ⟨other, raw', found', id', own⟩ := carries.1 service ⟨0, .inl ⟨_, present⟩⟩
  have same : other = index := by
    have names : (config.services.map Configuration.serviceId)[other]? =
        (config.services.map Configuration.serviceId)[index]? := by
      rw [List.getElem?_map, List.getElem?_map, found, found', Option.map_some, Option.map_some,
        ← id, ← id']
    have within : other < (config.services.map Configuration.serviceId).length := by
      rw [List.length_map]
      exact (List.getElem?_eq_some_iff.mp found').1
    exact (List.getElem?_inj within distinct).mp names
  subst same
  rw [found] at found'
  cases found'
  rw [← fields, own]

end Pairing

section OwnIds

variable {text : String → Value} {setting : Setting Value} {config : RawConfiguration Value}

/-- Every service comes with an entry that has its identifier, as in the configurations
that `remote_v2.lua` builds with a copy of the discovered table for each service. -/
def OwnIds (config : RawConfiguration Value) : Prop :=
  config.oidc.map (·.map OidcTable.serviceId) =
    config.services.map fun raw => some (some (Configuration.serviceId raw))

/-- The entry of a service has its identifier. -/
theorem OwnIds.entryId_eq (own : OwnIds config) {index : Nat} {raw : RawService Value}
    (found : config.services[index]? = some raw) :
    entryId setting.discovery setting.marks config index =
      some (Configuration.serviceId raw) := by
  have atIndex := congrArg (·[index]?) own
  simp only [List.getElem?_map, found, Option.map_some] at atIndex
  cases given : config.oidc[index]? with
  | none =>
      rw [given] at atIndex
      cases atIndex
  | some entry =>
      rw [given] at atIndex
      cases entry with
      | none => cases atIndex
      | some table =>
          have id := Option.some.inj (Option.some.inj atIndex)
          unfold entryId source
          simp only [given, Option.join_some, Option.bind_some]
          exact id

/-- An identifier is among those of the selected services exactly for a selected one. -/
theorem mem_keptIds (distinct : (config.services.map Configuration.serviceId).Nodup)
    {raw : RawService Value} (member : raw ∈ config.services) :
    Configuration.serviceId raw ∈ keptIds text setting config ↔
      keepsService setting.filter (Configuration.parseService text raw) := by
  refine ⟨?_, ?_⟩
  · intro named
    obtain ⟨service, kept, same⟩ := List.mem_map.mp named
    obtain ⟨within, keeps⟩ := List.mem_filter.mp kept
    obtain ⟨other, present, parsed⟩ := List.mem_map.mp within
    subst parsed
    rw [← List.inj_on_of_nodup_map distinct present member same]
    exact keeps
  · intro keeps
    exact List.mem_map.mpr
      ⟨_, List.mem_filter.mpr ⟨List.mem_map_of_mem member, keeps⟩, rfl⟩

/-- Entries with the identifiers of their services are kept exactly with them. -/
theorem sourceAligned_of_ownIds
    (distinct : (config.services.map Configuration.serviceId).Nodup) (own : OwnIds config) :
    SourceAligned text setting config := by
  have length : config.oidc.length = config.services.length := by
    have equal := congrArg List.length own
    rwa [List.length_map, List.length_map] at equal
  have kept : keptEntries text setting config = keptServices text setting config := by
    unfold keptEntries keptServices
    rw [findIdxs_eq_filter_range, List.length_map, length, Nat.max_self]
    refine List.filter_congr fun index within => ?_
    have found := List.getElem?_eq_getElem (List.mem_range.mp within)
    rw [own.entryId_eq found, List.getElem?_map, found, Option.map_some, Option.any_some,
      Bool.eq_iff_iff, ← mem_keptIds distinct (List.mem_of_getElem? found)]
    simp only [keepsId, Option.mem_some_iff, forall_eq', decide_eq_true_eq]
  intro position index found
  unfold arriving
  rw [kept, found]
  rfl

end OwnIds

section Contents

variable (values : Source → SharedDict String Value)

/-- The same setting, with other findings of the discovery about the issuers it knows. -/
def Setting.withContents (setting : Setting Value) : Setting Value :=
  { setting with
    discovery := fun issuer =>
      (setting.discovery issuer).map fun _ => values (.discovered issuer) }

/-- The same configuration, with other contents of the entries given. -/
def withContents (config : RawConfiguration Value) : RawConfiguration Value :=
  { config with
    oidc := config.oidc.mapIdx fun index given =>
      given.map fun table => ⟨table.serviceId, values (.given index)⟩ }

variable (text : String → Value) (setting : Setting Value) (config : RawConfiguration Value)

theorem sameIssuers_withContents :
    SameIssuers setting.discovery (setting.withContents values).discovery := fun issuer => by
  change _ = ((setting.discovery issuer).map _).isSome
  rw [Option.isSome_map]

theorem sameIds_withContents : SameIds config.oidc (withContents values config).oidc := by
  apply List.ext_getElem?
  intro index
  unfold withContents
  rw [List.getElem?_map, List.getElem?_map, List.getElem?_mapIdx, Option.map_map]
  congr 1
  funext given
  cases given with
  | none => rfl
  | some table => rfl

theorem source_withContents (index : Nat) :
    source (setting.withContents values).discovery (withContents values config) index =
      source setting.discovery config index := by
  have ids := (sameIds_withContents values config).join index
  unfold source
  have issuers := (sameIssuers_withContents values setting).discoveredIssuer
  change (match (withContents values config).oidc[index]?.join with
    | some _ => Source.given index
    | none => match config.services[index]?.bind (OidcLoader.discoveredIssuer
        (setting.withContents values).discovery) with
      | some issuer => .discovered issuer
      | none => .nothing) = _
  rw [← funext issuers]
  cases given : config.oidc[index]?.join with
  | none =>
      rw [given] at ids
      rw [Option.map_eq_none_iff.mp ids.symm]
  | some table =>
      rw [given] at ids
      obtain ⟨other, present, _⟩ := Option.map_eq_some_iff.mp ids.symm
      rw [present]

/-- The identifiers in the entries do not depend on the contents. -/
theorem entryId_withContents (index : Nat) :
    entryId (setting.withContents values).discovery setting.marks (withContents values config)
        index = entryId setting.discovery setting.marks config index := by
  have written (issuer : String) :
      writtenIds (setting.withContents values).discovery (withContents values config) issuer =
        writtenIds setting.discovery config issuer := by
    unfold writtenIds
    simp only [source_withContents]
    rfl
  unfold entryId
  rw [source_withContents]
  cases source setting.discovery config index with
  | given given =>
      have ids := congrArg (·.bind id) ((sameIds_withContents values config).join given)
      simp only [Option.bind_map, Function.id_comp] at ids
      exact ids.symm
  | discovered issuer =>
      simp only [written]
  | nothing => rfl

theorem arriving_withContents (position : Nat) :
    arriving text (setting.withContents values) (withContents values config) position =
      arriving text setting config position := by
  have kept : keptEntries text (setting.withContents values) (withContents values config) =
      keptEntries text setting config := by
    have length : (withContents values config).oidc.length = config.oidc.length :=
      List.length_mapIdx
    unfold keptEntries
    rw [length]
    refine List.filter_congr fun index _ => ?_
    exact congrArg (keepsId _) (entryId_withContents values setting config index)
  unfold arriving
  rw [kept]
  congr 2
  funext index
  exact source_withContents values setting config index

/-- An issuer is discovered for a service only where the discovery finds something. -/
theorem isSome_of_discoveredIssuer {discovery : OidcLoader.Discovery Value}
    {service : RawService Value} {issuer : String}
    (discovered : OidcLoader.discoveredIssuer discovery service = some issuer) :
    (discovery issuer).isSome := by
  unfold OidcLoader.discoveredIssuer at discovered
  obtain ⟨proxy, _, endpoint⟩ := Option.bind_eq_some_iff.mp discovered
  obtain ⟨_, kept⟩ := Option.ite_none_right_eq_some.mp endpoint
  exact (Option.filter_eq_some_iff.mp kept).2

/-- The new contents are those of the sources that give any. -/
theorem contents_withContents (index : Nat) :
    contents (setting.withContents values).discovery (withContents values config)
        (source setting.discovery config index) =
      if source setting.discovery config index = .nothing then ∅
      else values (source setting.discovery config index) := by
  have entry : (withContents values config).oidc[index]?.join =
      config.oidc[index]?.join.map fun table => ⟨table.serviceId, values (.given index)⟩ := by
    unfold withContents
    rw [List.getElem?_mapIdx]
    cases config.oidc[index]? with
    | none => rfl
    | some given => rfl
  unfold source
  cases given : config.oidc[index]?.join with
  | some table =>
      change ((withContents values config).oidc[index]?.join.map _).getD ∅ = values (.given index)
      rw [entry, given]
      rfl
  | none =>
      cases discovered : config.services[index]?.bind
          (OidcLoader.discoveredIssuer setting.discovery) with
      | none => rfl
      | some issuer =>
          obtain ⟨service, _, named⟩ := Option.bind_eq_some_iff.mp discovered
          obtain ⟨found, known⟩ := Option.isSome_iff_exists.mp (isSome_of_discoveredIssuer named)
          change ((setting.discovery issuer).map _).getD ∅ = values (.discovered issuer)
          rw [known]
          rfl

variable {text setting config}

/-- The settings of a service itself name no issuer. -/
theorem ownOidc_issuer (raw : RawService Value) :
    (Configuration.ownOidc text raw).fields.get "issuer" = none := by
  have untouched (fields : SharedDict String Value) (name : String) (value : Option Value)
      (different : "issuer" ≠ name) :
      (Configuration.setField fields name value).get "issuer" = fields.get "issuer" := by
    cases value with
    | none => rfl
    | some value => exact SharedDict.get_set_of_ne _ _ different
  unfold Configuration.ownOidc
  simp only
  rw [untouched _ _ _ (by decide), untouched _ _ _ (by decide), untouched _ _ _ (by decide),
    SharedDict.get_empty]

/-- Contents that show in a merged service where they come from one source. -/
def signal (text : String → Value) (marked : Source) : Source → SharedDict String Value :=
  fun source => if source = marked then SharedDict.set ∅ "issuer" (text "") else ∅

/-- The issuer of a service shows whether the contents came from the marked source. -/
theorem issuer_signal (marked : Source) (given : marked ≠ .nothing) (source : Source)
    (raw : RawService Value) :
    (((Configuration.ownOidc text raw).merge
        ⟨none, if source = .nothing then ∅ else signal text marked source⟩).fields.get
          "issuer").isSome ↔ source = marked := by
  rw [OidcTable.get_merge, ownOidc_issuer, Option.or_none]
  unfold signal
  by_cases missing : source = .nothing
  · rw [if_pos missing, SharedDict.get_empty]
    exact iff_of_false nofun fun same => given (same ▸ missing)
  · rw [if_neg missing]
    by_cases same : source = marked
    · rw [if_pos same, SharedDict.get_set_self]
      exact iff_of_true rfl same
    · rw [if_neg same, SharedDict.get_empty]
      exact iff_of_false nofun same

/-- Where services carry their own configuration whatever the contents are, they get
entries of their own sources. -/
theorem sourceAligned_of_carriesOwn
    (distinct : (config.services.map Configuration.serviceId).Nodup)
    (carries : ∀ values, CarriesOwn text (setting.withContents values)
      (withContents values config)) :
    SourceAligned text setting config := by
  intro position index kept
  have arrived (values : Source → SharedDict String Value) :
      contents (setting.withContents values).discovery (withContents values config)
          (arriving text setting config position) =
        if arriving text setting config position = .nothing then ∅
        else values (arriving text setting config position) := by
    unfold arriving
    cases (keptEntries text setting config)[position]? with
    | none => rfl
    | some entry => exact contents_withContents values setting config entry
  obtain ⟨raw, found⟩ : ∃ raw, config.services[index]? = some raw := by
    have within := List.lt_add_of_mem_findIdxs _ (List.mem_of_getElem? kept)
    rw [List.length_map, Nat.add_zero] at within
    exact ⟨_, List.getElem?_eq_getElem within⟩
  -- whichever of the two sources gives something, the other one would have to be the same
  have agree (marked : Source) (given : marked ≠ .nothing) :
      arriving text setting config position = marked ↔
        source setting.discovery config index = marked := by
    have unchanged : ((withContents (signal text marked) config).services.map
        Configuration.serviceId).Nodup := distinct
    have fields := fields_of_carriesOwn position index unchanged (carries (signal text marked))
      kept found
    rw [arriving_withContents, source_withContents, arrived, contents_withContents] at fields
    rw [← issuer_signal marked given _ raw, fields, issuer_signal marked given _ raw]
  by_cases own : source setting.discovery config index = .nothing
  · by_contra different
    rw [own] at different
    exact different (((agree _ different).mp rfl).symm.trans own)
  · exact (agree _ own).mpr rfl

/-- For every configuration with distinct identifiers of its services and every selection:
services that get entries of their own sources carry their own OIDC configuration; and
where every contents of the entries and of the discovery would be carried by its own
service, each service gets an entry of its own source. -/
theorem carriesOwn_iff (text : String → Value) (setting : Setting Value)
    (config : RawConfiguration Value)
    (distinct : (config.services.map Configuration.serviceId).Nodup) :
    (SourceAligned text setting config → CarriesOwn text setting config) ∧
      ((∀ values, CarriesOwn text (setting.withContents values) (withContents values config)) ↔
        SourceAligned text setting config) := by
  refine ⟨carriesOwn_of_aligned distinct, sourceAligned_of_carriesOwn distinct, ?_⟩
  intro aligned values
  have unchanged : ((withContents values config).services.map Configuration.serviceId).Nodup :=
    distinct
  apply carriesOwn_of_aligned unchanged
  intro position index kept
  rw [arriving_withContents, source_withContents]
  exact aligned position index kept

end Contents

section Examples

/-- The gateway selects the services listed. -/
def selecting (servicesLimit : List String) (discovery : OidcLoader.Discovery String) :
    Setting String where
  discovery
  marks := ∅
  filter := ⟨servicesLimit, none, fun _ => true, fun _ _ => false⟩
  pathRouting := false
  now := 0
  ttl := none

/-- Two services with entries for two issuers, without identifiers. -/
def withoutIds : RawConfiguration String where
  services := [⟨some "1", some "oidc", none⟩, ⟨some "2", some "oidc", none⟩]
  oidc := [some ⟨none, SharedDict.set ∅ "issuer" "first"⟩,
    some ⟨none, SharedDict.set ∅ "issuer" "second"⟩]

/-- Two services with one issuer, which is to be discovered. -/
def sharedIssuer : RawConfiguration String where
  services := [⟨some "1", some "oidc", some ⟨none, some "https://idp", none, none, none⟩⟩,
    ⟨some "2", some "oidc", some ⟨none, some "https://idp", none, none, none⟩⟩]
  oidc := []

/-- The second service gets the entry of the first one, which was filtered out; and the
first one of two with a common issuer gets nothing when the second one is filtered out,
because the shared table has the identifier of the second one. -/
theorem carriesOwn_mispaired :
    (¬ CarriesOwn id (selecting ["2"] fun _ => none) withoutIds) ∧
      ¬ CarriesOwn id (selecting ["1"] fun _ => some (SharedDict.set ∅ "issuer" "https://idp"))
        sharedIssuer := by
  refine ⟨fun carries => ?_, fun carries => ?_⟩
  · have fields := fields_of_carriesOwn 0 1 (by decide) carries (by decide) rfl
    have issuer := congrArg (SharedDict.get · "issuer") fields
    revert issuer
    decide
  · have fields := fields_of_carriesOwn 0 0 (by decide) carries (by decide) rfl
    have issuer := congrArg (SharedDict.get · "issuer") fields
    revert issuer
    decide

/-- Three services: with an entry of its own, with an issuer that is to be discovered, and
with neither. -/
def withIds : RawConfiguration String where
  services := [⟨some "1", some "oidc", none⟩,
    ⟨some "2", some "oidc", some ⟨none, some "https://idp", none, none, none⟩⟩,
    ⟨some "3", none, none⟩]
  oidc := [some ⟨some "1", SharedDict.set ∅ "issuer" "first"⟩]

/-- The first service is filtered out together with its entry, and the other ones carry
their own entries. -/
theorem carriesOwn_iff_selected :
    CarriesOwn id (selecting ["2", "3"] fun _ => some (SharedDict.set ∅ "issuer" "https://idp"))
      withIds := by
  refine (carriesOwn_iff id (selecting ["2", "3"] fun _ => some (SharedDict.set ∅ "issuer"
    "https://idp")) withIds (by decide)).1 ?_
  intro position index kept
  have within : position < 2 := (List.getElem?_eq_some_iff.mp kept).1
  obtain first | second : position = 0 ∨ position = 1 := by omega
  · subst first
    cases kept
    rfl
  · subst second
    cases kept
    rfl

end Examples

end OidcPairing

end Apicast
