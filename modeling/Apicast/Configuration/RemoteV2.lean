import Apicast.Configuration.Filter
import Apicast.Foundation.Number

/-!
# The remote loader

`configuration_loader/remote_v2.lua`: the services of an account are loaded all at once or
one by one. Both ways end in the filters of `configuration.lua`; the second one also asks
only for the services of `APICAST_SERVICES_LIST` and drops the hosts that do not match
`APICAST_SERVICES_FILTER_BY_URL` on its own.
-/

namespace Apicast

open Foundation

namespace RemoteV2

section Pages

variable {Item : Type*}

/-- One page of a list that the portal gives out in pages, the first of which has number 1. -/
def page (items : List Item) (perPage current : Nat) : List Item :=
  (items.drop (perPage * (current - 1))).take perPage

/-- Ask for page after page until one is not full; the first argument bounds the number of
pages that are asked for. -/
def allPages (perPage : Nat) (page : Nat → List Item) : Nat → Nat → Option (List Item)
  | 0, _ => none
  | pages + 1, current =>
      let results := page current
      if results.length = perPage then
        (allPages perPage page pages (current + 1)).map (results ++ ·)
      else some results

/-- From any page on, enough pages bring what is left of the list. -/
theorem allPages_page {items : List Item} {perPage : Nat} (filled : 0 < perPage) (pages : Nat) :
    ∀ current, items.length < perPage * (current + pages + 1) →
      allPages perPage (page items perPage) (pages + 1) (current + 1) =
        some (items.drop (perPage * current)) := by
  have results (current : Nat) : page items perPage (current + 1) =
      (items.drop (perPage * current)).take perPage := by
    unfold page
    rw [Nat.add_sub_cancel]
  -- a page that is not full is the rest of the list
  have last {current : Nat}
      (partly : ((items.drop (perPage * current)).take perPage).length ≠ perPage) :
      (items.drop (perPage * current)).take perPage = items.drop (perPage * current) := by
    rw [List.length_take] at partly
    exact List.take_of_length_le (by omega)
  induction pages with
  | zero =>
      intro current short
      have partly : ((items.drop (perPage * current)).take perPage).length ≠ perPage := by
        rw [List.length_take, List.length_drop]
        rw [Nat.add_zero, Nat.mul_succ] at short
        omega
      unfold allPages
      dsimp only
      rw [results, if_neg partly, last partly]
  | succ pages ih =>
      intro current short
      unfold allPages
      dsimp only
      rw [results]
      split
      · have next : current + 1 + pages + 1 = current + (pages + 1) + 1 := by omega
        rw [ih (current + 1) (next ▸ short), Option.map_some, Nat.mul_succ, ← List.drop_drop,
          List.take_append_drop]
      · rename_i partly
        rw [last partly]

/-- All pages together are the list. -/
theorem allPages_eq {items : List Item} {perPage : Nat} (filled : 0 < perPage) :
    allPages perPage (page items perPage) (items.length + 1) 1 = some items := by
  have enough : items.length < perPage * (0 + items.length + 1) := by
    rw [Nat.zero_add]
    exact Nat.lt_of_lt_of_le (Nat.lt_succ_self _) (Nat.le_mul_of_pos_left _ filled)
  rw [allPages_page filled items.length 0 enough, Nat.mul_zero, List.drop_zero]

end Pages

variable {Value : Type*}

/-- A service of the portal with the configuration that is downloaded for it. A longer
identifier would not be written with all of its digits in the address of the download. -/
structure AccountService (Value : Type*) where
  id : Nat
  content : RawService Value
  exact : Number.Exact id
  identified : content.id = some (Number.tostring id)

structure Account (Value : Type*) where
  services : List (AccountService Value)
  distinct : (services.map (·.id)).Nodup

/-- The variables of the environment, with the library functions that read them. -/
structure Environment where
  /-- `APICAST_SERVICES_LIST`, or the deprecated `APICAST_SERVICES` -/
  servicesList : Option String
  /-- `APICAST_SERVICES_FILTER_BY_URL` -/
  filterByUrl : Option String
  compiles : String → Bool
  isMatch : String → String → Bool
  /-- `re.split(services, ',', 'oj')` -/
  split : String → List String
  /-- `tonumber`, as far as numbers can be identifiers -/
  tonumber : String → Option Nat
  tonumber_tostring : ∀ id : Nat, Number.Exact id → tonumber (Number.tostring id) = some id

namespace Environment

/-- `configuration.lua`, `_M.services_limit` -/
def servicesLimit (env : Environment) : List String :=
  match env.servicesList with
  | none => []
  | some subset => if subset = "" then [] else env.split subset

/-- What the filters of `configuration.lua` select by. -/
def filter (env : Environment) : ServiceFilter :=
  ⟨env.servicesLimit, env.filterByUrl, env.compiles, env.isMatch⟩

/-- `services_subset`; what is not a number stays without an identifier. -/
def servicesSubset (env : Environment) : Option (List (Option Nat)) :=
  match env.servicesList with
  | none => none
  | some services => if services = "" then none else some ((env.split services).map env.tonumber)

/-- The expression with which services are dropped while they are loaded: one that does not
compile is not used. -/
def serviceRegexpFilter (env : Environment) : Option String := env.filterByUrl.filter env.compiles

/-- The services that are listed, when a list is given. -/
def listed (env : Environment) : Option (List String) :=
  env.servicesList.bind fun list => if list = "" then none else some (env.split list)

/-- The expression, if there is one, compiles. -/
def FilterCompiles (env : Environment) : Prop := ∀ regexp ∈ env.filterByUrl, env.compiles regexp

theorem servicesLimit_eq (env : Environment) : env.servicesLimit = env.listed.getD [] := by
  unfold servicesLimit listed
  cases env.servicesList with
  | none => rfl
  | some list =>
      dsimp only [Option.bind_some]
      split <;> rfl

theorem servicesSubset_eq (env : Environment) :
    env.servicesSubset = env.listed.map (·.map env.tonumber) := by
  unfold servicesSubset listed
  cases env.servicesList with
  | none => rfl
  | some list =>
      dsimp only [Option.bind_some]
      split <;> rfl

end Environment

section Loader

variable (text : String → Value) (discovery : OidcLoader.Discovery Value)
  (marks : SharedDict String String) (env : Environment) (account : Account Value)

/-- `get_oidc_issuer_endpoint` -/
def oidcIssuerEndpoint (content : RawService Value) : Option String :=
  content.proxy.bind fun proxy =>
    if proxy.authenticationMethod = some "oidc" then proxy.oidcIssuerEndpoint else none

/-- `parse_proxy_configs` -/
def parseProxyConfigs (contents : List (RawService Value)) : RawConfiguration Value where
  services := contents
  oidc := contents.map fun content =>
    some ⟨some (content.id.getD "nil"), ((oidcIssuerEndpoint content).bind discovery).getD ∅⟩

/-- `_M:index` -/
def index : Option (RawConfiguration Value) :=
  let proxyConfigs := account.services.map (·.content)
  (allPages 500 (page proxyConfigs 500) (proxyConfigs.length + 1) 1).map
    (parseProxyConfigs discovery)

/-- `_M:services`: the identifiers of the services that are asked for. -/
def services : Option (List (Option Nat)) :=
  match env.servicesSubset with
  | some services => some services
  | none =>
      let services := account.services.map fun service => some service.id
      allPages 500 (page services 500) (services.length + 1) 1

/-- `_M:config`; the table of an issuer is the one that the discovery keeps. -/
def config (id : Option Nat) (serviceRegexpFilter : Option String) :
    Option (RawService Value × Option (OidcTable Value)) :=
  id.bind fun id => (account.services.find? fun service => service.id = id).bind fun service =>
    let configService := Configuration.parseService text service.content
    let selection := { env.filter with filterByUrl := serviceRegexpFilter }
    if serviceRegexpFilter.isSome && !Configuration.matchHost selection configService then none
    else
      some (service.content, (oidcIssuerEndpoint service.content).bind fun issuer =>
        (discovery issuer).map fun found => ⟨marks.get issuer, found⟩)

/-- `_M:index_per_service` -/
def indexPerService : Option (RawConfiguration Value) :=
  (services env account).map fun ids =>
    let configs := ids.filterMap fun id =>
      config text discovery marks env account id env.serviceRegexpFilter
    { services := configs.map (·.1), oidc := configs.map (·.2) }

/-- The services of the configuration that is built from what was loaded. -/
def kept (loaded : RawConfiguration Value) : List (Service Value) :=
  (Configuration.new text env.filter loaded).services

end Loader

section Kept

variable {text : String → Value} {discovery : OidcLoader.Discovery Value}
  {marks : SharedDict String String} {env : Environment} {account : Account Value}

/-- The service that a configuration is parsed to. -/
def AccountService.parsed (text : String → Value) (member : AccountService Value) :
    Service Value :=
  Configuration.parseService text member.content

theorem AccountService.parsed_id (member : AccountService Value) :
    (member.parsed text).id = Number.tostring member.id := by
  change member.content.id.getD "default" = _
  rw [member.identified, Option.getD_some]

/-- The services of an account are told apart by what they are parsed to. -/
theorem parsed_injective {member other : AccountService Value}
    (present : member ∈ account.services) (otherPresent : other ∈ account.services)
    (equal : member.parsed text = other.parsed text) : member = other := by
  apply List.inj_on_of_nodup_map account.distinct present otherPresent
  have ids := congrArg Service.id equal
  rw [member.parsed_id, other.parsed_id] at ids
  exact Int.ofNat.inj (Number.tostring_injective member.exact other.exact ids)

/-- The environment lets a service of the configuration pass. -/
def Passes (env : Environment) (service : Service Value) : Prop :=
  env.servicesLimit = [] ∧ env.filterByUrl = none ∨
    Configuration.matchHost env.filter service ∨ service.id ∈ env.servicesLimit

theorem mem_kept {loaded : RawConfiguration Value} {service : Service Value} :
    service ∈ kept text env loaded ↔
      env.FilterCompiles ∧ service ∈ loaded.services.map (Configuration.parseService text) ∧
        Passes env service := by
  have broken : (env.filter.filterByUrl.any fun regexp => !env.filter.compiles regexp) = true ↔
      ¬ env.FilterCompiles := by
    unfold Environment.FilterCompiles
    rw [Option.any_eq_true]
    simp only [Environment.filter, Bool.not_eq_true', Option.mem_def, not_forall, Bool.not_eq_true,
      exists_prop]
  change service ∈ Configuration.filterServices env.filter _ ↔ _
  unfold Configuration.filterServices Passes
  by_cases compiles : env.FilterCompiles
  · rw [if_neg (broken.not.mpr (not_not.mpr compiles))]
    by_cases unset : env.servicesLimit = [] ∧ env.filterByUrl = none
    · simp only [Environment.filter, unset, and_self, ↓reduceIte, compiles, true_or, and_true,
        true_and]
    · have selecting : ¬ (env.filter.servicesLimit = [] ∧ env.filter.filterByUrl = none) := unset
      rw [if_neg selecting, List.mem_filter, Bool.or_eq_true, decide_eq_true_iff]
      simp only [compiles, unset, false_or, true_and]
      rfl
  · rw [if_pos (broken.mpr compiles)]
    simp only [List.not_mem_nil, compiles, false_and]

theorem index_eq : index discovery account =
    some (parseProxyConfigs discovery (account.services.map (·.content))) := by
  unfold index
  dsimp only
  rw [allPages_eq (by decide), Option.map_some]

/-- Loaded at once, the services of the account are kept that may pass. -/
theorem mem_index {member : AccountService Value} (present : member ∈ account.services) :
    member.parsed text ∈
        kept text env (parseProxyConfigs discovery (account.services.map (·.content))) ↔
      env.FilterCompiles ∧ Passes env (member.parsed text) := by
  have loaded : member.parsed text ∈ (account.services.map (·.content)).map
      (Configuration.parseService text) :=
    List.mem_map_of_mem (List.mem_map_of_mem present)
  rw [mem_kept]
  exact and_congr_right fun _ => and_iff_right loaded

/-- The identifiers that are asked for: all of them or the listed numbers. -/
def asked (env : Environment) (account : Account Value) : List (Option Nat) :=
  match env.listed with
  | some ids => ids.map env.tonumber
  | none => account.services.map fun service => some service.id

theorem services_eq : services env account = some (asked env account) := by
  unfold services asked
  rw [env.servicesSubset_eq]
  cases env.listed with
  | some ids => rfl
  | none => exact allPages_eq (by decide)

/-- The download of a service of the account succeeds, unless the expression drops it. -/
theorem config_member {member : AccountService Value} (present : member ∈ account.services)
    (regexp : Option String) :
    (config text discovery marks env account (some member.id) regexp).map (·.1) =
      if regexp = none ∨ Configuration.matchHost { env.filter with filterByUrl := regexp }
        (member.parsed text) then some member.content else none := by
  have located : (account.services.find? fun service => service.id = member.id) = some member := by
    have found : (account.services.find? fun service => service.id = member.id).isSome :=
      List.find?_isSome.mpr ⟨member, present, decide_eq_true rfl⟩
    obtain ⟨first, first_eq⟩ := Option.isSome_iff_exists.mp found
    have same := List.find?_some first_eq
    rw [decide_eq_true_iff] at same
    rw [first_eq, List.inj_on_of_nodup_map account.distinct (List.mem_of_find?_eq_some first_eq)
      present same]
  have dropped : (regexp.isSome && !Configuration.matchHost
      { env.filter with filterByUrl := regexp } (member.parsed text)) = true ↔
      ¬ (regexp = none ∨ Configuration.matchHost { env.filter with filterByUrl := regexp }
        (member.parsed text)) := by
    rw [Bool.and_eq_true, Option.isSome_iff_ne_none, Bool.not_eq_true', not_or, Bool.not_eq_true]
  unfold config
  rw [Option.bind_some, located, Option.bind_some]
  dsimp only
  split
  · rename_i excluded
    exact (if_neg (dropped.mp excluded)).symm
  · rename_i included
    exact (if_pos (not_not.mp (dropped.not.mp included))).symm

/-- Only services of the account can be downloaded. -/
theorem exists_member_of_config {id : Option Nat} {regexp : Option String}
    {pair : RawService Value × Option (OidcTable Value)}
    (downloaded : config text discovery marks env account id regexp = some pair) :
    ∃ member ∈ account.services, id = some member.id := by
  obtain ⟨number, numbered, answered⟩ := Option.bind_eq_some_iff.mp downloaded
  obtain ⟨member, located, _⟩ := Option.bind_eq_some_iff.mp answered
  have same := List.find?_some located
  rw [decide_eq_true_iff] at same
  rw [numbered]
  exact ⟨member, List.mem_of_find?_eq_some located, congrArg some same.symm⟩

/-- A service that is loaded on its own was asked for and matches the expression, if there is
one that compiles. -/
def Loaded (text : String → Value) (env : Environment) (account : Account Value)
    (member : AccountService Value) : Prop :=
  some member.id ∈ asked env account ∧
    (env.serviceRegexpFilter = none ∨ Configuration.matchHost
      { env.filter with filterByUrl := env.serviceRegexpFilter } (member.parsed text))

variable (text discovery marks env account) in
theorem exists_indexPerService :
    ∃ loaded, indexPerService text discovery marks env account = some loaded :=
  ⟨_, congrArg (Option.map _) services_eq⟩

/-- The services that were downloaded are those that were asked for and not dropped. -/
theorem services_of_indexPerService {loaded : RawConfiguration Value}
    (executed : indexPerService text discovery marks env account = some loaded) :
    loaded.services = (asked env account).filterMap fun id =>
      (config text discovery marks env account id env.serviceRegexpFilter).map (·.1) := by
  unfold indexPerService at executed
  rw [services_eq, Option.map_some] at executed
  rw [← Option.some.inj executed]
  exact List.map_filterMap

/-- Loaded one by one, the services that were loaded are kept if they may pass. -/
theorem mem_indexPerService {loaded : RawConfiguration Value}
    (executed : indexPerService text discovery marks env account = some loaded)
    {member : AccountService Value} (present : member ∈ account.services) :
    member.parsed text ∈ kept text env loaded ↔
      env.FilterCompiles ∧ Loaded text env account member ∧ Passes env (member.parsed text) := by
  rw [mem_kept]
  apply and_congr_right
  intro _
  apply and_congr_left
  intro _
  rw [services_of_indexPerService executed, List.mem_map]
  constructor
  · rintro ⟨content, loaded, same⟩
    obtain ⟨id, wanted, downloaded⟩ := List.mem_filterMap.mp loaded
    obtain ⟨pair, result, _⟩ := Option.map_eq_some_iff.mp downloaded
    obtain ⟨other, otherPresent, rfl⟩ := exists_member_of_config result
    rw [config_member otherPresent, Option.ite_none_right_eq_some] at downloaded
    obtain ⟨matching, content_eq⟩ := downloaded
    obtain rfl : other = member := by
      have equal : other.parsed text = member.parsed text := by
        rw [← same, ← Option.some.inj content_eq]
        rfl
      exact parsed_injective otherPresent present equal
    exact ⟨wanted, matching⟩
  · intro ⟨wanted, matching⟩
    refine ⟨member.content, List.mem_filterMap.mpr ⟨some member.id, wanted, ?_⟩, rfl⟩
    rw [config_member present, if_pos matching]

/-- What is documented: all services when neither filter is set, none when the expression does
not compile, otherwise those whose host matches and those that are listed. -/
def Documented (text : String → Value) (env : Environment) (account : Account Value)
    (service : Service Value) : Prop :=
  env.FilterCompiles ∧ (∃ member ∈ account.services, member.parsed text = service) ∧
    (env.listed = none ∧ env.filterByUrl = none ∨ Configuration.matchHost env.filter service ∨
      ∃ ids ∈ env.listed, service.id ∈ ids)

/-- A list alone names a service, and together with an expression it names the services that
match and no others. -/
def FiltersAgree (text : String → Value) (env : Environment) (account : Account Value) : Prop :=
  env.FilterCompiles → ∀ ids ∈ env.listed,
    (env.filterByUrl = none → ids ≠ [] ∨ account.services = []) ∧
      (env.filterByUrl ≠ none → ∀ member ∈ account.services,
        (Configuration.matchHost env.filter (member.parsed text) →
          some member.id ∈ ids.map env.tonumber) ∧
        (Number.tostring member.id ∈ ids →
          Configuration.matchHost env.filter (member.parsed text)))

theorem exists_member_of_index {service : Service Value}
    (selected : service ∈
      kept text env (parseProxyConfigs discovery (account.services.map (·.content)))) :
    ∃ member ∈ account.services, member.parsed text = service := by
  obtain ⟨content, loaded, rfl⟩ := List.mem_map.mp (mem_kept.mp selected).2.1
  obtain ⟨member, present, rfl⟩ := List.mem_map.mp loaded
  exact ⟨member, present, rfl⟩

theorem exists_member_of_indexPerService {loaded : RawConfiguration Value}
    (executed : indexPerService text discovery marks env account = some loaded)
    {service : Service Value} (selected : service ∈ kept text env loaded) :
    ∃ member ∈ account.services, member.parsed text = service := by
  obtain ⟨content, loaded, rfl⟩ := List.mem_map.mp (mem_kept.mp selected).2.1
  rw [services_of_indexPerService executed] at loaded
  obtain ⟨id, _, downloaded⟩ := List.mem_filterMap.mp loaded
  obtain ⟨pair, result, _⟩ := Option.map_eq_some_iff.mp downloaded
  obtain ⟨member, present, rfl⟩ := exists_member_of_config result
  rw [config_member present, Option.ite_none_right_eq_some] at downloaded
  exact ⟨member, present, congrArg _ (Option.some.inj downloaded.2)⟩

theorem loaded_iff (compiles : env.FilterCompiles) {member : AccountService Value} :
    Loaded text env account member ↔
      some member.id ∈ asked env account ∧
        (env.filterByUrl = none ∨ Configuration.matchHost env.filter (member.parsed text)) := by
  have used : env.serviceRegexpFilter = env.filterByUrl := by
    unfold Environment.serviceRegexpFilter
    cases given : env.filterByUrl with
    | none => rfl
    | some regexp => rw [Option.filter_some, if_pos (compiles regexp given)]
  unfold Loaded
  rw [used]
  rfl

theorem matchHost_of_none {service : Service Value} (unset : env.filterByUrl = none) :
    Configuration.matchHost env.filter service = false := by
  unfold Configuration.matchHost Environment.filter
  rw [unset]

/-- For every member, both ways and the documentation agree. -/
def MembersAgree (text : String → Value) (env : Environment) (account : Account Value) : Prop :=
  ∀ member ∈ account.services,
    (Passes env (member.parsed text) ↔
      Loaded text env account member ∧ Passes env (member.parsed text)) ∧
    (Passes env (member.parsed text) ↔ Documented text env account (member.parsed text))

/-- What is kept is told apart by the members of the account. -/
theorem kept_agree_iff (compiles : env.FilterCompiles) {loaded : RawConfiguration Value}
    (executed : indexPerService text discovery marks env account = some loaded) :
    (∀ service, (service ∈ kept text env (parseProxyConfigs discovery
          (account.services.map (·.content))) ↔ service ∈ kept text env loaded) ∧
        (service ∈ kept text env (parseProxyConfigs discovery
          (account.services.map (·.content))) ↔ Documented text env account service)) ↔
      MembersAgree text env account := by
  constructor
  · intro agree member present
    have same := agree (member.parsed text)
    rw [mem_index present, mem_indexPerService executed present] at same
    simpa only [compiles, true_and] using same
  · intro agree service
    by_cases listed : ∃ member ∈ account.services, member.parsed text = service
    · obtain ⟨member, present, rfl⟩ := listed
      rw [mem_index present, mem_indexPerService executed present]
      simpa only [compiles, true_and] using agree member present
    · have notWhole : service ∉ kept text env (parseProxyConfigs discovery
          (account.services.map (·.content))) :=
        fun selected => listed (exists_member_of_index selected)
      have notSingle : service ∉ kept text env loaded :=
        fun selected => listed (exists_member_of_indexPerService executed selected)
      exact ⟨iff_of_false notWhole notSingle,
        iff_of_false notWhole fun documented => listed documented.2.1⟩

theorem documented_iff (compiles : env.FilterCompiles) {member : AccountService Value}
    (present : member ∈ account.services) :
    Documented text env account (member.parsed text) ↔
      env.listed = none ∧ env.filterByUrl = none ∨
        Configuration.matchHost env.filter (member.parsed text) ∨
          ∃ ids ∈ env.listed, Number.tostring member.id ∈ ids := by
  unfold Documented
  rw [member.parsed_id]
  exact (and_iff_right compiles).trans (and_iff_right ⟨member, present, rfl⟩)

/-- Without a list there is nothing to disagree about. -/
theorem membersAgree_of_none (compiles : env.FilterCompiles) (unlisted : env.listed = none) :
    MembersAgree text env account := by
  intro member present
  rw [loaded_iff compiles, documented_iff compiles present]
  unfold Passes asked
  rw [env.servicesLimit_eq, unlisted]
  have wanted : some member.id ∈ account.services.map fun service => some service.id :=
    List.mem_map_of_mem present
  simp only [Option.getD_none, wanted, true_and, List.not_mem_nil, or_false, Option.mem_def,
    reduceCtorEq, false_and, exists_false, and_self]

/-- A listed service is asked for. -/
theorem mem_map_tonumber {ids : List String} {member : AccountService Value}
    (named : Number.tostring member.id ∈ ids) : some member.id ∈ ids.map env.tonumber :=
  List.mem_map.mpr ⟨_, named, env.tonumber_tostring member.id member.exact⟩

/-- With a list alone, the list has to name a service. -/
theorem membersAgree_of_list (compiles : env.FilterCompiles) {ids : List String}
    (listed : env.listed = some ids) (unset : env.filterByUrl = none) :
    MembersAgree text env account ↔ ids ≠ [] ∨ account.services = [] := by
  have passes (member : AccountService Value) : Passes env (member.parsed text) ↔
      ids = [] ∨ Number.tostring member.id ∈ ids := by
    unfold Passes
    rw [env.servicesLimit_eq, listed, member.parsed_id, matchHost_of_none unset]
    simp only [Option.getD_some, unset, and_true, Bool.false_eq_true, false_or]
  have documented {member : AccountService Value} (present : member ∈ account.services) :
      Documented text env account (member.parsed text) ↔ Number.tostring member.id ∈ ids := by
    rw [documented_iff compiles present, listed, matchHost_of_none unset]
    simp only [reduceCtorEq, false_and, Bool.false_eq_true, Option.mem_some_iff, exists_eq_left',
      false_or]
  constructor
  · intro agree
    by_contra neither
    obtain ⟨empty, some_member⟩ := not_or.mp neither
    obtain ⟨member, present⟩ := List.exists_mem_of_ne_nil _ some_member
    have named := (agree member present).2.mp ((passes member).mpr (Or.inl (not_not.mp empty)))
    rw [documented present, not_not.mp empty] at named
    cases named
  · rintro (nonempty | none_present) member present
    · rw [loaded_iff compiles, passes, documented present]
      have wanted : Number.tostring member.id ∈ ids → some member.id ∈ asked env account := by
        unfold asked
        rw [listed]
        exact mem_map_tonumber
      simp only [nonempty, unset, false_or, true_or, and_true, iff_self, iff_and_self]
      exact wanted
    · rw [none_present] at present
      cases present

/-- With a list and an expression, the list has to name the services that match. -/
theorem membersAgree_of_both (compiles : env.FilterCompiles) {ids : List String}
    (listed : env.listed = some ids) (given : env.filterByUrl ≠ none) :
    MembersAgree text env account ↔ ∀ member ∈ account.services,
      (Configuration.matchHost env.filter (member.parsed text) →
          some member.id ∈ ids.map env.tonumber) ∧
        (Number.tostring member.id ∈ ids →
          Configuration.matchHost env.filter (member.parsed text)) := by
  apply forall₂_congr
  intro member present
  have passes : Passes env (member.parsed text) ↔
      Configuration.matchHost env.filter (member.parsed text) ∨
        Number.tostring member.id ∈ ids := by
    unfold Passes
    rw [env.servicesLimit_eq, listed, member.parsed_id]
    simp only [Option.getD_some, given, and_false, false_or]
  have documented : Documented text env account (member.parsed text) ↔
      Configuration.matchHost env.filter (member.parsed text) ∨
        Number.tostring member.id ∈ ids := by
    rw [documented_iff compiles present, listed]
    simp only [reduceCtorEq, false_and, Option.mem_some_iff, exists_eq_left', false_or]
  have loaded : Loaded text env account member ↔
      some member.id ∈ ids.map env.tonumber ∧
        Configuration.matchHost env.filter (member.parsed text) := by
    rw [loaded_iff compiles]
    unfold asked
    rw [listed]
    exact and_congr_right fun _ => or_iff_right given
  rw [loaded, passes, documented, and_iff_left Iff.rfl]
  constructor
  · intro agree
    exact ⟨fun matching => (agree.mp (Or.inl matching)).1.1,
      fun named => (agree.mp (Or.inr named)).1.2⟩
  · intro ⟨wanted, matching⟩
    refine ⟨fun passing => ⟨?_, passing⟩, fun both => both.2⟩
    have matched := passing.elim id matching
    exact ⟨wanted matched, matched⟩

/-- For every account and every environment: both ways of loading keep the documented services
exactly when the filters agree. -/
theorem sameServices_iff : ∃ whole single, index discovery account = some whole ∧
    indexPerService text discovery marks env account = some single ∧
      ((∀ service, (service ∈ kept text env whole ↔ service ∈ kept text env single) ∧
          (service ∈ kept text env whole ↔ Documented text env account service)) ↔
        FiltersAgree text env account) := by
  obtain ⟨single, executed⟩ := exists_indexPerService text discovery marks env account
  refine ⟨_, single, index_eq, executed, ?_⟩
  by_cases compiles : env.FilterCompiles
  · rw [kept_agree_iff compiles executed]
    unfold FiltersAgree
    rw [forall_prop_of_true compiles]
    cases listed : env.listed with
    | none => exact iff_of_true (membersAgree_of_none compiles listed) nofun
    | some ids =>
        by_cases unset : env.filterByUrl = none
        · rw [membersAgree_of_list compiles listed unset]
          simp only [Option.mem_some_iff, forall_eq', unset, forall_const, ne_eq, not_true_eq_false,
            IsEmpty.forall_iff, and_true]
        · rw [membersAgree_of_both compiles listed unset]
          simp only [Option.mem_some_iff, forall_eq', unset, IsEmpty.forall_iff, ne_eq,
            not_false_eq_true, forall_const, true_and]
  · have broken (service : Service Value) (loaded : RawConfiguration Value) :
        service ∉ kept text env loaded := fun selected => compiles (mem_kept.mp selected).1
    refine iff_of_true ?_ fun compiled => absurd compiled compiles
    intro service
    exact ⟨iff_of_false (broken _ _) (broken _ _),
      iff_of_false (broken _ _) fun documented => compiles documented.1⟩

end Kept

/-- A service with one host. -/
private def hosting (id : Nat) (host : String) (exact : Number.Exact id) :
    AccountService String where
  id := id
  content := ⟨some (Number.tostring id), none, some ⟨none, none, none, none, some [host]⟩⟩
  exact := exact
  identified := rfl

private def twoServices : Account String where
  services := [hosting 1 "a" (by decide), hosting 2 "b" (by decide)]
  distinct := by decide

/-- The host of the first service is selected, and the second service is listed. -/
private def bothFilters : Environment where
  servicesList := some "2"
  filterByUrl := some "a"
  compiles := fun _ => true
  isMatch := fun host regexp => decide (host = regexp)
  split := Delimited.pieces ','
  tonumber := Number.tonumber
  tonumber_tostring := fun _ => Number.tonumber_tostring

/-- A service that matches and another one that is listed: loaded at once, both are kept, as it
is documented, and loaded one by one, none is. -/
theorem sameServices_both : ∃ whole single, index (fun _ => none) twoServices = some whole ∧
    indexPerService id (fun _ => none) ∅ bothFilters twoServices = some single ∧
      (kept id bothFilters whole).map (·.id) = ["1", "2"] ∧
        (kept id bothFilters single).map (·.id) = [] :=
  ⟨_, _, rfl, rfl, by decide, by decide⟩

end RemoteV2

end Apicast
