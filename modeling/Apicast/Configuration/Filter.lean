import Apicast.Configuration.OidcLoader

/-!
# Parsing and filtering of a configuration

`configuration.lua`: the services that the environment selects, and the OIDC entries
that are kept with them.
-/

namespace Apicast

open Foundation

/-- What the environment selects services by: `APICAST_SERVICES_LIST` and
`APICAST_SERVICES_FILTER_BY_URL`, with the regular expressions of the web server. -/
structure ServiceFilter where
  servicesLimit : List String
  filterByUrl : Option String
  compiles : String → Bool
  isMatch : String → String → Bool

namespace Configuration

variable {Value : Type*} (text : String → Value)

/-- The identifier of a parsed service. -/
def serviceId (service : RawService Value) : String := service.id.getD "default"

/-- A field of a table; `nil` is no field. -/
def setField (fields : SharedDict String Value) (name : String) (value : Option Value) :
    SharedDict String Value :=
  match value with
  | some value => fields.set name value
  | none => fields

/-- The OIDC settings of the service itself. -/
def ownOidc (service : RawService Value) : OidcTable Value :=
  let issuer := (service.proxy.bind (·.oidcIssuerEndpoint)).map text
  let claim := service.proxy.bind (·.jwtClaimWithClientId)
  let claimType := (service.proxy.bind (·.jwtClaimWithClientIdType)).getD (text "plain")
  ⟨none, setField (setField (setField ∅ "issuer_endpoint" issuer) "claim_with_client_id" claim)
    "claim_with_client_id_type" (some claimType)⟩

/-- `_M.parse_service` -/
def parseService (service : RawService Value) : Service Value where
  id := serviceId service
  hosts := (service.proxy.bind (·.hosts)).getD ["localhost"]
  oidc := ownOidc text service

/-- `service.lua`, `_M:match_host` -/
def matchHost (filter : ServiceFilter) (service : Service Value) : Bool :=
  match filter.filterByUrl with
  | some regexp => filter.compiles regexp && service.hosts.any fun host =>
      filter.isMatch host regexp
  | none => false

/-- `_M.filter_services` with the selection of the environment. -/
def filterServices (filter : ServiceFilter) (services : List (Service Value)) :
    List (Service Value) :=
  if filter.filterByUrl.any fun regexp => !filter.compiles regexp then []
  else if filter.servicesLimit = [] ∧ filter.filterByUrl = none then services
  else services.filter fun service =>
    matchHost filter service || decide (service.id ∈ filter.servicesLimit)

/-- `_M.filter_oidc_config`: an entry without an identifier is kept. -/
def filterOidcConfig (services : List (Service Value)) (oidc : List (Option (OidcTable Value))) :
    List (OidcTable Value) :=
  oidc.filterMap fun entry =>
    match entry with
    | some table =>
        if ∀ id ∈ table.serviceId, id ∈ services.map (·.id) then some table else none
    | none => some ⟨none, ∅⟩

/-- `_M.new` -/
def new (filter : ServiceFilter) (configuration : RawConfiguration Value) : Configuration Value :=
  let services := filterServices filter (configuration.services.map (parseService text))
  { services
    oidc := filterOidcConfig services configuration.oidc
    ttl := none }

end Configuration

end Apicast
