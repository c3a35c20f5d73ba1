import Apicast.Configuration.Store

/-!
# The OIDC loader

`configuration_loader/oidc.lua`: the OIDC entries that are missing in a configuration
are discovered. The discovery keeps one table for each issuer; all services of the
issuer get this one table, and each of them writes its identifier into it.
-/

namespace Apicast

open Foundation

/-- `service.proxy` of a configuration as it is decoded. -/
structure RawProxy (Value : Type*) where
  authenticationMethod : Option String
  oidcIssuerEndpoint : Option String
  jwtClaimWithClientId : Option Value
  jwtClaimWithClientIdType : Option Value
  hosts : Option (List String)

structure RawService (Value : Type*) where
  id : Option String
  backendVersion : Option String
  proxy : Option (RawProxy Value)

/-- A decoded configuration; an entry that is missing or `false` is none. -/
structure RawConfiguration (Value : Type*) where
  services : List (RawService Value)
  oidc : List (Option (OidcTable Value))

namespace OidcLoader

variable {Value : Type*}

/-- An OIDC entry as the loader leaves it: a table of its own, or the one that the
discovery keeps for an issuer. -/
inductive Entry (Value : Type*)
  | own (table : OidcTable Value)
  | discovered (issuer : String)

/-- What the discovery finds out about an issuer. -/
abbrev Discovery (Value : Type*) := String → Option (SharedDict String Value)

/-- The issuer that `load_service` discovers for a service. -/
def discoveredIssuer (discovery : Discovery Value) (service : RawService Value) : Option String :=
  service.proxy.bind fun proxy =>
    if proxy.authenticationMethod.or service.backendVersion = some "oidc" then
      proxy.oidcIssuerEndpoint.filter fun issuer => (discovery issuer).isSome
    else none

/-- `result.service_id = service.id` in the table of the issuer. -/
def markTable (marks : SharedDict String String) (issuer : String) (id : Option String) :
    SharedDict String String :=
  match id with
  | some id => marks.set issuer id
  | none => marks

/-- `oidc[i] or load_service(service) or { service_id = service.id }` -/
def loadEntry (discovery : Discovery Value) (service : RawService Value)
    (given : Option (OidcTable Value)) (marks : SharedDict String String) :
    Entry Value × SharedDict String String :=
  match given with
  | some table => (.own table, marks)
  | none =>
      match discoveredIssuer discovery service with
      | some issuer => (.discovered issuer, markTable marks issuer service.id)
      | none => (.own ⟨service.id, ∅⟩, marks)

/-- The loop of `_M.call`, with the identifiers that the discovered tables carry. -/
def loadEntries (discovery : Discovery Value) :
    List (RawService Value) → List (Option (OidcTable Value)) → SharedDict String String →
      List (Option (Entry Value)) × SharedDict String String
  | [], oidc, marks => (oidc.map fun given => given.map .own, marks)
  | service :: services, oidc, marks =>
      let (entry, marks) := loadEntry discovery service oidc.head?.join marks
      let (entries, marks) := loadEntries discovery services oidc.tail marks
      (some entry :: entries, marks)

/-- The table that an entry is, once all services have written to the shared ones. -/
def Entry.table (discovery : Discovery Value) (marks : SharedDict String String) :
    Entry Value → OidcTable Value
  | .own table => table
  | .discovered issuer => ⟨marks.get issuer, (discovery issuer).getD ∅⟩

/-- `_M.call`; `marks` are the identifiers left in the tables by earlier calls. -/
def call (discovery : Discovery Value) (marks : SharedDict String String)
    (config : RawConfiguration Value) : RawConfiguration Value :=
  let (entries, marks) := loadEntries discovery config.services config.oidc marks
  { config with oidc := entries.map fun entry => entry.map (·.table discovery marks) }

end OidcLoader

end Apicast
