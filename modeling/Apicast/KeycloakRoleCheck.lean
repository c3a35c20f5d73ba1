import Apicast.Foundation.LuaValue
import Apicast.JwtClaimCheck

/-!
# The role check for Keycloak

`policy/keycloak_role_check/keycloak_role_check.lua`. A scope is a pattern for requests with the
realm roles and the client roles that they need. The roles are looked up in the claims of the token,
which may have any shape.
-/

namespace Apicast.KeycloakRoleCheck

open Foundation
open JwtClaimCheck (Library mappingRuleMatches anyMethod)

structure RealmRole where
  name : String
  nameType : Option TemplateType
  deriving DecidableEq, Repr

structure ClientRole where
  name : String
  nameType : Option TemplateType
  client : String
  clientType : Option TemplateType
  deriving DecidableEq, Repr

structure ScopeConfig where
  realmRoles : Option (List RealmRole)
  clientRoles : Option (List ClientRole)
  resource : String
  resourceType : Option TemplateType
  methods : Option (List String)
  deriving DecidableEq, Repr

inductive CheckType
  | whitelist
  | blacklist
  deriving DecidableEq, Repr

structure RoleCheckConfig where
  type : Option CheckType
  whitelistDenyUnmatched : Option Bool
  scopes : Option (List ScopeConfig)
  deriving DecidableEq, Repr

structure Template where
  value : String
  type : TemplateType
  deriving DecidableEq, Repr

structure ClientTemplates where
  name : Template
  client : Template
  deriving DecidableEq, Repr

/-- A scope of the policy. -/
structure Scope where
  realmRoles : Option (List Template)
  clientRoles : Option (List ClientTemplates)
  resource : Template
  methods : List String
  deriving DecidableEq, Repr

structure RoleCheck where
  type : CheckType
  whitelistDenyUnmatched : Bool
  scopes : List Scope
  deriving DecidableEq, Repr

section New

def defaultType : TemplateType := .plain

/-- `create_template` -/
def createTemplate (value : String) (valueType : Option TemplateType) : Template :=
  ⟨value, valueType.getD defaultType⟩

/-- The methods of a scope; without any, it is for all of them. -/
def scopeMethods : Option (List String) → List String
  | none | some [] => [anyMethod]
  | some methods => methods

/-- One round of `build_scopes`. -/
def buildScope (scope : ScopeConfig) : Scope where
  realmRoles := scope.realmRoles.map fun roles =>
    roles.map fun role => createTemplate role.name role.nameType
  clientRoles := scope.clientRoles.map fun roles =>
    roles.map fun role =>
      ⟨createTemplate role.name role.nameType, createTemplate role.client role.clientType⟩
  resource := createTemplate scope.resource scope.resourceType
  methods := scopeMethods scope.methods

/-- `_M.new` -/
def new (config : RoleCheckConfig) : RoleCheck where
  type := config.type.getD .whitelist
  whitelistDenyUnmatched := config.whitelistDenyUnmatched ≠ some false
  scopes := (config.scopes.getD []).map buildScope

end New

structure ServiceContext where
  authFailedStatus : Nat
  errorAuthFailed : String
  deriving DecidableEq, Repr

/-- The payload of a verified token. -/
abbrev Payload (Number : Type*) := List (String × Json Number)

structure Context (Number : Type*) where
  jwt : Option (Payload Number)
  service : Option ServiceContext
  policyErrorCallback : Option ErrorCallback

structure Request where
  uri : String
  method : String
  deriving DecidableEq, Repr

variable {Number : Type*} (library : Library (Context Number)) (stringFunctions : String → Bool)

/-- `render` -/
def Template.render (template : Template) (context : Context Number) : String :=
  TemplateString.render library.toTemplateEngine template.value template.type context

/-- `check_roles_in_token`, with the roles of a claim or none. -/
def checkRolesInToken (role : String) (rolesInToken : Option (LuaValue Number)) :
    Except String Bool :=
  match LuaValue.truthyField rolesInToken with
  | none => .ok false
  | some rolesInToken => rolesInToken.ipairs.map fun items => items.any (·.isString role)

/-- `check_roles_in_token(name, claim.roles or {})` -/
def checkRolesOf (role : String) (claim : LuaValue Number) : Except String Bool :=
  (claim.index stringFunctions "roles").bind (checkRolesInToken role)

/-- A claim that is missing, or `false`, is none. -/
def Payload.claim (payload : Payload Number) (name : String) : Option (LuaValue Number) :=
  LuaValue.truthyField (((Json.object payload).field name).map .json)

/-- One round of the loop of `match_realm_roles`. -/
def matchRealmRole (payload : Payload Number) (name : String) : Except String Bool :=
  match payload.claim "realm_access" with
  | none => .ok false
  | some realmAccess => checkRolesOf stringFunctions name realmAccess

/-- `match_realm_roles` -/
def matchRealmRoles (context : Context Number) (payload : Payload Number) (scope : Scope) :
    Except String Bool :=
  match scope.realmRoles with
  | none => .ok true
  | some roles =>
      roles.allM fun role => matchRealmRole stringFunctions payload (role.render library context)

/-- One round of the loop of `match_client_roles`. -/
def matchClientRole (payload : Payload Number) (client name : String) : Except String Bool :=
  match payload.claim "resource_access" with
  | none => .ok false
  | some resourceAccess =>
      (resourceAccess.index stringFunctions client).bind fun clientInToken =>
        match LuaValue.truthyField clientInToken with
        | none => .ok false
        | some clientInToken => checkRolesOf stringFunctions name clientInToken

/-- `match_client_roles` -/
def matchClientRoles (context : Context Number) (payload : Payload Number) (scope : Scope) :
    Except String Bool :=
  match scope.clientRoles with
  | none => .ok true
  | some roles =>
      roles.allM fun role =>
        matchClientRole stringFunctions payload (role.client.render library context)
          (role.name.render library context)

/-- `match_realm_roles(scope, context) and match_client_roles(scope, context)` -/
def matchRoles (context : Context Number) (payload : Payload Number) (scope : Scope) :
    Except String Bool :=
  (matchRealmRoles library stringFunctions context payload scope).bind fun realm =>
    if realm then matchClientRoles library stringFunctions context payload scope else .ok false

/-- The mapping rule that is made for a method of a scope matches the request. -/
def methodMatches (context : Context Number) (request : Request) (scope : Scope)
    (method : String) : Bool :=
  mappingRuleMatches library method (scope.resource.render library context) request.method
    request.uri

/-- `validate_scope_access` -/
def validateScopeAccess (context : Context Number) (payload : Payload Number) (request : Request)
    (scope : Scope) : List String → Except String (Option Bool)
  | [] => .ok none
  | method :: methods =>
      if methodMatches library context request scope method then
        (matchRoles library stringFunctions context payload scope).map some
      else validateScopeAccess context payload request scope methods

/-- The loop of `scopes_check`. -/
def scopesCheckLoop (context : Context Number) (payload : Payload Number) (request : Request)
    (resourceMatched : Bool) : List Scope → Except String (Option Bool)
  | [] => .ok (if resourceMatched then some false else none)
  | scope :: scopes =>
      (validateScopeAccess library stringFunctions context payload request scope
          scope.methods).bind fun result =>
        match result with
        | some true => .ok (some true)
        | some false => scopesCheckLoop context payload request true scopes
        | none => scopesCheckLoop context payload request resourceMatched scopes

/-- `scopes_check` -/
def scopesCheck (context : Context Number) (request : Request) (scopes : List Scope) :
    Except String (Option Bool) :=
  match context.jwt with
  | none => .ok (some false)
  | some payload => scopesCheckLoop library stringFunctions context payload request false scopes

def indexOfNil : String := "attempt to index a nil value"

/-- `errors.authorization_failed(context.service)` -/
def authorizationFailed (context : Context Number) : Outcome :=
  match context.service with
  | some service => .exited ⟨service.authFailedStatus, some service.errorAuthFailed⟩
  | none => .raised indexOfNil

/-- `_M:access` -/
def access (self : RoleCheck) (request : Request) (context : Context Number) : Outcome :=
  match scopesCheck library stringFunctions context request self.scopes with
  | .error message => .raised message
  | .ok result =>
      match self.type with
      | .whitelist =>
          if result = some false then authorizationFailed context
          else if result = none ∧ self.whitelistDenyUnmatched = true then
            authorizationFailed context
          else .returned
      | .blacklist => if result = some true then authorizationFailed context else .returned

/-- The policy as a member of a chain, for one request. -/
def policy (self : RoleCheck) (request : Request) : Policy (Context Number) where
  name := "Keycloak Role Check Policy"
  access := fun context => (context, access library stringFunctions self request context)

end Apicast.KeycloakRoleCheck
