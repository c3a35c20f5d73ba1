import Apicast.Conditions
import Apicast.Foundation.ExpiringCache
import Apicast.Foundation.Json
import Mathlib.Algebra.Order.Group.Defs

/-!
# Verification of OpenID Connect tokens

`oauth/oidc.lua`. All instances of a worker share one cache of verified tokens, whose
keys are made of a namespace given by the caller and the token. The JWT library and the
Liquid library are parameters.
-/

namespace Apicast

open Foundation

namespace OpenIdConnect

/-- A key of the issuer, found by its identifier. -/
structure Jwk where
  pem : Option String
  alg : Option String
  deriving DecidableEq, Repr

/-- A token as the JWT library represents it. -/
structure Jwt (Time : Type*) where
  token : String
  valid : Bool
  alg : Option String
  kid : Option String
  payload : Json Time
  verified : Bool
  reason : Option String

/-- What the discovery of an issuer found, with the settings of the service. -/
structure OidcConfig where
  issuer : Option String
  idTokenSigningAlgValuesSupported : List String
  keys : List (String × Jwk)
  claimWithClientId : Option String
  claimWithClientIdType : TemplateType

/-- What an instance verifies tokens with. -/
structure Verifier where
  issuer : Option String
  keys : List (String × Jwk)
  algWhitelist : List String
  deriving DecidableEq, Repr

/-- An instance of the class. -/
structure Oidc where
  verifier : Verifier
  clientIdTmpl : Option String
  clientIdTmplType : TemplateType
  deriving DecidableEq, Repr

/-- `_M.new`, and what is missing. -/
def Oidc.new (config : Option OidcConfig) : Oidc × Option String :=
  let issuer := config.bind (·.issuer)
  let algValues := (config.map (·.idTokenSigningAlgValuesSupported)).getD []
  ({ verifier := ⟨issuer, (config.map (·.keys)).getD [], algValues⟩
     clientIdTmpl := config.bind (·.claimWithClientId)
     clientIdTmplType := (config.map (·.claimWithClientIdType)).getD .plain },
    if issuer = none ∨ algValues = [] then some "missing OIDC configuration" else none)

/-- What the JWT library does. -/
structure JwtLibrary (Time : Type*) where
  /-- `JWT:load_jwt(tostring(token))` -/
  loadJwt : String → Jwt Time
  /-- `JWT:verify_jwt_obj(pubkey, jwt, self.jwt_claims)` at a moment: the signature and the
  claims, which require the issuer; the reason when one of them fails. -/
  verifyJwtObj : Option String → Option String → Jwt Time → Time → Except String Unit

variable {Time : Type*}

/-- `jwt.payload.exp` -/
def Jwt.exp (jwt : Jwt Time) : Option Time :=
  match jwt.payload.field "exp" with
  | some (.number exp) => some exp
  | _ => none

/-- `load_jwt`; a token that was only parsed is not verified. -/
def loadJwt (library : JwtLibrary Time) (token : String) : Jwt Time :=
  { library.loadJwt token with token := token, verified := false }

/-- `find_jwk` -/
def findJwk (self : Verifier) (jwt : Jwt Time) : Option Jwk :=
  jwt.kid.bind fun kid => self.keys.lookup kid

/-- `format('%s:%s', namespace or '<empty>', jwt_token)` -/
def cacheKey (keyspace : Option String) (jwtToken : String) : String :=
  keyspace.getD "<empty>" ++ ":" ++ jwtToken

abbrev Cache (Time : Type*) := ExpiringCache Time String (Jwt Time)

section Verification

variable [LT Time] [DecidableLT Time] [Add Time] [Sub Time]

/-- `timestamp_to_seconds_from_now` -/
def timestampToSecondsFromNow (expiry : Option Time) (now : Time) : Option Time :=
  expiry.map (· - now)

/-- The verified token, cached for the rest of its life. -/
def cacheJwt (cache : Cache Time) (now : Time) (jwt : Jwt Time) (key : String) : Cache Time :=
  cache.set now key { jwt with verified := true } (timestampToSecondsFromNow jwt.exp now)

/-- `_M:parse` -/
def parse (library : JwtLibrary Time) (cache : Cache Time) (now : Time) (token key : String) :
    Jwt Time :=
  (cache.get now key).getD (loadJwt library token)

/-- `_M:verify`; the error, or the verified token, which is cached until it expires. -/
def verify (library : JwtLibrary Time) (self : Verifier) (cache : Cache Time) (now : Time)
    (jwt : Jwt Time) (key : String) : Except (String × Jwt Time) (Cache Time × Jwt Time) :=
  if jwt.valid = false then .error ("JWT not valid", jwt)
  else if ¬ jwt.alg.any (· ∈ self.algWhitelist) then .error ("[jwt] invalid alg", jwt)
  else
    match findJwk self jwt with
    | none => .error ("[jwk] not found, token might belong to a different realm", jwt)
    | some jwk =>
        if jwk.alg.isSome ∧ jwk.alg ≠ jwt.alg then .error ("[jwt] alg mismatch", jwt)
        else
          match library.verifyJwtObj jwk.pem self.issuer jwt now with
          | .error reason => .error ("JWT not verified", { jwt with reason := some reason })
          | .ok () => .ok (cacheJwt cache now jwt key, { jwt with verified := true })

/-- `_M:parse_and_verify` with `parse_and_verify_token` -/
def parseAndVerify (library : JwtLibrary Time) (self : Verifier) (cache : Cache Time) (now : Time)
    (accessToken keyspace : String) : Except String (Cache Time × Jwt Time) :=
  let key := cacheKey (some keyspace) accessToken
  let jwt := parse library cache now accessToken key
  if jwt.verified then .ok (cache, jwt)
  else
    match verify library self cache now jwt key with
    | .ok result => .ok result
    | .error (err, jwt) => .error (jwt.reason.getD err)

/-- `_M:get_client_id` -/
def getClientId (engine : TemplateEngine (Json Time)) (self : Oidc) (jwtPayload : Json Time) :
    Option (Json Time) :=
  match self.clientIdTmpl with
  | some template =>
      let rendered := TemplateString.render engine template self.clientIdTmplType jwtPayload
      match self.clientIdTmplType with
      | .liquid => some (.string rendered)
      | .plain => jwtPayload.field rendered
  | none => jwtPayload.field "azp"

/-- What a successful call returns. -/
structure Transformed (Time : Type*) where
  appId : Option (Json Time)
  ttl : Option Time
  payload : Json Time

/-- `cache_key or '<shared>'` -/
def sharedNamespace (cacheKey : Option String) : String := cacheKey.getD "<shared>"

/-- `_M:transform_credentials` of the credentials with an access token. -/
def transformCredentials (library : JwtLibrary Time) (engine : TemplateEngine (Json Time))
    (self : Oidc) (cache : Cache Time) (now : Time) (accessToken : String)
    (cacheKey : Option String) : Cache Time × Except String (Transformed Time) :=
  match parseAndVerify library self.verifier cache now accessToken (sharedNamespace cacheKey) with
  | .error err => (cache, .error err)
  | .ok (cache, jwt) =>
      let appId := match getClientId engine self jwt.payload with
        | some (.array items) => items.head?
        | some (.object _) => none
        | appId => appId
      (cache, .ok ⟨appId, timestampToSecondsFromNow jwt.exp now, jwt.payload⟩)

end Verification

/-- The token verifies under a configuration: its algorithm is allowed, its key is one of
the issuer's and for this algorithm, and the signature and the claims are right. -/
structure Verifies (library : JwtLibrary Time) (verifier : Verifier) (token : String) (now : Time) :
    Prop where
  valid : (loadJwt library token).valid
  allowed : (loadJwt library token).alg.any (· ∈ verifier.algWhitelist)
  signed : ∃ jwk ∈ findJwk verifier (loadJwt library token),
    ¬ (jwk.alg.isSome ∧ jwk.alg ≠ (loadJwt library token).alg) ∧
      library.verifyJwtObj jwk.pem verifier.issuer (loadJwt library token) now = .ok ()

end OpenIdConnect

end Apicast
