import Apicast.PolicyChain
import Apicast.TokenIntrospection.TokensCache

/-!
# The access phase of the token introspection policy

`policy/token_introspection/token_introspection.lua`. A request may pass only when the
introspection endpoint says that its token is active. What the endpoint answers, the
signing of assertions, the parsing of urls and the conversion of texts to numbers are
parameters.
-/

namespace Apicast

open Foundation

namespace TokenIntrospection

inductive AuthType
  | useOidcIssuerEndpoint
  | clientIdClientSecret
  | clientSecretJwt
  | privateKeyJwt
  deriving DecidableEq, Repr

structure Config (Number : Type*) where
  authType : Option AuthType
  clientId : Option String
  clientSecret : Option String
  introspectionUrl : Option String
  clientJwtAssertionExpiresIn : Option Number
  clientJwtAssertionAudience : Option String
  maxTtlTokens : Option Number
  maxCachedTokens : Option Nat

/-- The policy; its cache is kept apart. -/
structure Introspection (Number : Type*) where
  authType : AuthType
  clientId : Option String
  clientSecret : Option String
  introspectionUrl : Option String
  clientJwtAssertionExpiresIn : Option Number
  clientAud : Option String
  clientRsaPrivateKey : Option String
  cachingEnabled : Bool
  maxTtl : Option Number

/-- `_M.new`; the key is what the configured certificate is read as. -/
def Introspection.new {Number : Type*} [NatCast Number] (config : Config Number)
    (certificateKey : Option String) : Introspection Number :=
  let authType := config.authType.getD .clientIdClientSecret
  let cachingEnabled := decide (0 < config.maxCachedTokens.getD 0)
  let own := authType ≠ .useOidcIssuerEndpoint
  let asserting := authType = .clientSecretJwt ∨ authType = .privateKeyJwt
  { authType
    clientId := if own then some (config.clientId.getD "") else none
    clientSecret := if own then some (config.clientSecret.getD "") else none
    introspectionUrl := if own then config.introspectionUrl else none
    clientJwtAssertionExpiresIn :=
      if asserting then some (config.clientJwtAssertionExpiresIn.getD ((60 : Nat) : Number))
      else none
    clientAud := if asserting then some (config.clientJwtAssertionAudience.getD "") else none
    clientRsaPrivateKey := if authType = .privateKeyJwt then certificateKey else none
    cachingEnabled
    maxTtl := if cachingEnabled then config.maxTtlTokens else none }

structure JwtAssertion (Number : Type*) where
  typ : String
  alg : String
  iss : Option String
  sub : Option String
  aud : Option String
  jti : String
  exp : Number
  iat : Number

structure IntrospectionRequest where
  url : String
  token : Option String
  tokenTypeHint : String
  clientId : Option String
  clientAssertionType : Option String
  clientAssertion : Option String
  authorization : Option String
  deriving DecidableEq, Repr

/-- An answer of the endpoint; the body is what it decodes to. -/
structure IntrospectionResponse (Number : Type*) where
  status : Nat
  body : Option (Json Number)

structure UrlComponents where
  user : Option String
  password : Option String
  deriving DecidableEq, Repr

/-- What a request finds around the policy. -/
structure Environment (Number : Type*) where
  time : Number
  now : Number
  requestId : String
  /-- `http_authorization.new(ngx.var.http_authorization).token` -/
  accessToken : Option String
  encodeBase64 : String → String
  sign : String → JwtAssertion Number → Option String
  parseUrl : Option String → Option UrlComponents
  post : IntrospectionRequest → Except String (IntrospectionResponse Number)

/-- `oauth.config` -/
structure OAuthConfig where
  introspectionEndpoint : Option String
  tokenIntrospectionEndpoint : Option String
  deriving DecidableEq, Repr

structure ProxyContext where
  oauth : Option OAuthConfig
  deriving DecidableEq, Repr

structure ServiceContext where
  authFailedStatus : Nat
  errorAuthFailed : String
  issuerEndpoint : Option String
  deriving DecidableEq, Repr

structure Context where
  service : Option ServiceContext
  proxy : Option ProxyContext
  policyErrorCallback : Option ErrorCallback

variable {Number : Type*} [NatCast Number] [Zero Number] [Add Number] [Sub Number] [LT Number]
  [DecidableLT Number] (tonumber : String → Option Number)

/-- `create_credential` -/
def createCredential (encodeBase64 : String → String) (clientId clientSecret : String) : String :=
  "Basic " ++ encodeBase64 (clientId ++ ":" ++ clientSecret)

/-- The assertion that a client authenticates with. -/
def jwtAssertion (self : Introspection Number) (env : Environment Number) : JwtAssertion Number :=
  { typ := "JWT"
    alg := if self.authType = .clientSecretJwt then "HS256" else "RS256"
    iss := self.clientId
    sub := self.clientId
    aud := self.clientAud
    jti := env.requestId
    exp := env.time + self.clientJwtAssertionExpiresIn.getD ((60 : Nat) : Number)
    iat := env.time }

/-- The request to the endpoint; there is none without a key or a signature. -/
def introspectionRequest (self : Introspection Number) (env : Environment Number) (url : String)
    (token : Option String) : Option IntrospectionRequest :=
  let request : IntrospectionRequest := ⟨url, token, "access_token", none, none, none, none⟩
  match self.authType with
  | .clientIdClientSecret | .useOidcIssuerEndpoint =>
      some { request with
        authorization := some (createCredential env.encodeBase64 (self.clientId.getD "")
          (self.clientSecret.getD "")) }
  | .clientSecretJwt | .privateKeyJwt =>
      let secret := if self.authType = .clientSecretJwt then self.clientSecret else none
      (secret <|> self.clientRsaPrivateKey).bind fun key =>
        (env.sign key (jwtAssertion self env)).map fun clientAssertion =>
          { request with
            clientId := self.clientId
            clientAssertionType := some "urn:ietf:params:oauth:client-assertion-type:jwt-bearer"
            clientAssertion := some clientAssertion }

/-- What the endpoint says about a token: a table in an answer with status 200. -/
def introspect (self : Introspection Number) (env : Environment Number) (url : String)
    (token : Option String) : Option (Json Number) :=
  match (introspectionRequest self env url token).map env.post with
  | some (.ok response) =>
      if response.status = 200 then response.body.filter Json.isTable else none
  | _ => none

/-- `{ active = false }` -/
def inactive : Json Number := .object [("active", .boolean false)]

/-- `token_info.active == true` -/
def isActive (tokenInfo : Json Number) : Bool :=
  match tokenInfo.field "active" with
  | some active => active.isTrue
  | none => false

/-- `self.tokens_cache:get` -/
def cachedTokenInfo (self : Introspection Number) (env : Environment Number)
    (storage : TokensCache.Storage Number) (token : Option String) : Option (Json Number) :=
  if self.cachingEnabled then TokensCache.get storage env.now token else none

/-- `introspect_token` -/
def introspectToken (self : Introspection Number) (env : Environment Number)
    (storage : TokensCache.Storage Number) (url : String) (token : Option String) :
    Except String (TokensCache.Storage Number × Json Number) :=
  match cachedTokenInfo self env storage token with
  | some cached => .ok (storage, cached)
  | none =>
      match introspect self env url token with
      | none => .ok (storage, inactive)
      | some tokenInfo =>
          if self.cachingEnabled then
            match TokensCache.set tonumber self.maxTtl storage env.time env.now token tokenInfo with
            | .ok storage => .ok (storage, tokenInfo)
            | .error message => .error message
          else .ok (storage, tokenInfo)

/-- The end of `_M:access`. -/
def reject (context : Context) : Outcome :=
  match context.service with
  | some service => .exited ⟨service.authFailedStatus, some service.errorAuthFailed⟩
  | none => .raised indexOfNil

/-- The beginning of `_M:access`: the endpoint and the credentials of the issuer. -/
def withIssuer (self : Introspection Number) (env : Environment Number) (context : Context) :
    Except Outcome (Introspection Number) :=
  if self.authType = .useOidcIssuerEndpoint then
    match context.proxy with
    | none => .error (.raised indexOfNil)
    | some proxy =>
        match proxy.oauth, context.service with
        | none, _ => .error (reject context)
        | some _, none => .error (.raised indexOfNil)
        | some oauthConfig, some service =>
            match env.parseUrl service.issuerEndpoint with
            | none => .error (.raised indexOfNil)
            | some components =>
                .ok { self with
                  clientId := components.user
                  clientSecret := components.password
                  introspectionUrl :=
                    oauthConfig.introspectionEndpoint <|> oauthConfig.tokenIntrospectionEndpoint }
  else .ok self

/-- `_M:access` -/
def access (self : Introspection Number) (env : Environment Number)
    (storage : TokensCache.Storage Number) (context : Context) :
    TokensCache.Storage Number × Outcome :=
  match withIssuer self env context with
  | .error outcome => (storage, outcome)
  | .ok self =>
      match self.introspectionUrl with
      | none => (storage, reject context)
      | some url =>
          match introspectToken tonumber self env storage url env.accessToken with
          | .error message => (storage, .raised message)
          | .ok (storage, tokenInfo) =>
              (storage, if isActive tokenInfo then .returned else reject context)

/-- The policy as a member of a chain, for one request. -/
def policy (self : Introspection Number) (env : Environment Number)
    (storage : TokensCache.Storage Number) : Policy Context :=
  { name := "Token Introspection Policy"
    access := fun context => (context, (access tonumber self env storage context).2) }

/-- What happens to the cache of a policy: requests, and the eviction of a token. -/
inductive Event (Number : Type*)
  | access (env : Environment Number) (context : Context)
  | evict (token : String)

/-- The cache after a sequence of requests and evictions. -/
def storageAfter (self : Introspection Number) (history : List (Event Number)) :
    TokensCache.Storage Number :=
  history.foldl (fun storage event =>
    match event with
    | .access env context => (access tonumber self env storage context).1
    | .evict token => ExpiringCache.evict storage token) fun _ => none

end TokenIntrospection

end Apicast
