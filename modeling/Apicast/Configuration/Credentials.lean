import Apicast.Configuration.Store
import Apicast.HeadersPolicy
import Apicast.Http.Authorization

/-!
# The credentials of a request

A service says where its credentials are, and each version of it has its own function that takes
them from there. All of these functions follow one table: the parameters of the version, each with
its name and its place in the authorization header. A request goes on with the credentials that the
client gave, if it gave all of them, or with the default ones, if it gave none. With OpenID Connect
their token is checked too; what the check makes of a token is a parameter.
-/

namespace Apicast

open Foundation

namespace Credentials

open HeadersPolicy (HeaderValue)

open HttpAuthorization (Parsed)

/-- The value of a parameter. In a form it is `true` without an equals sign, and a table when it is
repeated. -/
inductive Value
  | text (value : Bytes)
  | flag
  | table (values : List (Option Bytes))
  deriving DecidableEq

/-- `service.credentials` -/
structure Config where
  location : String
  userKey : Option String
  appId : Option String
  appKey : Option String
  accessToken : Option String

structure Service where
  id : Bytes
  backendVersion : String
  authenticationMethod : Option String
  credentials : Option Config

/-- What the extraction reads of a request. -/
structure Request where
  isHttp2 : Bool
  method : String
  contentType : Option HeaderValue
  /-- `ngx.var['arg_' .. name]` -/
  arg : String → Option Bytes
  /-- `ngx.var['http_' .. name]` -/
  header : String → Option Bytes
  authorization : Option Bytes
  /-- `ngx.req.get_post_args`, which fails for some bodies. -/
  postArgs : Option (String → Option Value)

/-- The table of credentials, of which the integer keys are the values in this order. -/
inductive Extracted
  | userKey (userKey : Option Value)
  | application (appId appKey : Option Value)
  | accessToken (accessToken : Option Value)
  deriving DecidableEq

def Extracted.tuple : Extracted → List (Option Value)
  | .userKey key => [key]
  | .application id key => [id, key]
  | .accessToken token => [token]

/-- `credentials.access_token` -/
def Extracted.token : Extracted → Option Value
  | .accessToken token => token
  | _ => none

def httpMethodsWithBody : List String := ["POST", "PUT", "PATCH"]

/-- `str_find(text, needle, 1, true)` -/
def contains (text needle : String) : Bool := text.toList.tails.any needle.toList.isPrefixOf

/-- `content_type_is_urlencoded`, which also finds the type among others and with parameters. -/
def contentTypeIsUrlencoded : Option HeaderValue → Bool
  | none => false
  | some (.text ct) => contains (lower ct) "application/x-www-form-urlencoded"
  | some (.table cts) =>
      contains (lower (",".intercalate cts)) "application/x-www-form-urlencoded"

/-- `read_body_args` -/
def readBodyArgs (request : Request) (names : List String) : List (Option Value) :=
  if request.isHttp2 then []
  else if request.method ∉ httpMethodsWithBody then []
  else if contentTypeIsUrlencoded request.contentType then
    names.map (request.postArgs.getD fun _ => none)
  else []

/-- `read_http_header` -/
def readHttpHeader (request : Request) (name : String) : Option Bytes :=
  request.header <| String.ofList <|
    (lower name).toList.map fun char => if char = '-' then '_' else char

section Extraction

-- `ngx.decode_base64`
variable (decodeBase64 : Bytes → Option Bytes)

/-- `http_authorization.new(ngx.var.http_authorization)` -/
def authorizationOf (request : Request) : Parsed :=
  (HttpAuthorization.new decodeBase64 request.authorization).parsed

/-- `backend_version_credentials.version_1` -/
def version1 (config : Config) (request : Request) : Except String Extracted :=
  let name := config.userKey.getD "user_key"
  if config.location = "query" then
    .ok (.userKey ((request.arg name).map .text <|> (readBodyArgs request [name])[0]?.join))
  else if config.location = "headers" then
    .ok (.userKey ((readHttpHeader request name).map .text))
  else if config.location = "authorization" then
    let auth := authorizationOf decodeBase64 request
    .ok (.userKey ((auth.userid <|> auth.password <|> auth.token).map .text))
  else .error "invalid credentials location"

/-- `backend_version_credentials.version_2` -/
def version2 (config : Config) (request : Request) : Except String Extracted :=
  let appIdName := config.appId.getD "app_id"
  let appKeyName := config.appKey.getD "app_key"
  if config.location = "query" then
    let appId := (request.arg appIdName).map Value.text
    let appKey := (request.arg appKeyName).map Value.text
    if appId.isNone || appKey.isNone then
      let body := readBodyArgs request [appIdName, appKeyName]
      .ok (.application (appId <|> body[0]?.join) (appKey <|> body[1]?.join))
    else .ok (.application appId appKey)
  else if config.location = "headers" then
    .ok (.application ((readHttpHeader request appIdName).map .text)
      ((readHttpHeader request appKeyName).map .text))
  else if config.location = "authorization" then
    let auth := authorizationOf decodeBase64 request
    .ok (.application ((auth.userid <|> auth.token).map .text) (auth.password.map .text))
  else .error "invalid credentials location"

/-- `backend_version_credentials.version_oauth` -/
def versionOauth (config : Config) (request : Request) : Except String Extracted :=
  let name := config.accessToken.getD "access_token"
  let authorization := authorizationOf decodeBase64 request
  let proceed (accessToken : Option Value) : Except String Extracted :=
    .ok (.accessToken (accessToken <|> authorization.token.map .text))
  if config.location = "query" then
    proceed ((request.arg name).map .text <|> (readBodyArgs request [name])[0]?.join)
  else if config.location = "headers" then proceed ((readHttpHeader request name).map .text)
  else if config.location = "authorization" then proceed (authorization.token.map .text)
  else .error "invalid credentials location"

/-- `_M:extract_credentials` -/
def extractCredentials (service : Service) (request : Request) : Except String Extracted :=
  match service.credentials with
  | none => .error "missing credentials"
  | some credentials =>
      if service.backendVersion = "1" then version1 decodeBase64 credentials request
      else if service.backendVersion = "2" then version2 decodeBase64 credentials request
      else if service.backendVersion = "oauth" then versionOauth decodeBase64 credentials request
      else .error ("invalid backend version: " ++ service.backendVersion)

/-- The configuration of the default credentials policy. -/
structure DefaultCredentials where
  userKey : Option Bytes
  appId : Option Bytes
  appKey : Option Bytes

/-- `creds_missing` -/
def credsMissing (service : Service) (request : Request) : Bool :=
  match extractCredentials decodeBase64 service request with
  | .error _ => true
  | .ok (.userKey key) => key.isNone
  | .ok (.application id key) => id.isNone && key.isNone
  | .ok (.accessToken _) => false

/-- `provide_creds` -/
def provideCreds (backendVersion : String) (defaultCreds : DefaultCredentials) :
    Option Extracted :=
  if backendVersion = "1" then
    defaultCreds.userKey.map fun userKey => .userKey (some (.text userKey))
  else
    match defaultCreds.appId, defaultCreds.appKey with
    | some appId, some appKey => some (.application (some (.text appId)) (some (.text appKey)))
    | _, _ => none

/-- `context.extracted_credentials` after the rewrite phase of the default credentials policy. -/
def extractedCredentials (policy : Option DefaultCredentials) (service : Service)
    (request : Request) : Option Extracted :=
  match policy with
  | none => none
  | some defaultCreds =>
      if service.backendVersion ≠ "1" ∧ service.backendVersion ≠ "2" then none
      else if credsMissing decodeBase64 service request then
        provideCreds service.backendVersion defaultCreds
      else none

/-- `_M:oauth` of the service: whether there is an OpenID Connect instance. The module of the older
method is gone, and an error is raised for it. -/
def Service.oauth (service : Service) : Except String Bool :=
  let authentication := service.authenticationMethod.getD service.backendVersion
  if authentication = "oidc" then .ok true
  else if authentication = "oauth" then .error "attempt to index field 'apicast' (a nil value)"
  else .ok false

/-- What the rewrite phase of the proxy does with the credentials. A request that proceeds has what
`transform_credentials` made of its token, if there was one to check. -/
inductive Rewritten (Token : Type)
  | noCredentials
  | authorizationFailed
  | raised
  | proceeds (credentials : Extracted) (token : Option Token) (cachedKey : Bytes)

/-- `concat` raises an error for anything but text. -/
def texts : List (Option Value) → Option (List Bytes)
  | [] => some []
  | some (.text value) :: values => (texts values).map (value :: ·)
  | _ :: _ => none

section Proxy

variable {Token : Type}
  -- `transform_credentials` of the OpenID Connect instance, for a token and a service
  (transformCredentials : Option Value → Bytes → Except String Token)

/-- The check of the token, if the service has one. -/
def checkToken (oidc : Bool) (service : Service) (credentials : Extracted) (cachedKey : Bytes) :
    Rewritten Token :=
  if oidc then
    match transformCredentials credentials.token service.id with
    | .error _ => .authorizationFailed
    | .ok token => .proceeds credentials (some token) cachedKey
  else .proceeds credentials none cachedKey

/-- The credentials are checked one by one and joined. -/
def joinCredentials (oidc : Bool) (service : Service) (credentials : Extracted) :
    Rewritten Token :=
  if credentials.tuple.any Option.isNone then .noCredentials
  else
    match texts credentials.tuple with
    | none => .raised
    | some values => checkToken transformCredentials oidc service credentials
        ([HttpAuthorization.colon].intercalate (service.id :: values))

/-- `_M:rewrite` of the proxy, behind the default credentials policy or without it. -/
def rewrite (policy : Option DefaultCredentials) (service : Service) (request : Request) :
    Rewritten Token :=
  match service.oauth with
  | .error _ => .raised
  | .ok oidc =>
      match extractedCredentials decodeBase64 policy service request with
      | some credentials => joinCredentials transformCredentials oidc service credentials
      | none =>
          match extractCredentials decodeBase64 service request with
          | .error _ => .noCredentials
          | .ok credentials => joinCredentials transformCredentials oidc service credentials

end Proxy

end Extraction

/-! ### The table of parameters -/

/-- A parameter of a version, and its place in the authorization header. -/
structure Parameter where
  name : String
  place : Parsed → Option Bytes
  /-- A bearer token is taken when the parameter is nowhere else. -/
  bearer : Bool

def parameters (version : String) (config : Config) : Option (List Parameter) :=
  if version = "1" then
    some [⟨config.userKey.getD "user_key", fun auth => auth.userid <|> auth.password <|> auth.token,
      false⟩]
  else if version = "2" then
    some [⟨config.appId.getD "app_id", fun auth => auth.userid <|> auth.token, false⟩,
      ⟨config.appKey.getD "app_key", Parsed.password, false⟩]
  else if version = "oauth" then
    some [⟨config.accessToken.getD "access_token", Parsed.token, true⟩]
  else none

def locations : List String := ["query", "headers", "authorization"]

/-- Where the credentials of a service are, and its parameters. -/
def Service.table (service : Service) : Option (String × List Parameter) :=
  service.credentials.bind fun config =>
    (parameters service.backendVersion config).bind fun parameters =>
      if config.location ∈ locations then some (config.location, parameters) else none

/-- The value of a parameter in a form. -/
def formValue (request : Request) (name : String) : Option Value :=
  (readBodyArgs request [name])[0]?.join

section Table

variable (decodeBase64 : Bytes → Option Bytes)

/-- The value of a parameter at a location. -/
def located (request : Request) (location : String) (parameter : Parameter) : Option Value :=
  if location = "query" then
    (request.arg parameter.name).map .text <|> formValue request parameter.name
  else if location = "headers" then (readHttpHeader request parameter.name).map .text
  else (parameter.place (authorizationOf decodeBase64 request)).map .text

def given (request : Request) (location : String) (parameter : Parameter) : Option Value :=
  located decodeBase64 request location parameter <|>
    if parameter.bearer then (authorizationOf decodeBase64 request).token.map .text else none

/-- What the client gave, parameter by parameter. -/
def sent (service : Service) (request : Request) : Option (List (Option Value)) :=
  service.table.map fun (location, parameters) =>
    parameters.map (given decodeBase64 request location)

variable {decodeBase64} {service : Service} {request : Request}

theorem readBodyArgs_two (first second : String) :
    (readBodyArgs request [first, second])[0]?.join = formValue request first ∧
      (readBodyArgs request [first, second])[1]?.join = formValue request second := by
  unfold formValue readBodyArgs
  split
  · exact ⟨rfl, rfl⟩
  · split
    · exact ⟨rfl, rfl⟩
    · split <;> exact ⟨rfl, rfl⟩

section Versions

variable (config : Config)

/-- What a version extracts is one of the locations, or nothing is. -/
theorem cases_location {holds : Prop} (query : config.location = "query" → holds)
    (headers : config.location = "headers" → holds)
    (authorization : config.location = "authorization" → holds)
    (other : config.location ∉ locations → holds) : holds := by
  by_cases known : config.location ∈ locations
  · simp only [locations, List.mem_cons, List.not_mem_nil, or_false] at known
    rcases known with same | same | same
    · exact query same
    · exact headers same
    · exact authorization same
  · exact other known

/-- Other locations are none of the three that the gateway knows. -/
theorem unknown_location (other : config.location ∉ locations) :
    config.location ≠ "query" ∧ config.location ≠ "headers" ∧
      config.location ≠ "authorization" := by
  simpa [locations] using other

/-- What the client sent as credentials, when the service says where they are. -/
theorem sent_eq {backendVersion : String} (version : service.backendVersion = backendVersion)
    (configured : service.credentials = some config) :
    sent decodeBase64 service request =
      (parameters backendVersion config).bind fun parameters =>
        if config.location ∈ locations then
          some (parameters.map (given decodeBase64 request config.location))
        else none := by
  unfold sent Service.table
  rw [configured, version, Option.bind_some]
  cases parameters backendVersion config with
  | none => rfl
  | some parameters =>
      simp only [Option.bind_some]
      split <;> rfl

/-- The user key is what the client sent as one. -/
theorem tuple_version1 (version : service.backendVersion = "1")
    (configured : service.credentials = some config) :
    (version1 decodeBase64 config request).toOption.map Extracted.tuple =
      sent decodeBase64 service request := by
  rw [sent_eq config version configured]
  refine cases_location config (fun same => ?_) (fun same => ?_) (fun same => ?_) fun other => ?_
  · simp [version1, parameters, locations, same, located, given, formValue, Except.toOption,
      Extracted.tuple]
  · simp [version1, parameters, locations, same, located, given, Except.toOption, Extracted.tuple]
  · simp [version1, parameters, locations, same, located, given, Except.toOption, Extracted.tuple]
  · obtain ⟨query, headers, authorization⟩ := unknown_location config other
    simp [version1, parameters, other, query, headers, authorization, Except.toOption]

/-- The application identifier and its key are what the client sent as such. -/
theorem tuple_version2 (version : service.backendVersion = "2")
    (configured : service.credentials = some config) :
    (version2 decodeBase64 config request).toOption.map Extracted.tuple =
      sent decodeBase64 service request := by
  rw [sent_eq config version configured]
  refine cases_location config (fun same => ?_) (fun same => ?_) (fun same => ?_) fun other => ?_
  · obtain ⟨first, second⟩ := @readBodyArgs_two request (config.appId.getD "app_id")
      (config.appKey.getD "app_key")
    have extracted : version2 decodeBase64 config request = .ok (.application
        ((request.arg (config.appId.getD "app_id")).map .text <|>
          formValue request (config.appId.getD "app_id"))
        ((request.arg (config.appKey.getD "app_key")).map .text <|>
          formValue request (config.appKey.getD "app_key"))) := by
      rw [version2, if_pos same]
      dsimp only
      rw [first, second]
      -- The form is read only when the query lacks one of the two.
      cases request.arg (config.appId.getD "app_id") <;>
        cases request.arg (config.appKey.getD "app_key") <;> rfl
    rw [extracted]
    simp [parameters, locations, same, located, given, Except.toOption, Extracted.tuple]
  · simp [version2, parameters, locations, same, located, given, Except.toOption, Extracted.tuple]
  · simp [version2, parameters, locations, same, located, given, Except.toOption, Extracted.tuple]
  · obtain ⟨query, headers, authorization⟩ := unknown_location config other
    simp [version2, parameters, other, query, headers, authorization, Except.toOption]

/-- The access token is what the client sent as one. -/
theorem tuple_versionOauth (version : service.backendVersion = "oauth")
    (configured : service.credentials = some config) :
    (versionOauth decodeBase64 config request).toOption.map Extracted.tuple =
      sent decodeBase64 service request := by
  rw [sent_eq config version configured]
  refine cases_location config (fun same => ?_) (fun same => ?_) (fun same => ?_) fun other => ?_
  · simp [versionOauth, parameters, locations, same, located, given, formValue, Except.toOption,
      Extracted.tuple]
  · simp [versionOauth, parameters, locations, same, located, given, Except.toOption,
      Extracted.tuple]
  · simp [versionOauth, parameters, locations, same, located, given, Except.toOption,
      Extracted.tuple]
  · obtain ⟨query, headers, authorization⟩ := unknown_location config other
    simp [versionOauth, parameters, other, query, headers, authorization, Except.toOption]

end Versions

/-- **One table for all versions.** What is extracted is what the client gave for the parameters of
the version, one after the other. -/
theorem tuple_extractCredentials (service : Service) (request : Request) :
    (extractCredentials decodeBase64 service request).toOption.map Extracted.tuple =
      sent decodeBase64 service request := by
  unfold extractCredentials
  cases configured : service.credentials with
  | none => simp [sent, Service.table, configured, Except.toOption]
  | some config =>
      dsimp only
      split
      · rename_i version
        exact tuple_version1 config version configured
      · split
        · rename_i version
          exact tuple_version2 config version configured
        · split
          · rename_i version
            exact tuple_versionOauth config version configured
          · rename_i first second oauth
            simp [sent, Service.table, configured, parameters, first, second, oauth,
              Except.toOption]

end Table

/-! ### Who goes on -/

section Proceeding

variable (decodeBase64 : Bytes → Option Bytes)

/-- The credentials are these texts. -/
def written (values : List Bytes) : List (Option Value) :=
  values.map fun value => some (.text value)

/-- The client gave none of the credentials, or they cannot be extracted. -/
def Unsent (service : Service) (request : Request) : Prop :=
  ∀ values, sent decodeBase64 service request = some values → ∀ value ∈ values, value = none

/-- The default credentials of a version, when they are complete. -/
inductive Defaults (defaultCreds : DefaultCredentials) : String → List Bytes → Prop
  | userKey {userKey : Bytes} : defaultCreds.userKey = some userKey →
      Defaults defaultCreds "1" [userKey]
  | application {appId appKey : Bytes} : defaultCreds.appId = some appId →
      defaultCreds.appKey = some appKey → Defaults defaultCreds "2" [appId, appKey]

section Statement

variable {Token : Type} (transformCredentials : Option Value → Bytes → Except String Token)

/-- The request goes on with these credentials, this token and this key. -/
def ProceedsWith (policy : Option DefaultCredentials) (service : Service) (request : Request)
    (values : List Bytes) (token : Option Token) (cachedKey : Bytes) : Prop :=
  ∃ credentials,
    rewrite decodeBase64 transformCredentials policy service request =
      .proceeds credentials token cachedKey ∧
    credentials.tuple = written values

/-- The token among the credentials of a version. -/
def tokenOf (version : String) (values : List (Option Value)) : Option Value :=
  if version = "oauth" then values.head?.join else none

/-- The service has no tokens to check, or the token is accepted. -/
inductive Accepted (service : Service) (values : List Bytes) : Option Token → Prop
  | unchecked : service.oauth = .ok false → Accepted service values none
  | checked {token : Token} : service.oauth = .ok true →
      transformCredentials (tokenOf service.backendVersion (written values)) service.id =
        .ok token → Accepted service values (some token)

end Statement

variable {Token : Type} {transformCredentials : Option Value → Bytes → Except String Token}
  {decodeBase64} {service : Service} {request : Request} {values : List Bytes} {oidc : Bool}
  {token : Option Token}

/-- Credentials are all texts exactly when they are written from texts. -/
theorem texts_eq_some {tuple : List (Option Value)} :
    texts tuple = some values ↔ tuple = written values := by
  induction tuple generalizing values with
  | nil =>
      cases values with
      | nil => exact iff_of_true rfl rfl
      | cons value values => exact iff_of_false (fun no => by cases no) fun no => by cases no
  | cons first tuple ih =>
      match first with
      | some (.text text) =>
          rw [texts, Option.map_eq_some_iff]
          constructor
          · rintro ⟨rest, read, rfl⟩
            rw [ih.mp read]
            rfl
          · intro same
            cases values with
            | nil => cases same
            | cons value values =>
                obtain ⟨head, tail⟩ := List.cons.inj same
                cases head
                exact ⟨values, ih.mpr tail, rfl⟩
      | none => exact iff_of_false (fun no => by cases no) fun no => by cases values <;> cases no
      | some .flag =>
          exact iff_of_false (fun no => by cases no) fun no => by cases values <;> cases no
      | some (.table _) =>
          exact iff_of_false (fun no => by cases no) fun no => by cases values <;> cases no

/-- Complete credentials are joined, and their token is checked. -/
theorem joinCredentials_eq {credentials : Extracted}
    (complete : credentials.tuple = written values) :
    joinCredentials transformCredentials oidc service credentials =
      checkToken transformCredentials oidc service credentials
        ([HttpAuthorization.colon].intercalate (service.id :: values)) := by
  have filled : ¬credentials.tuple.any Option.isNone := by simp [complete, written]
  rw [joinCredentials, if_neg filled, texts_eq_some.mpr complete]

/-- A request proceeds when its token is accepted. -/
theorem checkToken_eq_proceeds {credentials taken : Extracted} {cachedKey key : Bytes}
    (oauth : service.oauth = .ok oidc) (complete : credentials.tuple = written values)
    (own : credentials.token = tokenOf service.backendVersion credentials.tuple) :
    checkToken transformCredentials oidc service credentials cachedKey = .proceeds taken token key ↔
      taken = credentials ∧ key = cachedKey ∧
        Accepted transformCredentials service values token := by
  rw [checkToken, own, complete]
  cases oidc with
  | false =>
      constructor
      · intro proceeds
        cases proceeds
        exact ⟨rfl, rfl, .unchecked oauth⟩
      · rintro ⟨rfl, rfl, accepted⟩
        cases accepted with
        | unchecked _ => rfl
        | checked other _ =>
            rw [oauth] at other
            cases other
  | true =>
      rw [if_pos rfl]
      constructor
      · intro proceeds
        split at proceeds
        · cases proceeds
        · rename_i accepted
          cases proceeds
          exact ⟨rfl, rfl, .checked oauth accepted⟩
      · rintro ⟨rfl, rfl, accepted⟩
        cases accepted with
        | unchecked other =>
            rw [oauth] at other
            cases other
        | checked _ accepted =>
            rw [accepted]

/-- A request that proceeds had complete credentials. -/
theorem joinCredentials_proceeds {credentials taken : Extracted} {cachedKey : Bytes}
    (proceeds : joinCredentials transformCredentials oidc service credentials =
      .proceeds taken token cachedKey) (complete : taken.tuple = written values) :
    credentials.tuple = written values ∧
      checkToken transformCredentials oidc service credentials
        ([HttpAuthorization.colon].intercalate (service.id :: values)) =
          .proceeds taken token cachedKey := by
  have same : taken = credentials := by
    unfold joinCredentials checkToken at proceeds
    split at proceeds
    · cases proceeds
    · split at proceeds
      · cases proceeds
      · split at proceeds
        · split at proceeds
          · cases proceeds
          · cases proceeds
            rfl
        · cases proceeds
          rfl
  subst same
  rw [joinCredentials_eq complete] at proceeds
  exact ⟨complete, proceeds⟩

/-- The two versions that have default credentials do not extract tokens. -/
theorem not_accessToken (version : service.backendVersion = "1" ∨ service.backendVersion = "2")
    (token : Option Value) :
    extractCredentials decodeBase64 service request ≠ .ok (.accessToken token) := by
  unfold extractCredentials
  intro extracted
  split at extracted
  · cases extracted
  · rcases version with version | version
    · rw [if_pos version] at extracted
      unfold version1 at extracted
      split at extracted
      · cases extracted
      · split at extracted
        · cases extracted
        · split at extracted <;> cases extracted
    · rw [if_neg (by simp [version]), if_pos version] at extracted
      unfold version2 at extracted
      dsimp only at extracted
      split at extracted
      · split at extracted <;> cases extracted
      · split at extracted
        · cases extracted
        · split at extracted <;> cases extracted

/-- The version for tokens extracts nothing else. -/
theorem exists_accessToken (version : service.backendVersion = "oauth") {credentials : Extracted}
    (extracted : extractCredentials decodeBase64 service request = .ok credentials) :
    ∃ token, credentials = .accessToken token := by
  unfold extractCredentials at extracted
  split at extracted
  · cases extracted
  · rw [if_neg (by simp [version]), if_neg (by simp [version]), if_pos version] at extracted
    unfold versionOauth at extracted
    dsimp only at extracted
    split at extracted
    · cases extracted
      exact ⟨_, rfl⟩
    · split at extracted
      · cases extracted
        exact ⟨_, rfl⟩
      · split at extracted
        · cases extracted
          exact ⟨_, rfl⟩
        · cases extracted

/-- The token among the extracted credentials is the one for the version. -/
theorem token_of_extracted {credentials : Extracted}
    (extracted : extractCredentials decodeBase64 service request = .ok credentials) :
    credentials.token = tokenOf service.backendVersion credentials.tuple := by
  unfold tokenOf
  by_cases version : service.backendVersion = "oauth"
  · obtain ⟨token, rfl⟩ := exists_accessToken version extracted
    rw [if_pos version]
    rfl
  · rw [if_neg version]
    cases credentials with
    | userKey _ => rfl
    | application _ _ => rfl
    | accessToken token =>
        have supported : service.backendVersion = "1" ∨ service.backendVersion = "2" := by
          by_contra unsupported
          obtain ⟨first, second⟩ := not_or.mp unsupported
          unfold extractCredentials at extracted
          split at extracted
          · cases extracted
          · rw [if_neg first, if_neg second, if_neg version] at extracted
            cases extracted
        exact absurd extracted (not_accessToken supported token)

theorem sent_of_extracted {credentials : Extracted}
    (extracted : extractCredentials decodeBase64 service request = .ok credentials) :
    sent decodeBase64 service request = some credentials.tuple := by
  rw [← tuple_extractCredentials, extracted]
  rfl

theorem sent_of_error {err : String}
    (failed : extractCredentials decodeBase64 service request = .error err) :
    sent decodeBase64 service request = none := by
  rw [← tuple_extractCredentials, failed]
  rfl

/-- The policy takes the credentials for missing exactly when the client sent none of them. -/
theorem credsMissing_iff (version : service.backendVersion = "1" ∨ service.backendVersion = "2") :
    credsMissing decodeBase64 service request ↔ Unsent decodeBase64 service request := by
  unfold credsMissing Unsent
  cases extracted : extractCredentials decodeBase64 service request with
  | error err => simp [sent_of_error extracted]
  | ok credentials =>
      rw [sent_of_extracted extracted]
      cases credentials with
      | userKey key => simp [Extracted.tuple]
      | application id key => simp [Extracted.tuple]
      | accessToken token => exact absurd extracted (not_accessToken version token)

/-- What the policy provides are complete default credentials. -/
theorem exists_defaults {defaultCreds : DefaultCredentials} {credentials : Extracted}
    (version : service.backendVersion = "1" ∨ service.backendVersion = "2")
    (provided : provideCreds service.backendVersion defaultCreds = some credentials) :
    ∃ values, credentials.tuple = written values ∧ credentials.token = none ∧
      Defaults defaultCreds service.backendVersion values := by
  unfold provideCreds at provided
  rcases version with version | version
  · rw [version, if_pos rfl, Option.map_eq_some_iff] at provided
    obtain ⟨userKey, configured, rfl⟩ := provided
    exact ⟨[userKey], rfl, rfl, version ▸ .userKey configured⟩
  · rw [version, if_neg (by decide)] at provided
    split at provided
    · rename_i appId appKey first second
      cases provided
      exact ⟨[appId, appKey], rfl, rfl, version ▸ .application first second⟩
    · cases provided

namespace Defaults

variable {defaultCreds : DefaultCredentials} {version : String}

theorem version_eq (defaults : Defaults defaultCreds version values) :
    version = "1" ∨ version = "2" := by
  cases defaults
  · exact .inl rfl
  · exact .inr rfl

/-- Complete default credentials are what the policy provides. -/
theorem exists_provided (defaults : Defaults defaultCreds version values) :
    ∃ credentials, provideCreds version defaultCreds = some credentials ∧
      credentials.tuple = written values := by
  cases defaults with
  | @userKey userKey configured =>
      exact ⟨.userKey (some (.text userKey)), by simp [provideCreds, configured], rfl⟩
  | @application appId appKey first second =>
      exact ⟨.application (some (.text appId)) (some (.text appKey)),
        by simp [provideCreds, first, second], rfl⟩

/-- Default credentials hold no token. -/
theorem tokenOf_eq (defaults : Defaults defaultCreds version values) (tuple : List (Option Value)) :
    tokenOf version tuple = none := by
  refine if_neg fun oauth => ?_
  rcases defaults.version_eq with same | same <;>
    rw [oauth] at same <;>
    exact absurd same (by decide)

end Defaults

/-- Credentials that are written alike are the same texts. -/
theorem written_injective {others : List Bytes} (same : written values = written others) :
    values = others := by
  have texts := texts_eq_some.mpr same
  rw [texts_eq_some.mpr (rfl : written values = written values)] at texts
  exact Option.some.inj texts

/-- The policy replaces the credentials that were not sent by its own. -/
theorem extractedCredentials_eq_some {policy : Option DefaultCredentials}
    {credentials : Extracted} :
    extractedCredentials decodeBase64 policy service request = some credentials ↔
      ∃ defaultCreds, policy = some defaultCreds ∧
        (service.backendVersion = "1" ∨ service.backendVersion = "2") ∧
        Unsent decodeBase64 service request ∧
        provideCreds service.backendVersion defaultCreds = some credentials := by
  unfold extractedCredentials
  cases policy with
  | none =>
      refine iff_of_false nofun ?_
      rintro ⟨_, absent, _⟩
      cases absent
  | some defaultCreds =>
      dsimp only
      by_cases version : service.backendVersion = "1" ∨ service.backendVersion = "2"
      · rw [if_neg (fun unsupported => version.elim unsupported.1 unsupported.2)]
        by_cases unsent : Unsent decodeBase64 service request
        · rw [if_pos ((credsMissing_iff version).mpr unsent)]
          constructor
          · intro provided
            exact ⟨defaultCreds, rfl, version, unsent, provided⟩
          · rintro ⟨_, same, _, _, provided⟩
            cases same
            exact provided
        · rw [if_neg (mt (credsMissing_iff version).mp unsent)]
          refine iff_of_false nofun ?_
          rintro ⟨_, _, _, missing, _⟩
          exact unsent missing
      · rw [if_pos (not_or.mp version)]
        refine iff_of_false nofun ?_
        rintro ⟨_, _, supported, _⟩
        exact version supported

/-- The credentials that the rewrite phase joins: those of the policy, or else those of the
client. -/
inductive Chosen (decodeBase64 : Bytes → Option Bytes) (policy : Option DefaultCredentials)
    (service : Service) (request : Request) : Extracted → Prop
  | provided {credentials : Extracted}
      (provided : extractedCredentials decodeBase64 policy service request = some credentials) :
      Chosen decodeBase64 policy service request credentials
  | own {credentials : Extracted}
      (kept : extractedCredentials decodeBase64 policy service request = none)
      (extracted : extractCredentials decodeBase64 service request = .ok credentials) :
      Chosen decodeBase64 policy service request credentials

namespace Chosen

variable {policy : Option DefaultCredentials} {credentials : Extracted}

theorem rewrite_eq (chosen : Chosen decodeBase64 policy service request credentials)
    (oauth : service.oauth = .ok oidc) :
    rewrite decodeBase64 transformCredentials policy service request =
      joinCredentials transformCredentials oidc service credentials := by
  unfold rewrite
  rw [oauth]
  dsimp only
  cases chosen with
  | provided provided => rw [provided]
  | own kept extracted => rw [kept, extracted]

/-- A request that proceeds has some credentials to join. -/
theorem exists_of_proceeds {taken : Extracted} {cachedKey : Bytes}
    (proceeds : rewrite decodeBase64 transformCredentials policy service request =
      .proceeds taken token cachedKey) :
    ∃ oidc credentials, service.oauth = .ok oidc ∧
      Chosen decodeBase64 policy service request credentials ∧
      joinCredentials transformCredentials oidc service credentials =
        .proceeds taken token cachedKey := by
  unfold rewrite at proceeds
  split at proceeds
  · cases proceeds
  · rename_i oidc oauth
    split at proceeds
    · rename_i credentials provided
      exact ⟨oidc, credentials, oauth, .provided provided, proceeds⟩
    · rename_i kept
      split at proceeds
      · cases proceeds
      · rename_i credentials extracted
        exact ⟨oidc, credentials, oauth, .own kept extracted, proceeds⟩

/-- The token among the chosen credentials is the one for the version. -/
theorem token_eq (chosen : Chosen decodeBase64 policy service request credentials) :
    credentials.token = tokenOf service.backendVersion credentials.tuple := by
  cases chosen with
  | provided provided =>
      obtain ⟨_, _, version, _, provided⟩ := extractedCredentials_eq_some.mp provided
      obtain ⟨_, _, tokenless, defaults⟩ := exists_defaults version provided
      exact tokenless.trans (defaults.tokenOf_eq credentials.tuple).symm
  | own kept extracted => exact token_of_extracted extracted

end Chosen

/-- Complete credentials are not replaced. -/
theorem extractedCredentials_of_sent (policy : Option DefaultCredentials)
    (complete : sent decodeBase64 service request = some (written values)) :
    extractedCredentials decodeBase64 policy service request = none := by
  refine Option.eq_none_iff_forall_ne_some.mpr fun credentials provided => ?_
  obtain ⟨_, _, version, unsent, _⟩ := extractedCredentials_eq_some.mp provided
  rw [← tuple_extractCredentials, Option.map_eq_some_iff] at complete
  obtain ⟨credentials, read, whole⟩ := complete
  have nothing := unsent credentials.tuple (by rw [← tuple_extractCredentials, read]; rfl)
  rw [whole] at nothing
  cases values with
  | nil => cases credentials <;> cases whole
  | cons value values => cases nothing _ List.mem_cons_self

/-- Complete credentials are chosen exactly when the client gave them, or gave none and they are the
default ones. -/
theorem exists_chosen_iff {policy : Option DefaultCredentials} :
    (∃ credentials, Chosen decodeBase64 policy service request credentials ∧
        credentials.tuple = written values) ↔
      sent decodeBase64 service request = some (written values) ∨
        Unsent decodeBase64 service request ∧
          ∃ defaultCreds, policy = some defaultCreds ∧
            Defaults defaultCreds service.backendVersion values := by
  constructor
  · rintro ⟨credentials, chosen, complete⟩
    cases chosen with
    | provided provided =>
        obtain ⟨defaultCreds, rfl, version, unsent, provided⟩ :=
          extractedCredentials_eq_some.mp provided
        obtain ⟨others, same, _, defaults⟩ := exists_defaults version provided
        obtain rfl := written_injective (complete.symm.trans same)
        exact .inr ⟨unsent, defaultCreds, rfl, defaults⟩
    | own kept extracted => exact .inl (complete ▸ sent_of_extracted extracted)
  · rintro (own | ⟨unsent, defaultCreds, rfl, defaults⟩)
    · have kept := extractedCredentials_of_sent policy own
      rw [← tuple_extractCredentials, Option.map_eq_some_iff] at own
      obtain ⟨credentials, read, complete⟩ := own
      cases extracted : extractCredentials decodeBase64 service request with
      | error err =>
          rw [extracted] at read
          cases read
      | ok found =>
          rw [extracted] at read
          cases read
          exact ⟨credentials, .own kept extracted, complete⟩
    · obtain ⟨credentials, provided, complete⟩ := defaults.exists_provided
      exact ⟨credentials, .provided (extractedCredentials_eq_some.mpr
        ⟨defaultCreds, rfl, defaults.version_eq, unsent, provided⟩), complete⟩

theorem Accepted.exists_oauth (accepted : Accepted transformCredentials service values token) :
    ∃ oidc, service.oauth = .ok oidc := by
  cases accepted with
  | unchecked oauth => exact ⟨false, oauth⟩
  | checked oauth _ => exact ⟨true, oauth⟩

/-- A request goes on with the credentials that the client gave if it gave all of them, each as one
text, or with the complete default ones if it gave none; they are never mixed. With OpenID Connect
its token has to be accepted too. -/
theorem proceedsWith_iff (decodeBase64 : Bytes → Option Bytes)
    (transformCredentials : Option Value → Bytes → Except String Token)
    (policy : Option DefaultCredentials) (service : Service) (request : Request)
    (values : List Bytes) (token : Option Token) (cachedKey : Bytes) :
    ProceedsWith decodeBase64 transformCredentials policy service request values token cachedKey ↔
      cachedKey = [HttpAuthorization.colon].intercalate (service.id :: values) ∧
        (sent decodeBase64 service request = some (written values) ∨
          Unsent decodeBase64 service request ∧
            ∃ defaultCreds, policy = some defaultCreds ∧
              Defaults defaultCreds service.backendVersion values) ∧
        Accepted transformCredentials service values token := by
  constructor
  · rintro ⟨taken, proceeds, complete⟩
    obtain ⟨oidc, credentials, oauth, chosen, joined⟩ := Chosen.exists_of_proceeds proceeds
    obtain ⟨whole, checked⟩ := joinCredentials_proceeds joined complete
    obtain ⟨-, key, accepted⟩ := (checkToken_eq_proceeds oauth whole chosen.token_eq).mp checked
    exact ⟨key, exists_chosen_iff.mp ⟨credentials, chosen, whole⟩, accepted⟩
  · rintro ⟨rfl, given, accepted⟩
    obtain ⟨oidc, oauth⟩ := accepted.exists_oauth
    obtain ⟨credentials, chosen, complete⟩ := exists_chosen_iff.mpr given
    refine ⟨credentials, ?_, complete⟩
    rw [chosen.rewrite_eq oauth, joinCredentials_eq complete]
    exact (checkToken_eq_proceeds oauth complete chosen.token_eq).mpr ⟨rfl, rfl, accepted⟩

end Proceeding

end Credentials

end Apicast
