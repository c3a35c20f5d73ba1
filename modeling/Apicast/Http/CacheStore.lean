import Mathlib.Data.Rat.Floor
import Mathlib.Logic.Function.Basic
import Apicast.Foundation.TransitionSystem

/-!
# The store of cached HTTP responses

`resty/http_ng/cache_store.lua`: a request is served from the store while the stored response is
fresh. Otherwise it is sent to the backend, with the validators of the stored response if there is
one. Light threads give up control while the backend is at work, and they keep a reference to the
stored response that they validate. Headers are under their normalized names.
-/

namespace Apicast.CacheStore

open Foundation

/-- What the store uses of the libraries: `tonumber`, `ngx.parse_http_time`, and `ngx_re.split` at
the commas of a header and at the first equals sign of a directive. -/
structure Library where
  tonumber : String → Option ℚ
  parseHttpTime : String → Option ℚ
  splitDirectives : String → List String
  splitDirective : String → Option (String × Option String)

abbrev Headers := String → Option String

/-- The argument of a cache directive, which is true when it has none. -/
inductive Directive
  | number (value : ℚ)
  | text (value : String)
  | present

structure Request where
  method : String
  url : String
  version : ℚ
  headers : Headers

structure Response where
  status : Nat
  headers : Headers
  body : String

/-- A stored response (`_M.entry`). -/
structure Entry where
  body : String
  headers : Headers
  status : Nat
  responseTime : ℚ
  requestTime : ℚ

section Directives

variable (lib : Library)

/-- `gsub(lower(name), '-', '_')` -/
def directiveName (name : String) : String :=
  String.ofList (name.toList.map fun char => if char = '-' then '_' else char.toLower)

def directiveOf : Option String → Directive
  | none => .present
  | some argument =>
      match lib.tonumber argument with
      | some value => .number value
      | none => .text argument

/-- `tonumber` of a directive. -/
def Directive.toNumber : Directive → Option ℚ
  | number value => some value
  | text value => lib.tonumber value
  | present => none

/-- `parse_cache_control`. The last one of several directives of a name counts. -/
def parseCacheControl (value : Option String) : String → Option Directive :=
  (value.elim [] lib.splitDirectives).foldl (fun control piece =>
    match lib.splitDirective piece with
    | none => control
    | some (name, argument) =>
        Function.update control (directiveName name) (some (directiveOf lib argument)))
    fun _ => none

def has (header : Option String) (name : String) : Bool :=
  (parseCacheControl lib header name).isSome

def noCache (request : Request) : Bool :=
  has lib (request.headers "Pragma") "no_cache" ||
    has lib (request.headers "Cache-Control") "no_cache"

def reuseStoredResponse (request : Request) : Bool :=
  1 < request.version && !noCache lib request

def requestCacheKey (request : Request) : String := request.method ++ ":" ++ request.url

end Directives

section Freshness

variable (lib : Library) (shared : Bool)

/-- `ngx.parse_http_time` of the date, which raises an error without one. -/
def dateOf (headers : Headers) : Except String (Option ℚ) :=
  match headers "Date" with
  | none => .error "argument not a string"
  | some date => .ok (lib.parseHttpTime date)

/-- `freshness_lifetime`, which is nothing when its directive is not a number. -/
def freshnessLifetime (headers : Headers) : Except String (Option ℚ) := do
  let cacheControl := parseCacheControl lib (headers "Cache-Control")
  let expires := lib.parseHttpTime ((headers "Expires").getD "")
  let date ← dateOf lib headers
  match (if shared then cacheControl "s_maxage" else none).or (cacheControl "max_age") with
  | some directive => .ok (directive.toNumber lib)
  | none =>
      match expires, date with
      | none, _ => .ok (some 0)
      | some _, none => .error "attempt to perform arithmetic on local 'date' (a nil value)"
      | some expires, some date => .ok (some (expires - date))

/-- The age of a stored response (RFC 7234, section 4.2.3). -/
def ageFrom (ageValue dateValue responseTime requestTime now : ℚ) : ℚ :=
  let apparentAge := max 0 (responseTime - dateValue)
  let responseDelay := responseTime - requestTime
  let correctedInitialAge := max apparentAge (ageValue + responseDelay)
  correctedInitialAge + (now - responseTime)

/-- `current_age`, where the age value is zero. -/
def currentAge (response : Entry) (now : ℚ) : Except String ℚ := do
  match ← dateOf lib response.headers with
  | none => .error "attempt to perform arithmetic on local 'date_value' (a nil value)"
  | some date => .ok (ageFrom 0 date response.responseTime response.requestTime now)

/-- `fresh_response`, with the age. -/
def freshResponse (response : Entry) (now : ℚ) : Except String (Bool × ℚ) := do
  let age ← currentAge lib response now
  match ← freshnessLifetime lib shared response.headers with
  | none => .error "attempt to compare number with nil"
  | some lifetime => .ok (age < lifetime, age)

end Freshness

section Store

/-- References to the stored responses, and what these are. -/
structure Store where
  cache : String → Option Nat
  entries : Nat → Option Entry
  created : Nat

def Store.setHeader (store : Store) (id : Nat) (name value : String) : Store :=
  { store with
    entries := Function.update store.entries id ((store.entries id).map fun entry =>
      { entry with headers := Function.update entry.headers name (some value) }) }

/-- The stored response under a key, with its reference. -/
def Store.find (store : Store) (key : String) : Option (Nat × Entry) :=
  (store.cache key).bind fun id => (store.entries id).map fun entry => (id, entry)

inductive Found
  | hit (id : Nat)
  | mustRevalidate (id : Nat)
  | nothing (error : Option String)

variable (lib : Library) (shared : Bool)

/-- `_M:get`. A response that is not fresh is never served, also when it may be stale. -/
def get (store : Store) (now : ℚ) (request : Request) : Except String (Found × Store) :=
  if !reuseStoredResponse lib request then
    .ok (.nothing (some "not reusing stored response"), store)
  else
    match store.find (requestCacheKey request) with
    | none => .ok (.nothing none, store)
    | some (id, entry) => do
        let (fresh, age) ← freshResponse lib shared entry now
        if fresh then
          let store := store.setHeader id "Age" (toString ⌊age⌋)
          .ok (.hit id, store.setHeader id "X-Cache-Status" "HIT")
        else
          let store := store.setHeader id "X-Cache-Status" "EXPIRED"
          let stale := has lib (entry.headers "Cache-Control") "must_revalidate"
          .ok (.mustRevalidate id,
            if stale then store.setHeader id "X-Cache-Status" "STALE" else store)

/-- `cacheable_response` -/
def cacheableResponse (request : Request) (response : Response) : Bool :=
  let requested := has lib (request.headers "Cache-Control")
  let responded := has lib (response.headers "Cache-Control")
  (request.method = "GET" || request.method = "HEAD") &&
    response.status = 200 &&
    !(requested "no_store" || responded "no_store") &&
    !(shared && responded "private") &&
    !(shared && (request.headers "Authorization").isSome) &&
    ((response.headers "Expires").isSome || responded "max_age" ||
      (responded "s_maxage" && shared))

/-- A response is stored when it is cacheable and has a maximum age. -/
def stores (request : Request) (response : Response) : Bool :=
  cacheableResponse lib shared request response &&
    has lib (response.headers "Cache-Control") "max_age"

/-- A response that was not in the store is marked so, also when it is not stored. -/
def Response.missed (response : Response) : Response :=
  { response with headers := Function.update response.headers "X-Cache-Status" (some "MISS") }

/-- `_M:set` -/
def set (store : Store) (request : Request) (requestTime : ℚ) (response : Response)
    (responseTime : ℚ) : Store :=
  if stores lib shared request response then
    { cache := Function.update store.cache (requestCacheKey request) (some store.created)
      entries := Function.update store.entries store.created (some
        { body := response.body
          headers := response.missed.headers
          status := response.status
          responseTime
          requestTime })
      created := store.created + 1 }
  else store

/-- A response without a body selects the stored one: it has the same entity tag, or both are
without validators. -/
def selects (stored : Entry) (response : Response) : Bool :=
  match response.headers "ETag" with
  | some etag => stored.headers "ETag" = some etag
  | none => (response.headers "Last-Modified").isNone && (stored.headers "ETag").isNone &&
      (stored.headers "Last-Modified").isNone

/-- `freshen_stored_response`. The times of the stored response stay as they are. -/
def freshenStoredResponse (stored : Entry) (response : Response) : Entry :=
  if selects stored response then
    let replaced : Headers := fun name =>
      if (stored.headers name).isSome then (response.headers name).or (stored.headers name)
      else none
    { stored with headers := Function.update replaced "X-Cache-Status" (some "REVALIDATED") }
  else stored

end Store

section Requests

/-- A request at the backend, with the time at which it was sent. -/
inductive Pending
  | revalidating (id : Nat) (request : Request) (time : ℚ)
  | fetching (request : Request) (time : ℚ)

/-- What `_M:send` returns: a stored response, the one of the backend, or nothing. -/
inductive Sent
  | stored (id : Nat)
  | relayed (response : Response)
  | nothing

/-- What a stored response was validated by last: the response of the backend that it was made of,
or one that selected it. The store keeps no record of this. -/
structure Validation where
  requestTime : ℚ
  responseTime : ℚ
  age : ℚ
  selected : Bool

structure State (Thread : Type*) where
  now : ℚ
  store : Store
  pending : Thread → Option Pending
  results : Thread → Option (Except String Sent)
  validations : Nat → Validation

inductive Action (Thread : Type*)
  | send (thread : Thread) (now : ℚ) (request : Request)
  /-- The backend returns a response or nothing. -/
  | arrive (thread : Thread) (now : ℚ) (response : Option Response)
  | evict (key : String)

variable {Thread : Type*} [DecidableEq Thread] (lib : Library) (shared : Bool)

/-- The value of the `Age` header, in a form appropriate for arithmetic operation, or zero. -/
def ageValue (headers : Headers) : ℚ :=
  ((headers "Age").bind lib.tonumber).elim 0 (max 0)

namespace State

variable (state : State Thread) (thread : Thread)

def finish (result : Except String Sent) : State Thread :=
  { state with
    pending := Function.update state.pending thread none
    results := Function.update state.results thread (some result) }

def await (pending : Pending) : State Thread :=
  { state with pending := Function.update state.pending thread (some pending) }

/-- `_M:set`, for a response that has just arrived. -/
def save (request : Request) (time : ℚ) (response : Response) : State Thread :=
  { state with
    store := set lib shared state.store request time response state.now
    validations :=
      if stores lib shared request response then
        Function.update state.validations state.store.created
          ⟨time, state.now, ageValue lib response.headers, false⟩
      else state.validations }

/-- A stored response is made of another one that has the reply of the backend. -/
def freshen (id : Nat) (stored : Entry) (time : ℚ) (response : Response) : State Thread :=
  { state with
    store := { state.store with
      entries := Function.update state.store.entries id
        (some (freshenStoredResponse stored response)) }
    validations :=
      if selects stored response then
        Function.update state.validations id
          ⟨time, state.now, ageValue lib response.headers, true⟩
      else state.validations }

end State

/-- The request that is sent in order to validate a stored response. -/
def conditional (request : Request) (stored : Entry) : Request :=
  { request with
    headers := Function.update
      (Function.update request.headers "If-Modified-Since" (stored.headers "Last-Modified"))
      "If-None-Match" (stored.headers "ETag") }

/-- `_M:send` until the backend is at work. -/
def begin (state : State Thread) (thread : Thread) (request : Request) : State Thread :=
  match get lib shared state.store state.now request with
  | .error error => state.finish thread (.error error)
  | .ok (.hit id, store) => { state with store }.finish thread (.ok (.stored id))
  | .ok (.mustRevalidate id, store) =>
      match store.entries id with
      | none => state
      | some stored =>
          { state with store := store.setHeader id "X-Cache-Status" "UPDATING" }.await thread
            (.revalidating id (conditional request stored) state.now)
  | .ok (.nothing _, store) =>
      { state with store }.await thread (.fetching request state.now)

/-- `_M:revalidate` and the rest of `_M:send`, when the backend is done. -/
def resume (state : State Thread) (thread : Thread) (response : Option Response) :
    Pending → State Thread
  | .fetching request time =>
      match response with
      | none => state.finish thread (.ok .nothing)
      | some response => (state.save lib shared request time response).finish thread
          (.ok (.relayed response.missed))
  | .revalidating id request time =>
      match response, state.store.entries id with
      | some response, some stored =>
          if response.status = 304 then
            (state.freshen lib id stored time response).finish thread (.ok (.stored id))
          else if 500 ≤ response.status ∧ response.status < 600 then
            state.finish thread (.ok (.stored id))
          else
            (state.save lib shared request time response).finish thread
              (.ok (.relayed response.missed))
      | _, _ => state.finish thread (.error "attempt to index local 'res' (a nil value)")

def next (state : State Thread) : Action Thread → Option (State Thread)
  | .send thread now request =>
      if state.now ≤ now ∧ (state.pending thread).isNone then
        some (begin lib shared { state with now } thread request)
      else none
  | .arrive thread now response =>
      if state.now ≤ now then
        (state.pending thread).map (resume lib shared { state with now } thread response)
      else none
  | .evict key => some { state with
      store := { state.store with cache := Function.update state.store.cache key none } }

/-- Requests of any threads through a store that is empty at first. -/
def machine (now : ℚ) : Machine (State Thread) (Action Thread) where
  initial :=
    { now
      store := { cache := fun _ => none, entries := fun _ => none, created := 0 }
      pending := fun _ => none
      results := fun _ => none
      validations := fun _ => ⟨now, now, 0, false⟩ }
  next := next lib shared

end Requests

end Apicast.CacheStore
