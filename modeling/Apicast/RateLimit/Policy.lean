import Apicast.Conditions
import Apicast.Foundation.DelimitedString

/-!
# The rate limit policy

`policy/rate_limit/rate_limit.lua`: the limiters and counter keys built for a
request, the access phase, and the check-in of connection slots scheduled by the
log phase. The limiters of the traffic library are known by what they do to the
connection counters: a committed connection takes one unit, a leaving one gives
it back, and a combination that does not let the request pass takes nothing.
-/

namespace Apicast.RateLimit

open Foundation

inductive LimiterType
  | connections
  | leakyBucket
  | fixedWindow
  deriving DecidableEq, Repr

/-- The names under which `traffic_limiters` holds the types. -/
def LimiterType.name : LimiterType → String
  | connections => "connections"
  | leakyBucket => "leaky_bucket"
  | fixedWindow => "fixed_window"

inductive Scope
  | global
  | service
  deriving DecidableEq, Repr

structure LimiterKey where
  name : String
  nameType : Option TemplateType
  scope : Option Scope
  deriving DecidableEq, Repr

structure LimiterConfig where
  key : LimiterKey
  condition : Option Condition
  window : Option Int
  deriving DecidableEq, Repr

/-- What the policy reads of a request besides its configuration. -/
structure RequestEnvironment (Context : Type*) extends TemplateEngine Context where
  /-- `context.service.id` -/
  serviceId : Context → String

/-- A context that is only a service identifier, and templates without Liquid. -/
def RequestEnvironment.literal : RequestEnvironment String where
  liquid _ := none
  isMatch _ _ := false
  serviceId := id

/-- `traffic_limiters[type](limiter)` as far as it changes the configuration: a
fixed window without a positive length becomes one of a second. -/
def LimiterConfig.prepare (type : LimiterType) (limiter : LimiterConfig) : LimiterConfig :=
  match type with
  | .fixedWindow =>
      if limiter.window.getD 0 ≤ 0 then { limiter with window := some 1 } else limiter
  | _ => limiter

/-- `limiter.template_string:render(context)` -/
def LimiterConfig.render {Context : Type*} (environment : RequestEnvironment Context)
    (limiter : LimiterConfig) (context : Context) : String :=
  TemplateString.render environment.toTemplateEngine limiter.key.name
    (limiter.key.nameType.getD .plain) context

/-- The condition of a limiter without one has no operations. -/
def LimiterConfig.conditionIsTrue {Context : Type*} (environment : RequestEnvironment Context)
    (limiter : LimiterConfig) (context : Context) : Bool :=
  (limiter.condition.getD ⟨[], none⟩).evaluate environment.toTemplateEngine context

/-- The start of the fixed window of a prepared limiter that contains a time. -/
def LimiterConfig.windowStart (limiter : LimiterConfig) (time : Int) : Int :=
  time - time % limiter.window.getD 1

/-- The counter key of a limiter, as `build_limiters_and_keys` formats it. -/
def counterKey {Context : Type*} (environment : RequestEnvironment Context) (type : LimiterType)
    (limiter : LimiterConfig) (context : Context) (time : Int) : String :=
  let key := limiter.render environment context
  let key :=
    if limiter.key.scope = some .global then Delimited.join '_' type.name key
    else Delimited.join '_' (environment.serviceId context) (Delimited.join '_' type.name key)
  if type = .fixedWindow then
    Delimited.join '_' (Int.repr ((limiter.prepare type).windowStart time)) key
  else key

/-- The dictionary behind a limiter: the shared memory zone, or Redis. -/
inductive Store
  | sharedMemory
  | redis (url : String)
  deriving DecidableEq, Repr

/-- A limiter object of one request. The chain entry that built it and its place
among the limiters of that entry are its identity. -/
structure Limiter where
  owner : Nat
  index : Nat
  type : LimiterType
  config : LimiterConfig
  dict : Store
  deriving DecidableEq, Repr

def Limiter.identity (limiter : Limiter) : Nat × LimiterType × Nat :=
  (limiter.owner, limiter.type, limiter.index)

/-- `rate_limit.lua`, `build_limiters_and_keys`, with the condition of each limiter. -/
def buildLimitersAndKeys {Context : Type*} (environment : RequestEnvironment Context)
    (owner : Nat) (type : LimiterType) (limiters : List LimiterConfig) (redis : Option Store)
    (context : Context) (time : Int) : List (Limiter × String) :=
  limiters.mapIdx fun index limiter =>
    ({ owner, index, type, config := limiter.prepare type, dict := redis.getD .sharedMemory },
      counterKey environment type limiter context time)

inductive ErrorHandling
  | exit
  | log
  deriving DecidableEq, Repr

structure ErrorSetting where
  statusCode : Nat
  errorHandling : ErrorHandling
  deriving DecidableEq, Repr

structure Policy where
  connectionLimiters : List LimiterConfig
  leakyBucketLimiters : List LimiterConfig
  fixedWindowLimiters : List LimiterConfig
  redisUrl : Option String
  limitsExceeded : ErrorSetting
  configurationIssue : ErrorSetting
  deriving DecidableEq, Repr

/-- How the access phase of one instance ends. -/
inductive AccessResult
  | passed
  | refused (err : String)
  | exited (status : Nat)
  deriving DecidableEq, Repr

/-- Whether `ngx.exit` ended the phase. -/
def AccessResult.isExit : AccessResult → Bool
  | exited _ => true
  | _ => false

/-- `error(error_settings, type)` and the return that follows it. -/
def ErrorSetting.fail (setting : ErrorSetting) (err : String) : AccessResult :=
  match setting.errorHandling with
  | .exit => .exited setting.statusCode
  | .log => .refused err

/-- `limit_traffic.combine` -/
inductive Combined
  | passed
  | rejected
  | failed (err : String)
  deriving DecidableEq, Repr

/-- The address of a counter. -/
structure Slot where
  store : Store
  key : String
  deriving DecidableEq, Repr

/-- The slot that a committed connection limiter holds. -/
def slot (held : Limiter × String) : Slot := ⟨held.1.dict, held.2⟩

/-- The connection counters, `ngx.ctx.limiters` with `ngx.ctx.keys`, and a record
of the slots taken and given back. -/
structure Request where
  counters : Slot → Int
  limiters : List (Limiter × String)
  taken : List (Limiter × String)
  released : List (Limiter × String)

/-- A policy instance of the chain, the context and time it runs at, and the
answers it gets from Redis, from the limiters and from the timer. -/
structure Visit (Context : Type*) where
  policy : Policy
  context : Context
  time : Int
  connects : Bool
  combined : Combined
  timer : Bool
  reconnects : Bool

/-- `redis_shdict.new` where a URL is configured. -/
def connect (redisUrl : Option String) (answer : Bool) : Except String (Option Store) :=
  match redisUrl with
  | none => .ok none
  | some url =>
      if url = "" then .ok none
      else if answer then .ok (some (.redis url))
      else .error "failed to connect Redis"

section Phases

variable {Context : Type*} (environment : RequestEnvironment Context)

/-- The limiters of an instance whose conditions are true, with their keys. -/
def Policy.select (self : Policy) (owner : Nat) (redis : Option Store) (context : Context)
    (time : Int) : List (Limiter × String) :=
  (buildLimitersAndKeys environment owner .connections self.connectionLimiters redis context time ++
    buildLimitersAndKeys environment owner .leakyBucket self.leakyBucketLimiters redis context
      time ++
    buildLimitersAndKeys environment owner .fixedWindow self.fixedWindowLimiters redis context
      time).filter fun limiter => limiter.1.config.conditionIsTrue environment context

/-- The limiters that answer `is_committed` once the combination has passed. -/
def committed (limiters : List (Limiter × String)) : List (Limiter × String) :=
  limiters.filter fun limiter => limiter.1.type = .connections

/-- A committed `incoming` of a connection limiter, or its `leaving`. -/
def Request.count (request : Request) (held : Limiter × String) (value : Int) : Request :=
  { request with
    counters := Function.update request.counters (slot held)
      (request.counters (slot held) + value) }

def Request.take (request : Request) (held : Limiter × String) : Request :=
  { request.count held 1 with taken := request.taken ++ [held] }

def Request.leave (request : Request) (held : Limiter × String) : Request :=
  { request.count held (-1) with released := request.released ++ [held] }

/-- `rate_limit.lua`, `_M:access`. -/
def access (owner : Nat) (visit : Visit Context) (request : Request) : Request × AccessResult :=
  match connect visit.policy.redisUrl visit.connects with
  | .error err => (request, visit.policy.configurationIssue.fail err)
  | .ok redis =>
      match visit.combined with
      | .rejected => (request, visit.policy.limitsExceeded.fail "limits exceeded")
      | .failed err => (request, visit.policy.configurationIssue.fail err)
      | .passed =>
          let connections := committed
            (visit.policy.select environment owner redis visit.context visit.time)
          let request := connections.foldl Request.take request
          if connections = [] then (request, .passed)
          else ({ request with limiters := connections }, .passed)

/-- The access phase of the chain: an exit ends it. -/
def accessPhase (owner : Nat) (visits : List (Visit Context)) (request : Request) : Request :=
  match visits with
  | [] => request
  | visit :: visits =>
      let (request, result) := access environment owner visit request
      if result.isExit then request else accessPhase (owner + 1) visits request

/-- `rate_limit.lua`, `_M:log` of every instance: the check-ins that get a timer. -/
def scheduled (visits : List (Visit Context)) (request : Request) : List (Visit Context) :=
  if request.limiters = [] then [] else visits.filter (·.timer)

/-- `rate_limit.lua`, `checkin`. -/
def checkin (visit : Visit Context) (request : Request) : Request :=
  match connect visit.policy.redisUrl visit.reconnects with
  | .error _ => request
  | .ok redis =>
      let limiters := request.limiters.map fun held =>
        ({ held.1 with dict := redis.getD held.1.dict }, held.2)
      limiters.foldl Request.leave { request with limiters }

end Phases

end Apicast.RateLimit
