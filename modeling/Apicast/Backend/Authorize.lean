import Apicast.Backend.Decisions

/-!
# The authorization of a request

`proxy.lua`, `_M:authorize`: a cached authorization is used when there is one, otherwise
the answer of the backend is turned into the outcome of the access phase.
-/

namespace Apicast

open Foundation

/-- The errors of a request that was not authorized. -/
inductive Rejection
  | limitsExceeded
  | authorizationFailed
  deriving DecidableEq, Repr

/-- The outcome of an access phase. -/
inductive AccessOutcome
  | passes
  | rejected (error : Rejection) (retryAfter : Option String)
  /-- The phase raises an error of its own. -/
  | raises
  deriving DecidableEq, Repr

def AccessOutcome.error : AccessOutcome → Option Rejection
  | .rejected error _ => some error
  | _ => none

/-- One outcome lets the request through exactly when the other does, and when both reject
it they use the same kind of error. -/
def AccessOutcome.Same (first second : AccessOutcome) : Prop :=
  (first = .passes ↔ second = .passes) ∧
    ∀ error ∈ first.error, ∀ other ∈ second.error, error = other

namespace Proxy

variable (tonumber : String → Option Rat)

/-- `_M:authorize` after the key of the authorization is there: `isKnown` is the status that
the cache had for it, and `cache` what the cache is when the backend has answered. -/
def authorize (cacheHandler : CacheHandler) (cacheIsDisabled : Bool) (isKnown : Option Nat)
    (cache : AuthorizationCache) (cachedKey : String) (response : BackendResponse)
    (ttl : Option Int) : AuthorizationCache × AccessOutcome :=
  if isKnown = some 200 ∧ cacheIsDisabled = false then (cache, .passes)
  else
    let handled := handleBackendResponse tonumber cacheHandler cache cachedKey response ttl
    if handled.2.authorized then (handled.1, .passes)
    else if handled.2.unauthorizedReason = some "limits_exceeded" then
      (handled.1, .rejected .limitsExceeded handled.2.retryAfter)
    else (handled.1, .rejected .authorizationFailed none)

variable {tonumber} {cacheHandler : CacheHandler} {cacheIsDisabled : Bool} {isKnown : Option Nat}
  {cache : AuthorizationCache} {cachedKey : String} {response : BackendResponse}
  {ttl : Option Int}

end Proxy

end Apicast
