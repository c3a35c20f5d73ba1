import Apicast.Backend.Authorize
import Apicast.Batcher.AuthsCache

/-!
# The access phase of the batcher

The batcher asks the backend itself for the authorizations that it has not cached. What it
makes of an answer is compared with what the proxy makes of the same answer: requests are
let through by both or by none, but the errors can be of different kinds.
-/

namespace Apicast.Batcher

open Foundation

/-- The caches of an instance of the policy. -/
structure Caches where
  authsCache : AuthsCache
  backendDowntimeCache : AuthorizationCache

/-- What an access phase leaves: the outcome, the caches, and whether the call is reported. -/
structure Accessed where
  outcome : AccessOutcome
  caches : Caches
  reported : Bool

/-- `error` -/
def error (rejectionReason : Option String) : AccessOutcome :=
  if rejectionReason = some "limits_exceeded" then .rejected .limitsExceeded none
  else .rejected .authorizationFailed none

def updateDowntimeCache (cache : AuthorizationCache) (transaction : Transaction)
    (backendStatus : Option Nat) (cacheHandler : Option CacheHandler) : AuthorizationCache :=
  match cacheHandler with
  | some cacheHandler =>
      cacheHandler cache (keyForCachedAuth transaction) ⟨backendStatus, none⟩ none
  | none => cache

def handleBackendOk (self : Caches) (transaction : Transaction) : Accessed where
  outcome := .passes
  caches := { self with authsCache := self.authsCache.set transaction 200 none }
  reported := true

def handleBackendDenied (self : Caches) (transaction : Transaction) (status : Nat)
    (headers : Option (SharedDict String String)) : Accessed :=
  let rejectionReason := Proxy.rejectionReason headers
  { outcome := error rejectionReason
    caches := { self with authsCache := self.authsCache.set transaction status rejectionReason }
    reported := false }

def handleBackendError (self : Caches) (transaction : Transaction)
    (cacheHandler : Option CacheHandler) : Accessed :=
  let cached := (self.backendDowntimeCache.get (keyForCachedAuth transaction)).map (·.status)
  if cacheHandler.isSome ∧ cached = some 200 then ⟨.passes, self, true⟩
  else ⟨error none, self, false⟩

def handleCachedAuth (self : Caches) (cachedStatus : Nat) (rejectionReason : Option String) :
    Accessed :=
  if cachedStatus = 200 then ⟨.passes, self, true⟩ else ⟨error rejectionReason, self, false⟩

/-- `_M:access` after the checks of the usage, with the answer of the backend. -/
def access (self : Caches) (transaction : Transaction) (cacheHandler : Option CacheHandler)
    (response : BackendResponse) : Accessed :=
  match self.authsCache.get transaction with
  | (some cachedStatus, rejectionReason) => handleCachedAuth self cachedStatus rejectionReason
  | (none, _) =>
      let self := { self with
        backendDowntimeCache :=
          updateDowntimeCache self.backendDowntimeCache transaction response.status cacheHandler }
      match response.status with
      -- `nil` cannot be compared with a number
      | none => ⟨.raises, self, false⟩
      | some status =>
          if status = 200 then handleBackendOk self transaction
          else if 400 ≤ status ∧ status < 500 then
            handleBackendDenied self transaction status response.headers
          else handleBackendError self transaction cacheHandler

section Access

variable {self : Caches} {transaction : Transaction} {cacheHandler : Option CacheHandler}
  {status : Nat} {headers : Option (SharedDict String String)}

end Access

section Handlers

variable {cache other : AuthorizationCache} {key another : String} {status : Nat}
  {headers otherHeaders : Option (SharedDict String String)} {ttl otherTtl : Option Int}

end Handlers

section Compared

variable {configured : Option (Option CachingPolicy.CachingType)}
  {cache downtime : AuthorizationCache}
  {key : String} {status : Nat} {headers : Option (SharedDict String String)} {ttl : Option Int}
  {transaction : Transaction}

variable {self : Caches} {cacheIsDisabled : Bool} {isKnown : Option Nat}
  {tonumber : String → Option Rat}

section Examples

/-- A call for one metric, with no cached authorization. -/
private def call : Transaction where
  serviceId := "42"
  credentials := { userKey := some "key" }
  usage := Usage.new.add "hits" 1

private def zero (text : String) : Option Rat := if text = "0" then some 0 else none

/-- The headers of a rejection for exceeded limits. -/
private def limitsExceeded (maxValue : String) : Option (SharedDict String String) :=
  some ((SharedDict.set ∅ "3scale-rejection-reason" "limits_exceeded").set
    "3scale-limit-max-value" maxValue)

end Examples

end Compared

end Apicast.Batcher
