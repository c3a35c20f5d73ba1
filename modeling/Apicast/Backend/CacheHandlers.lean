import Apicast.Foundation.SharedDict

/-!
# Handlers of the authorization cache

`backend/cache_handler.lua` and the handlers of `policy/caching/caching.lua`: what
each of them makes of a backend response. The entries looked at have not expired.
-/

namespace Apicast

open Foundation

structure BackendResponse where
  status : Option Nat
  headers : Option (SharedDict String String)

structure CachedAuthorization where
  status : Nat
  ttl : Int
  deriving DecidableEq, Repr

abbrev AuthorizationCache := SharedDict String CachedAuthorization

abbrev CacheHandler :=
  AuthorizationCache → String → BackendResponse → Option Int → AuthorizationCache

/-- The handlers that cache every status of a range and leave the entry alone otherwise. -/
def CacheHandler.writing (writes : Nat → Bool) : CacheHandler := fun cache key response ttl =>
  match response.status with
  | some status => if writes status then cache.set key ⟨status, ttl.getD 0⟩ else cache
  | none => cache

namespace BackendCacheHandler

/-- `_M.handlers.strict`; `cachedKey` is `ngx.var.cached_key`. -/
def strict (cachedKey : Option String) : CacheHandler := fun cache key response ttl =>
  if response.status = some 200 then
    if cachedKey = some key then cache else cache.set key ⟨200, ttl.getD 0⟩
  else cache.delete key

/-- `_M.handlers.resilient` -/
def resilient : CacheHandler := .writing fun status => decide (status < 500)

end BackendCacheHandler

namespace CachingPolicy

/-- `is_valid_status` of a status that is there. -/
def isValidStatus (status : Nat) : Bool := decide (0 < status) && decide (status < 500)

theorem isValidStatus_iff {status : Nat} : isValidStatus status ↔ 0 < status ∧ status < 500 := by
  unfold isValidStatus
  rw [Bool.and_eq_true, decide_eq_true_eq, decide_eq_true_eq]

/-- `strict_handler` -/
def strict : CacheHandler := fun cache key response ttl =>
  if response.status = some 200 then cache.set key ⟨200, ttl.getD 0⟩ else cache.delete key

/-- `resilient_handler` -/
def resilient : CacheHandler := .writing isValidStatus

/-- `handle_500_allow_mode` -/
def handle500AllowMode (cache : AuthorizationCache) (key : String) (ttl : Int) :
    AuthorizationCache :=
  (cache.add key ⟨200, ttl⟩).1

/-- `allow_handler` -/
def allow : CacheHandler := fun cache key response ttl =>
  match response.status with
  | some status =>
      if isValidStatus status then cache.set key ⟨status, ttl.getD 0⟩
      else handle500AllowMode cache key (ttl.getD 0)
  | none => handle500AllowMode cache key (ttl.getD 0)

/-- `disabled_cache_handler` -/
def disabled : CacheHandler := fun cache key _ _ => cache.delete key

inductive CachingType
  | resilient
  | strict
  | allow
  | none
  deriving DecidableEq, Repr

/-- `handler(config)`; a missing or unknown type disables the cache. -/
def handler (cachingType : Option CachingType) : CacheHandler :=
  match cachingType with
  | some .resilient => resilient
  | some .strict => strict
  | some .allow => allow
  | some .none | Option.none => disabled

end CachingPolicy

/-- What a writing handler leaves in the entry. -/
theorem CacheHandler.get_writing (writes : Nat → Bool) (cache : AuthorizationCache) (key : String)
    (response : BackendResponse) (ttl : Option Int) :
    (CacheHandler.writing writes cache key response ttl).get key =
      match response.status with
      | some status => if writes status then some ⟨status, ttl.getD 0⟩ else cache.get key
      | none => cache.get key := by
  unfold CacheHandler.writing
  cases response.status with
  | none => rfl
  | some status =>
      by_cases written : writes status
      · simp only [written, ↓reduceIte, SharedDict.get_set_self]
      · simp only [written, Bool.false_eq_true, ↓reduceIte]

/-- What the allowing handler leaves in the entry. -/
theorem CachingPolicy.get_allow (cache : AuthorizationCache) (key : String)
    (response : BackendResponse) (ttl : Option Int) :
    (CachingPolicy.allow cache key response ttl).get key =
      match response.status.filter CachingPolicy.isValidStatus with
      | some status => some ⟨status, ttl.getD 0⟩
      | none => some ((cache.get key).getD ⟨200, ttl.getD 0⟩) := by
  have added : (CachingPolicy.handle500AllowMode cache key (ttl.getD 0)).get key =
      some ((cache.get key).getD ⟨200, ttl.getD 0⟩) := by
    unfold CachingPolicy.handle500AllowMode
    cases present : cache.get key with
    | none => rw [SharedDict.add_of_get_eq_none present, SharedDict.get_set_self, Option.getD_none]
    | some stored => rw [SharedDict.add_of_get_eq_some present, present, Option.getD_some]
  unfold CachingPolicy.allow
  cases response.status with
  | none => exact added
  | some status =>
      by_cases valid : CachingPolicy.isValidStatus status
      · simp only [valid, ↓reduceIte, SharedDict.get_set_self, Option.filter_some]
      · simp only [valid, Bool.false_eq_true, ↓reduceIte, Option.filter_some]
        exact added

end Apicast
