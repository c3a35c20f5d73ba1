import Apicast.Backend.CachedKey
import Apicast.Backend.Decisions
import Apicast.Foundation.TransitionSystem
import Apicast.OpenIdConnect.Oidc
import Mathlib.Algebra.Ring.Int.Defs

/-!
# Cached authorizations and the lifetime of tokens

The rewrite phase of `proxy.lua` keeps how long a token is valid in `ngx.ctx`, the access
phase looks for it in the context of the policies, and the report of a request that was
authorized by the cache is sent without it. The phases of one request are the steps of a
machine, in between which other requests change the cache and the handler. Times are in
milliseconds.
-/

namespace Apicast.Proxy

open Foundation

/-- The caching handlers: those of `APICAST_BACKEND_CACHE_HANDLER` and those of the policy. -/
inductive HandlerKind
  | strict
  | resilient
  | missing
  | caching (cachingType : Option CachingPolicy.CachingType)
  deriving DecidableEq, Repr

/-- What a handler does with the entry of its key. -/
inductive CacheEffect
  | store (entry : CachedAuthorization)
  | remove
  | keep
  deriving DecidableEq, Repr

/-- The entry that is written, if any. -/
def CacheEffect.written : CacheEffect → Option CachedAuthorization
  | .store entry => some entry
  | .remove | .keep => none

def CacheEffect.apply (cache : AuthorizationCache) (key : String) :
    CacheEffect → AuthorizationCache
  | .store entry => cache.set key entry
  | .remove => cache.delete key
  | .keep => cache

namespace HandlerKind

/-- The handler, where `cachedKeyVar` is the value of `ngx.var.cached_key`. -/
def handler (cachedKeyVar : Option String) : HandlerKind → CacheHandler
  | .strict => BackendCacheHandler.strict cachedKeyVar
  | .resilient => BackendCacheHandler.resilient
  | .missing => fun cache _ _ _ => cache
  | .caching cachingType => CachingPolicy.handler cachingType

/-- The status that is stored for an answer, if any: `own` tells that `ngx.var.cached_key` is
the key of the entry, and `known` that there is an entry already. -/
def storedStatus (kind : HandlerKind) (own known : Bool) (status : Option Nat) : Option Nat :=
  match kind with
  | .strict => if status = some 200 ∧ own = false then some 200 else none
  | .resilient => status.filter fun code => decide (code < 500)
  | .missing => none
  | .caching (some .strict) => if status = some 200 then some 200 else none
  | .caching (some .resilient) => status.filter CachingPolicy.isValidStatus
  | .caching (some .allow) =>
      match status.filter CachingPolicy.isValidStatus with
      | some code => some code
      | none => if known then none else some 200
  | .caching (some .none) | .caching none => none

/-- The answers after which the entry is deleted. -/
def removes (kind : HandlerKind) (status : Option Nat) : Bool :=
  match kind with
  | .strict | .caching (some .strict) => decide (status ≠ some 200)
  | .caching (some .none) | .caching none => true
  | .resilient | .missing | .caching (some .resilient) | .caching (some .allow) => false

def effect (kind : HandlerKind) (own known : Bool) (response : BackendResponse)
    (ttl : Option Int) : CacheEffect :=
  match kind.storedStatus own known response.status with
  | some status => .store ⟨status, ttl.getD 0⟩
  | none => if kind.removes response.status then .remove else .keep

theorem written_effect (kind : HandlerKind) (own known : Bool) (response : BackendResponse)
    (ttl : Option Int) :
    (kind.effect own known response ttl).written =
      (kind.storedStatus own known response.status).map fun status => ⟨status, ttl.getD 0⟩ := by
  unfold effect
  cases kind.storedStatus own known response.status with
  | some status => rfl
  | none =>
      dsimp only
      split <;> rfl

/-- A handler that stores what the filter lets through has the effect of storing it. -/
theorem writing_eq (writes : Nat → Bool) (cache : AuthorizationCache) (key : String)
    (response : BackendResponse) (ttl : Option Int) :
    CacheHandler.writing writes cache key response ttl =
      match response.status.filter writes with
      | some status => cache.set key ⟨status, ttl.getD 0⟩
      | none => cache := by
  unfold CacheHandler.writing
  cases response.status with
  | none => rfl
  | some status =>
      rw [Option.filter_some]
      by_cases written : writes status
      · simp only [written, ↓reduceIte]
      · simp only [written, Bool.false_eq_true, ↓reduceIte]

theorem allow_eq (cache : AuthorizationCache) (key : String) (response : BackendResponse)
    (ttl : Option Int) :
    CachingPolicy.handler (some .allow) cache key response ttl =
      match response.status.filter CachingPolicy.isValidStatus with
      | some status => cache.set key ⟨status, ttl.getD 0⟩
      | none => if (cache.get key).isSome then cache else cache.set key ⟨200, ttl.getD 0⟩ := by
  have added : CachingPolicy.handle500AllowMode cache key (ttl.getD 0) =
      if (cache.get key).isSome then cache else cache.set key ⟨200, ttl.getD 0⟩ := by
    unfold CachingPolicy.handle500AllowMode
    cases present : cache.get key with
    | none => rw [SharedDict.add_of_get_eq_none present, Option.isSome_none, if_neg nofun]
    | some stored => rw [SharedDict.add_of_get_eq_some present, Option.isSome_some, if_pos rfl]
  change CachingPolicy.allow cache key response ttl = _
  unfold CachingPolicy.allow
  cases response.status with
  | none => exact added
  | some status =>
      rw [Option.filter_some]
      by_cases valid : CachingPolicy.isValidStatus status
      · simp only [valid, ↓reduceIte]
      · simp only [valid, Bool.false_eq_true, ↓reduceIte]
        exact added

/-- Every handler has the effect that its kind, the answer and the entry tell. -/
theorem handler_eq_effect (kind : HandlerKind) (cachedKeyVar : Option String)
    (cache : AuthorizationCache) (key : String) (response : BackendResponse) (ttl : Option Int) :
    kind.handler cachedKeyVar cache key response ttl =
      (kind.effect (decide (cachedKeyVar = some key)) (cache.get key).isSome response
        ttl).apply cache key := by
  unfold effect
  cases kind with
  | strict =>
      unfold handler BackendCacheHandler.strict storedStatus removes
      dsimp only
      by_cases authorized : response.status = some 200
      · by_cases own : cachedKeyVar = some key
        · simp only [authorized, own, ↓reduceIte, decide_true, Bool.true_eq_false, and_false,
            ne_eq, not_true_eq_false, decide_false, Bool.false_eq_true]
          rfl
        · simp only [authorized, own, ↓reduceIte, decide_false, and_self]
          rfl
      · simp only [authorized, ↓reduceIte, false_and, ne_eq, not_false_eq_true, decide_true]
        rfl
  | resilient =>
      change CacheHandler.writing (fun status => decide (status < 500)) cache key response ttl = _
      rw [writing_eq]
      unfold storedStatus removes
      dsimp only
      split <;> rfl
  | missing => rfl
  | caching cachingType =>
      cases cachingType with
      | none => rfl
      | some cachingType =>
          cases cachingType with
          | none => rfl
          | strict =>
              unfold handler CachingPolicy.handler CachingPolicy.strict storedStatus removes
              dsimp only
              by_cases authorized : response.status = some 200
              · simp only [authorized, ↓reduceIte]
                rfl
              · simp only [authorized, ↓reduceIte, ne_eq, not_false_eq_true, decide_true]
                rfl
          | resilient =>
              change CacheHandler.writing CachingPolicy.isValidStatus cache key response ttl = _
              rw [writing_eq]
              unfold storedStatus removes
              dsimp only
              split <;> rfl
          | allow =>
              change CachingPolicy.handler (some .allow) cache key response ttl = _
              rw [allow_eq]
              unfold storedStatus removes
              dsimp only
              split
              · rfl
              · split <;> rfl

end HandlerKind

/-- The phases of a request that is authorized by a token, as far as the cache is concerned. -/
inductive TokenPhase
  | rewriting
  | accessing
  /-- The authorization was not cached and the backend is asked. -/
  | asking (cachedKey : String)
  | finishing
  /-- The report of a cached authorization is on its way. -/
  | reporting (cachedKey : String)
  | done
  deriving DecidableEq, Repr

/-- An entry that was written, and when. -/
structure CacheWrite where
  cachedKey : String
  time : Int
  entry : CachedAuthorization
  deriving DecidableEq, Repr

/-- At that time the entry is there and has not expired, unless it was removed. -/
def CacheWrite.ServedAt (write : CacheWrite) (time : Int) : Prop :=
  write.time ≤ time ∧ (write.entry.ttl = 0 ∨ time < write.time + write.entry.ttl)

/-- A request with its two contexts and what it shares with the other requests. -/
structure TokenState where
  phase : TokenPhase
  /-- `ngx.ctx.ttl` -/
  ctxTtl : Option Int
  /-- `ttl` of the context of the policies -/
  contextTtl : Option Int
  /-- `ngx.var.cached_key` -/
  cachedKeyVar : Option String
  handler : HandlerKind
  cache : AuthorizationCache
  /-- What the request wrote to the cache. -/
  writes : List CacheWrite

namespace TokenState

/-- The effect of the handler on the entry of a key, where `var` is what the handler reads as
`ngx.var.cached_key`. -/
def effect (state : TokenState) (var : Option String) (cachedKey : String)
    (response : BackendResponse) (ttl : Option Int) : CacheEffect :=
  state.handler.effect (decide (var = some cachedKey)) (state.cache.get cachedKey).isSome response
    ttl

/-- `handle_backend_response`, recording what is written. -/
def handleResponse (tonumber : String → Option Rat) (state : TokenState) (var : Option String)
    (cachedKey : String) (now : Int) (response : BackendResponse) (ttl : Option Int) :
    TokenState :=
  { state with
    cache := (handleBackendResponse tonumber (state.handler.handler var) state.cache cachedKey
      response ttl).1
    writes := state.writes ++
      ((state.effect var cachedKey response ttl).written.map fun entry =>
        ⟨cachedKey, now, entry⟩).toList }

/-- The handler finds no `ngx.var` in a timer. -/
def reportVar (state : TokenState) (inTimer : Bool) : Option String :=
  if inTimer then none else state.cachedKeyVar

/-- The lifetime of the token is not where the access phase looks for it. -/
def WithoutLifetime (state : TokenState) : Prop := state.contextTtl = none

/-- No entry written by the request is served from the moment on at which the token expires. -/
def NeverOutlives (state : TokenState) (exp : Int) : Prop :=
  ∀ write ∈ state.writes, ∀ time, exp ≤ time → ¬ write.ServedAt time

end TokenState

inductive TokenAction
  /-- Other requests change the cache and the handler of the proxy. -/
  | others (handler : HandlerKind) (cache : AuthorizationCache)
  | rewrite (now : Int)
  | access
  | answer (now : Int) (response : BackendResponse)
  | postAction
  | report (now : Int) (inTimer : Bool) (response : BackendResponse)

section Machine

variable (tonumber : String → Option Rat) (request : AuthRequest) (cacheIsDisabled : Bool)
  (exp : Int)

/-- `_M:authorize` up to the request to the backend. -/
def accessToken (state : TokenState) (rewritten : String) : TokenState :=
  match request.authorizeKey rewritten with
  -- no mapping rule matches, and the error clears the variable
  | none => { state with phase := .finishing, cachedKeyVar := none }
  | some cachedKey =>
      let isKnown := (state.cache.get cachedKey).map (·.status)
      if isKnown = some 200 ∧ cacheIsDisabled = false then
        { state with phase := .finishing, cachedKeyVar := some cachedKey }
      else { state with phase := .asking cachedKey, cachedKeyVar := none }

/-- One phase of a request whose token is valid until `exp`. -/
def tokenNext (state : TokenState) (action : TokenAction) : Option TokenState :=
  match action, state.phase with
  | .others handler cache, _ => some { state with handler := handler, cache := cache }
  | .rewrite now, .rewriting =>
      request.rewriteKey.map fun rewritten =>
        { state with
          phase := .accessing
          cachedKeyVar := some rewritten
          ctxTtl := OpenIdConnect.timestampToSecondsFromNow (some exp) now }
  | .access, .accessing => state.cachedKeyVar.map (accessToken request cacheIsDisabled state)
  | .answer now response, .asking cachedKey =>
      some { state.handleResponse tonumber state.cachedKeyVar cachedKey now response
        state.contextTtl with phase := .finishing }
  | .postAction, .finishing =>
      match state.cachedKeyVar with
      | none => some { state with phase := .done }
      | some cachedKey =>
          if cachedKey = "null" ∨ cachedKey = "" then some { state with phase := .done }
          else some { state with phase := .reporting cachedKey }
  | .report now inTimer response, .reporting cachedKey =>
      some { state.handleResponse tonumber (state.reportVar inTimer) cachedKey now response
        none with
        phase := .done }
  | _, _ => none

/-- A request before its rewrite phase; no policy puts a `ttl` in its context. -/
def tokenInitial (handler : HandlerKind) (cache : AuthorizationCache) : TokenState where
  phase := .rewriting
  ctxTtl := none
  contextTtl := none
  cachedKeyVar := none
  handler := handler
  cache := cache
  writes := []

def tokenMachine (handler : HandlerKind) (cache : AuthorizationCache) :
    Machine TokenState TokenAction where
  initial := tokenInitial handler cache
  next := tokenNext tonumber request cacheIsDisabled exp

/-- The status that the handler stores for the answer of the backend that an action brings. -/
def TokenState.stored (state : TokenState) (action : TokenAction) : Option Nat :=
  match action, state.phase with
  | .answer _ response, .asking cachedKey =>
      state.handler.storedStatus (decide (state.cachedKeyVar = some cachedKey))
        (state.cache.get cachedKey).isSome response.status
  | .report _ inTimer response, .reporting cachedKey =>
      state.handler.storedStatus (decide (state.reportVar inTimer = some cachedKey))
        (state.cache.get cachedKey).isSome response.status
  | _, _ => none

end Machine

section Run

variable {tonumber : String → Option Rat} {request : AuthRequest} {cacheIsDisabled : Bool}
  {exp : Int} {before after : TokenState} {action : TokenAction}

/-- What is in the cache afterwards is what the recorded effect makes of it. -/
theorem handleResponse_cache (state : TokenState) (var : Option String) (cachedKey : String)
    (now : Int) (response : BackendResponse) (ttl : Option Int) :
    (state.handleResponse tonumber var cachedKey now response ttl).cache =
      (state.effect var cachedKey response ttl).apply state.cache cachedKey := by
  change (handleBackendResponse tonumber (state.handler.handler var) state.cache cachedKey
    response ttl).1 = _
  rw [handleBackendResponse_cache, HandlerKind.handler_eq_effect]
  rfl

/-- An entry without a lifetime is served forever. -/
theorem CacheWrite.servedAt_of_ttl {write : CacheWrite} (unlimited : write.entry.ttl = 0)
    {time : Int} (later : write.time ≤ time) : write.ServedAt time :=
  ⟨later, Or.inl unlimited⟩

/-- Without a lifetime, the entries stay in time exactly as long as nothing is stored. -/
theorem neverOutlives_handleResponse (tonumber : String → Option Rat) (state : TokenState)
    (var : Option String) (cachedKey : String) (now : Int) (response : BackendResponse) :
    (state.handleResponse tonumber var cachedKey now response none).NeverOutlives exp ↔
      state.NeverOutlives exp ∧
        state.handler.storedStatus (decide (var = some cachedKey))
          (state.cache.get cachedKey).isSome response.status = none := by
  have recorded : (state.handleResponse tonumber var cachedKey now response none).writes =
      state.writes ++ ((state.handler.storedStatus (decide (var = some cachedKey))
        (state.cache.get cachedKey).isSome response.status).map fun status =>
          (⟨cachedKey, now, ⟨status, 0⟩⟩ : CacheWrite)).toList := by
    change state.writes ++ ((state.effect var cachedKey response none).written.map _).toList = _
    unfold TokenState.effect
    rw [HandlerKind.written_effect, Option.map_map]
    rfl
  unfold TokenState.NeverOutlives
  rw [recorded, List.forall_mem_append]
  apply and_congr_right
  intro _
  cases state.handler.storedStatus (decide (var = some cachedKey))
      (state.cache.get cachedKey).isSome response.status with
  | none => exact iff_of_true (List.forall_mem_nil _) rfl
  | some status =>
      refine iff_of_false ?_ nofun
      intro inTime
      have written := inTime _ (List.mem_singleton_self _) (max exp now) (le_max_left exp now)
      exact written (CacheWrite.servedAt_of_ttl rfl (le_max_right exp now))

/-- A step handles an answer of the backend, without a lifetime if the context has none, or it
writes nothing. -/
theorem tokenNext_cases (stepped : tokenNext tonumber request cacheIsDisabled exp before action =
      some after) :
    (after.contextTtl = before.contextTtl ∧ after.writes = before.writes ∧
        before.stored action = none) ∨
      ∃ var cachedKey now response ttl phase, (ttl = before.contextTtl ∨ ttl = none) ∧
        after = { before.handleResponse tonumber var cachedKey now response ttl with
          phase := phase } ∧
        before.stored action = before.handler.storedStatus (decide (var = some cachedKey))
          (before.cache.get cachedKey).isSome response.status := by
  unfold tokenNext at stepped
  split at stepped
  · cases stepped
    exact Or.inl ⟨rfl, rfl, rfl⟩
  · obtain ⟨rewritten, _, rfl⟩ := Option.map_eq_some_iff.mp stepped
    exact Or.inl ⟨rfl, rfl, rfl⟩
  · obtain ⟨rewritten, _, rfl⟩ := Option.map_eq_some_iff.mp stepped
    refine Or.inl ?_
    unfold accessToken
    split
    · exact ⟨rfl, rfl, rfl⟩
    · dsimp only
      split <;> exact ⟨rfl, rfl, rfl⟩
  · rename_i asked
    cases stepped
    refine Or.inr ⟨_, _, _, _, _, _, Or.inl rfl, rfl, ?_⟩
    unfold TokenState.stored
    rw [asked]
  · refine Or.inl ?_
    split at stepped
    · cases stepped
      exact ⟨rfl, rfl, rfl⟩
    · split at stepped <;> cases stepped <;> exact ⟨rfl, rfl, rfl⟩
  · rename_i reported
    cases stepped
    refine Or.inr ⟨_, _, _, _, _, _, Or.inr rfl, rfl, ?_⟩
    unfold TokenState.stored
    rw [reported]
  · cases stepped

/-- No phase puts a lifetime where the access phase looks for it. -/
theorem withoutLifetime_step (missing : before.WithoutLifetime)
    (stepped : tokenNext tonumber request cacheIsDisabled exp before action = some after) :
    after.WithoutLifetime := by
  rcases tokenNext_cases stepped with ⟨same, _, _⟩ | ⟨_, _, _, _, _, _, _, rfl, _⟩
  · exact same.trans missing
  · exact missing

/-- A step keeps the entries in time exactly when it stores nothing. -/
theorem neverOutlives_step (missing : before.WithoutLifetime)
    (stepped : tokenNext tonumber request cacheIsDisabled exp before action = some after) :
    after.NeverOutlives exp ↔ before.NeverOutlives exp ∧ before.stored action = none := by
  rcases tokenNext_cases stepped with
    ⟨_, writes, nothing⟩ | ⟨var, cachedKey, now, response, ttl, phase, origin, rfl, stored⟩
  · unfold TokenState.NeverOutlives
    rw [writes]
    exact (and_iff_left nothing).symm
  · have unlimited : ttl = none := origin.elim (fun context => context.trans missing) id
    subst unlimited
    rw [stored]
    exact neverOutlives_handleResponse tonumber before var cachedKey now response

variable {handler : HandlerKind} {cache : AuthorizationCache} {actions : List TokenAction}

/-- For every token, handler and cache, and every run: what the request and its report write is
never served after the token has expired exactly when they store nothing. -/
theorem neverOutlives_iff
    (executed : (tokenMachine tonumber request cacheIsDisabled exp handler cache).run
      (tokenInitial handler cache) actions = some after) :
    after.NeverOutlives exp ↔
      (tokenMachine tonumber request cacheIsDisabled exp handler cache).runWithin
        (fun state action => state.stored action = none) (tokenInitial handler cache) actions =
          some after := by
  have kept : ∀ before action after, before.WithoutLifetime →
      tokenNext tonumber request cacheIsDisabled exp before action = some after →
        after.WithoutLifetime :=
    fun _ _ _ => withoutLifetime_step
  have exact : ∀ before action after, before.WithoutLifetime →
      tokenNext tonumber request cacheIsDisabled exp before action = some after →
        (after.NeverOutlives exp ↔ before.NeverOutlives exp ∧ before.stored action = none) :=
    fun _ _ _ => neverOutlives_step
  have start : (tokenInitial handler cache).WithoutLifetime := rfl
  have held : (tokenInitial handler cache).NeverOutlives exp := List.forall_mem_nil _
  exact Machine.holds_iff_runWithin kept exact start held executed

end Run

/-- A request of one service with a token, which counts for one metric. -/
private def bearing : AuthRequest where
  serviceId := "42"
  credentials := .accessToken (some "t")
  usage := Usage.new.add "hits" 1
  extraParams := []

/-- A request that the backend denies leaves nothing behind in strict mode. -/
theorem neverOutlives_denied :
    ∃ after, (tokenMachine (fun _ => none) bearing false 60000 .strict ∅).run
        (tokenInitial .strict ∅)
        [.rewrite 0, .access, .answer 1 ⟨some 403, none⟩, .postAction] = some after ∧
      after.NeverOutlives 60000 := by
  obtain ⟨after, executed⟩ : ∃ after, (tokenMachine (fun _ => none) bearing false 60000 .strict
      ∅).run (tokenInitial .strict ∅)
        [.rewrite 0, .access, .answer 1 ⟨some 403, none⟩, .postAction] = some after := ⟨_, rfl⟩
  refine ⟨after, executed, (neverOutlives_iff executed).mpr ?_⟩
  rw [← executed]
  rfl

/-- A request that the backend authorizes is written without a lifetime, and the entry is still
served when the token has expired. -/
theorem neverOutlives_authorized :
    ∃ after, (tokenMachine (fun _ => none) bearing false 60000 .strict ∅).run
        (tokenInitial .strict ∅) [.rewrite 0, .access, .answer 1 ⟨some 200, none⟩] = some after ∧
      after.ctxTtl = some 60000 ∧
      after.writes = [⟨"42:t:usage%5Bhits%5D=1", 1, ⟨200, 0⟩⟩] ∧ ¬ after.NeverOutlives 60000 := by
  refine ⟨_, rfl, rfl, rfl, ?_⟩
  intro inTime
  exact inTime _ (List.mem_singleton_self _) 60000 (le_refl _)
    (CacheWrite.servedAt_of_ttl rfl (by decide))

end Apicast.Proxy
