import Apicast.Backend.CacheHandlers
import Mathlib.Data.List.Induction
import Mathlib.Data.Rat.Defs

/-!
# Decisions on backend responses

`proxy.lua`, `_M:handle_backend_response`, over whole sequences of responses for one
cached key. A handler that is meant to outlast an outage must not write the statuses
that count as an outage.
-/

namespace Apicast

open Foundation

namespace Proxy

/-- `backend_is_unavailable`; 499 is the status for a connection closed by the client. -/
def backendIsUnavailable (status : Option Nat) : Bool :=
  match status with
  | none => true
  | some status => decide (status = 0) || decide (499 ≤ status)

theorem backendIsUnavailable_some {status : Nat} :
    backendIsUnavailable (some status) ↔ status = 0 ∨ 499 ≤ status := by
  unfold backendIsUnavailable
  rw [Bool.or_eq_true, decide_eq_true_eq, decide_eq_true_eq]

theorem backendIsUnavailable_some_eq_false {status : Nat} :
    backendIsUnavailable (some status) = false ↔ 0 < status ∧ status < 499 := by
  rw [Bool.eq_false_iff, ne_eq, backendIsUnavailable_some]
  omega

/-- The three results of `_M:handle_backend_response`. -/
structure Decision where
  authorized : Bool
  unauthorizedReason : Option String
  retryAfter : Option String
  deriving DecidableEq, Repr

variable (tonumber : String → Option Rat)

def rejectionReason (headers : Option (SharedDict String String)) : Option String :=
  headers.bind (·.get "3scale-rejection-reason")

def limitReset (headers : Option (SharedDict String String)) : Option String :=
  headers.bind (·.get "3scale-limit-reset")

def limitMaxValue (headers : Option (SharedDict String String)) : Option Rat :=
  (headers.bind (·.get "3scale-limit-max-value")).bind tonumber

/-- `_M:handle_backend_response` -/
def handleBackendResponse (cacheHandler : CacheHandler) (cache : AuthorizationCache)
    (cachedKey : String) (response : BackendResponse) (ttl : Option Int) :
    AuthorizationCache × Decision :=
  let cache := cacheHandler cache cachedKey response ttl
  if backendIsUnavailable response.status then
    (cache, ⟨(cache.get cachedKey).map (·.status) = some 200, none, none⟩)
  else
    let authorized := decide (response.status = some 200)
    let unauthorizedReason := if authorized then none else rejectionReason response.headers
    let retryAfter := if authorized then none else limitReset response.headers
    let limitMax := limitMaxValue tonumber response.headers
    -- a disabled metric is not reported as an exceeded limit
    if limitMax = some 0 ∧ unauthorizedReason = some "limits_exceeded" then
      (cache, ⟨authorized, none, retryAfter⟩)
    else (cache, ⟨authorized, unauthorizedReason, retryAfter⟩)

/-- The cache after a sequence of responses for one key. -/
def process (cacheHandler : CacheHandler) (cache : AuthorizationCache) (cachedKey : String)
    (responses : List (BackendResponse × Option Int)) : AuthorizationCache :=
  responses.foldl (fun cache response =>
    (handleBackendResponse tonumber cacheHandler cache cachedKey response.1 response.2).1) cache

/-- The decision for a response after a sequence of others. -/
def decision (cacheHandler : CacheHandler) (cache : AuthorizationCache) (cachedKey : String)
    (responses : List (BackendResponse × Option Int)) (response : BackendResponse × Option Int) :
    Bool :=
  (handleBackendResponse tonumber cacheHandler
    (process tonumber cacheHandler cache cachedKey responses) cachedKey response.1
    response.2).2.authorized

/-- The status of the last response that did not find the backend unavailable. -/
def lastAvailable (responses : List (BackendResponse × Option Int)) : Option Nat :=
  (responses.filterMap fun response =>
    response.1.status.filter fun status => !backendIsUnavailable (some status)).getLast?

/-- An unavailable response never changes the entry, and is decided like the last
available one, or denied when there is none. -/
def Resilient (cacheHandler : CacheHandler) (cache : AuthorizationCache) (cachedKey : String)
    (responses : List (BackendResponse × Option Int)) : Prop :=
  ∀ before response after, responses = before ++ response :: after →
    backendIsUnavailable response.1.status →
    (process tonumber cacheHandler cache cachedKey (before ++ [response])).get cachedKey =
        (process tonumber cacheHandler cache cachedKey before).get cachedKey ∧
      decision tonumber cacheHandler cache cachedKey before response =
        decide (lastAvailable before = some 200)

/-- An unavailable response is authorized unless the last available one was a denial. -/
def AllowsUnlessDenied (cacheHandler : CacheHandler) (cache : AuthorizationCache)
    (cachedKey : String) (responses : List (BackendResponse × Option Int)) : Prop :=
  ∀ before response after, responses = before ++ response :: after →
    backendIsUnavailable response.1.status →
    decision tonumber cacheHandler cache cachedKey before response =
      decide (∀ status ∈ lastAvailable before, status = 200)

section Run

variable {tonumber} {cacheHandler : CacheHandler} {cache : AuthorizationCache} {cachedKey : String}
  {before : List (BackendResponse × Option Int)} {response : BackendResponse × Option Int}

/-- The cache is what the handler makes of it, whatever the decision is. -/
theorem handleBackendResponse_cache (response : BackendResponse) (ttl : Option Int) :
    (handleBackendResponse tonumber cacheHandler cache cachedKey response ttl).1 =
      cacheHandler cache cachedKey response ttl := by
  unfold handleBackendResponse
  dsimp only
  split
  · rfl
  · split <;> split <;> rfl

theorem process_append :
    process tonumber cacheHandler cache cachedKey (before ++ [response]) =
      cacheHandler (process tonumber cacheHandler cache cachedKey before) cachedKey response.1
        response.2 := by
  unfold process
  rw [List.foldl_append, List.foldl_cons, List.foldl_nil, handleBackendResponse_cache]

/-- An unavailable response is decided by the entry that the handler leaves. -/
theorem decision_unavailable (unavailable : backendIsUnavailable response.1.status) :
    decision tonumber cacheHandler cache cachedKey before response =
      decide (((process tonumber cacheHandler cache cachedKey (before ++ [response])).get
        cachedKey).map (·.status) = some 200) := by
  unfold decision handleBackendResponse
  rw [process_append]
  simp only [unavailable, ↓reduceIte]

/-- An available response becomes the last available one. -/
theorem lastAvailable_append_available {status : Nat} (found : response.1.status = some status)
    (available : backendIsUnavailable (some status) = false) :
    lastAvailable (before ++ [response]) = some status := by
  unfold lastAvailable
  rw [List.filterMap_append, List.filterMap_cons, found]
  simp only [Option.filter_some, available, Bool.not_false, ↓reduceIte, List.filterMap_nil,
    List.getLast?_append, List.getLast?_singleton, Option.some_or]

/-- An unavailable response leaves the last available one. -/
theorem lastAvailable_append_unavailable (unavailable : backendIsUnavailable response.1.status) :
    lastAvailable (before ++ [response]) = lastAvailable before := by
  unfold lastAvailable
  have dropped : (response.1.status.filter fun status => !backendIsUnavailable (some status)) =
      none := by
    cases found : response.1.status with
    | none => rfl
    | some status =>
        rw [found] at unavailable
        simp only [Option.filter_some, unavailable, Bool.not_true, Bool.false_eq_true, ↓reduceIte]
  rw [List.filterMap_append, List.filterMap_cons, dropped]
  simp only [List.filterMap_nil, List.append_nil]

/-- The last available status did not find the backend unavailable. -/
theorem available_of_lastAvailable {responses : List (BackendResponse × Option Int)} {status : Nat}
    (last : lastAvailable responses = some status) :
    backendIsUnavailable (some status) = false := by
  obtain ⟨response, _, kept⟩ := List.mem_filterMap.mp (List.mem_of_getLast? last)
  have available := (Option.filter_eq_some_iff.mp kept).2
  simpa only [Bool.not_eq_true'] using available

end Run

section Writing

variable {tonumber} {writes : Nat → Bool} {cache : AuthorizationCache} {cachedKey : String}
  {responses : List (BackendResponse × Option Int)}

/-- A response whose status counts as an outage but is written. -/
def WritesOutage (writes : Nat → Bool) (response : BackendResponse × Option Int) : Prop :=
  ∃ status ∈ response.1.status, backendIsUnavailable (some status) ∧ writes status

/-- Without written outages the entry is the status of the last available response. -/
theorem entry_of_not_writesOutage (tonumber : String → Option Rat)
    (absent : cache.get cachedKey = none)
    (covers : ∀ status, backendIsUnavailable (some status) = false → writes status)
    (unwritten : ∀ response ∈ responses, ¬ WritesOutage writes response) :
    ((process tonumber (.writing writes) cache cachedKey responses).get cachedKey).map
      (·.status) = lastAvailable responses := by
  induction responses using List.reverseRecOn with
  | nil =>
      change (cache.get cachedKey).map _ = none
      rw [absent, Option.map_none]
  | append_singleton before response ih =>
      have prior := ih fun other member => unwritten other (List.mem_append_left _ member)
      have own := unwritten response (List.mem_append_right _ List.mem_cons_self)
      rw [process_append, CacheHandler.get_writing]
      cases found : response.1.status with
      | none =>
          have unavailable : backendIsUnavailable response.1.status := by
            rw [found]
            rfl
          rw [lastAvailable_append_unavailable unavailable]
          exact prior
      | some status =>
          cases outage : backendIsUnavailable (some status) with
          | false =>
              rw [lastAvailable_append_available found outage]
              simp only [covers status outage, ↓reduceIte, Option.map_some]
          | true =>
              have skipped : ¬ writes status := fun written => own ⟨status, found, outage, written⟩
              rw [lastAvailable_append_unavailable (by rw [found]; exact outage)]
              simp only [skipped, Bool.false_eq_true, ↓reduceIte]
              exact prior

/-- A writing handler is resilient exactly on the responses whose outages it does not
write. -/
theorem resilient_writing_iff (absent : cache.get cachedKey = none)
    (covers : ∀ status, backendIsUnavailable (some status) = false → writes status) :
    Resilient tonumber (.writing writes) cache cachedKey responses ↔
      ∀ response ∈ responses, ¬ WritesOutage writes response := by
  refine ⟨?_, ?_⟩
  · intro resilient
    induction responses using List.reverseRecOn with
    | nil => exact fun _ member => absurd member List.not_mem_nil
    | append_singleton before response ih =>
        have prior : ∀ other ∈ before, ¬ WritesOutage writes other := by
          apply ih
          intro earlier other later split unavailable
          refine resilient earlier other (later ++ [response]) ?_ unavailable
          rw [split, List.append_assoc, List.cons_append]
        intro other member
        rcases List.mem_append.mp member with earlier | last
        · exact prior other earlier
        · rw [List.mem_singleton.mp last]
          rintro ⟨status, found, outage, written⟩
          have unavailable : backendIsUnavailable response.1.status := by
            rw [found]
            exact outage
          -- the entry would become a status that no available response has
          have kept := (resilient before response [] rfl unavailable).1
          have entry := entry_of_not_writesOutage tonumber absent covers prior
          rw [process_append, CacheHandler.get_writing] at kept
          simp only [Option.mem_def.mp found, written, ↓reduceIte] at kept
          rw [← kept, Option.map_some] at entry
          have available := available_of_lastAvailable entry.symm
          rw [outage] at available
          cases available
  · intro unwritten before response after equal unavailable
    subst equal
    have prior := entry_of_not_writesOutage tonumber absent covers fun other member =>
      unwritten other (List.mem_append_left _ member)
    have nextUnwritten : ∀ other ∈ before ++ [response], ¬ WritesOutage writes other := by
      intro other member
      apply unwritten other
      rw [List.append_cons]
      exact List.mem_append_left _ member
    have next := entry_of_not_writesOutage tonumber absent covers nextUnwritten
    refine ⟨?_, ?_⟩
    · have own := unwritten response (List.mem_append_right _ List.mem_cons_self)
      rw [process_append, CacheHandler.get_writing]
      cases found : response.1.status with
      | none => rfl
      | some status =>
          rw [found] at unavailable
          have skipped : ¬ writes status := fun written =>
            own ⟨status, found, unavailable, written⟩
          simp only [skipped, Bool.false_eq_true, ↓reduceIte]
    · rw [decision_unavailable unavailable, next, lastAvailable_append_unavailable unavailable]

end Writing

section Allowing

variable {tonumber} {cache : AuthorizationCache} {cachedKey : String}
  {responses : List (BackendResponse × Option Int)}

/-- Each response with status 499 follows a denial, as the last available response. -/
def ClosesDenied (responses : List (BackendResponse × Option Int)) : Prop :=
  ∀ before response after, responses = before ++ response :: after →
    response.1.status = some 499 → ∃ status ∈ lastAvailable before, status ≠ 200

theorem ClosesDenied.of_append {before : List (BackendResponse × Option Int)}
    {response : BackendResponse × Option Int} (closes : ClosesDenied (before ++ [response])) :
    ClosesDenied before := by
  intro earlier other later split closed
  refine closes earlier other (later ++ [response]) ?_ closed
  rw [split, List.append_assoc, List.cons_append]

/-- The statuses that count as an outage are those that the caching policy does not
write, and 499. -/
theorem isValidStatus_of_unavailable {status : Nat} (outage : backendIsUnavailable (some status))
    (valid : CachingPolicy.isValidStatus status) : status = 499 := by
  rw [backendIsUnavailable_some] at outage
  rw [CachingPolicy.isValidStatus_iff] at valid
  omega

theorem isValidStatus_of_available {status : Nat}
    (available : backendIsUnavailable (some status) = false) :
    CachingPolicy.isValidStatus status := by
  rw [backendIsUnavailable_some_eq_false] at available
  rw [CachingPolicy.isValidStatus_iff]
  omega

/-- The entry is there once a response was available, and it authorizes exactly when the
last available response was no denial. -/
theorem entry_of_closesDenied (tonumber : String → Option Rat)
    (absent : cache.get cachedKey = none) (closes : ClosesDenied responses) :
    ((process tonumber CachingPolicy.allow cache cachedKey responses).get cachedKey = none →
        lastAvailable responses = none) ∧
      ∀ entry ∈ (process tonumber CachingPolicy.allow cache cachedKey responses).get cachedKey,
        (entry.status = 200 ↔ ∀ status ∈ lastAvailable responses, status = 200) := by
  induction responses using List.reverseRecOn with
  | nil =>
      refine ⟨fun _ => rfl, ?_⟩
      intro entry present
      change cache.get cachedKey = some entry at present
      rw [absent] at present
      cases present
  | append_singleton before response ih =>
      obtain ⟨unseen, agrees⟩ := ih closes.of_append
      -- an entry that is not written keeps its status, and an absent one becomes a 200
      have kept (unavailable : backendIsUnavailable response.1.status)
          (unwritten : response.1.status.filter CachingPolicy.isValidStatus = none) :
          ∀ entry ∈ (CachingPolicy.allow (process tonumber CachingPolicy.allow cache cachedKey
              before) cachedKey response.1 response.2).get cachedKey,
            (entry.status = 200 ↔
              ∀ status ∈ lastAvailable (before ++ [response]), status = 200) := by
        intro entry present
        rw [CachingPolicy.get_allow, unwritten] at present
        rw [lastAvailable_append_unavailable unavailable]
        cases stored : (process tonumber CachingPolicy.allow cache cachedKey before).get
            cachedKey with
        | none =>
            rw [stored, Option.getD_none] at present
            cases present
            rw [unseen stored]
            exact iff_of_true rfl nofun
        | some old =>
            rw [stored, Option.getD_some] at present
            cases present
            exact agrees entry stored
      rw [process_append]
      refine ⟨?_, ?_⟩
      · intro missing
        rw [CachingPolicy.get_allow] at missing
        split at missing <;> cases missing
      · cases found : response.1.status with
        | none =>
            apply kept
            · rw [found]
              rfl
            · rw [found]
              rfl
        | some status =>
            cases outage : backendIsUnavailable (some status) with
            | false =>
                intro entry present
                rw [CachingPolicy.get_allow, found, Option.filter_some,
                  if_pos (isValidStatus_of_available outage)] at present
                cases present
                rw [lastAvailable_append_available found outage]
                simp only [Option.mem_some_iff, forall_eq']
            | true =>
                have unavailable : backendIsUnavailable response.1.status := by
                  rw [found]
                  exact outage
                by_cases valid : CachingPolicy.isValidStatus status
                · have closed : status = 499 := isValidStatus_of_unavailable outage valid
                  subst closed
                  obtain ⟨denial, last, denied⟩ := closes before response [] rfl found
                  intro entry present
                  rw [CachingPolicy.get_allow, found, Option.filter_some, if_pos valid] at present
                  cases present
                  rw [lastAvailable_append_unavailable unavailable]
                  have unequal : ¬ (499 : Nat) = 200 := by decide
                  exact iff_of_false unequal fun authorized => denied (authorized denial last)
                · apply kept unavailable
                  rw [found, Option.filter_some, if_neg valid]

/-- The allowing handler authorizes during an outage unless the last available response
was a denial, exactly when every response with status 499 follows a denial. -/
theorem allowsUnlessDenied_iff (absent : cache.get cachedKey = none) :
    AllowsUnlessDenied tonumber CachingPolicy.allow cache cachedKey responses ↔
      ClosesDenied responses := by
  refine ⟨?_, ?_⟩
  · intro allows before response after split closed
    have unavailable : backendIsUnavailable response.1.status := by
      rw [closed]
      rfl
    have decided := allows before response after split unavailable
    rw [decision_unavailable unavailable, process_append, CachingPolicy.get_allow,
      closed] at decided
    by_contra undenied
    have authorizes : ∀ status ∈ lastAvailable before, status = 200 := by
      intro status last
      by_contra denied
      exact undenied ⟨status, last, denied⟩
    rw [decide_eq_true authorizes, decide_eq_true_eq] at decided
    cases decided
  · intro closes before response after equal unavailable
    have closesNext : ClosesDenied (before ++ [response]) := by
      intro earlier other later split closed
      refine closes earlier other (later ++ after) ?_ closed
      rw [equal, List.append_cons, split, List.append_assoc, List.cons_append]
    obtain ⟨_, agrees⟩ := entry_of_closesDenied tonumber absent closesNext
    rw [decision_unavailable unavailable]
    rw [lastAvailable_append_unavailable unavailable] at agrees
    cases stored : (process tonumber CachingPolicy.allow cache cachedKey
        (before ++ [response])).get cachedKey with
    | none =>
        rw [process_append, CachingPolicy.get_allow] at stored
        split at stored <;> cases stored
    | some entry =>
        have agreed := agrees entry stored
        apply decide_eq_decide.mpr
        rw [Option.map_some, Option.some.injEq]
        exact agreed

end Allowing

section Handlers

variable {cache : AuthorizationCache} {cachedKey : String}

theorem writesOutage_backend_iff (response : BackendResponse × Option Int) :
    WritesOutage (fun status => decide (status < 500)) response ↔
      response.1.status = some 0 ∨ response.1.status = some 499 := by
  unfold WritesOutage
  simp only [Option.mem_def, backendIsUnavailable_some, decide_eq_true_eq]
  refine ⟨?_, ?_⟩
  · rintro ⟨status, found, outage, written⟩
    rw [found, Option.some.injEq, Option.some.injEq]
    omega
  · rintro (refused | closed)
    · exact ⟨0, refused, by omega⟩
    · exact ⟨499, closed, by omega⟩

theorem writesOutage_caching_iff (response : BackendResponse × Option Int) :
    WritesOutage CachingPolicy.isValidStatus response ↔ response.1.status = some 499 := by
  refine ⟨?_, ?_⟩
  · rintro ⟨status, found, outage, written⟩
    rw [found, isValidStatus_of_unavailable outage written]
  · intro closed
    exact ⟨499, closed, by decide, by decide⟩

/-- For every sequence of responses, starting without an entry: the resilient handler of
the proxy keeps the decision of the last available response exactly when no response
has status 0 or 499, that of the caching policy exactly when none has status 499, and
the allowing handler authorizes unless denied exactly when every response with status
499 follows a denial. -/
theorem decisions_during_outage_iff (tonumber : String → Option Rat)
    (absent : cache.get cachedKey = none) (responses : List (BackendResponse × Option Int)) :
    (Resilient tonumber BackendCacheHandler.resilient cache cachedKey responses ↔
      ∀ response ∈ responses,
        response.1.status ≠ some 0 ∧ response.1.status ≠ some 499) ∧
    (Resilient tonumber CachingPolicy.resilient cache cachedKey responses ↔
      ∀ response ∈ responses, response.1.status ≠ some 499) ∧
    (AllowsUnlessDenied tonumber CachingPolicy.allow cache cachedKey responses ↔
      ClosesDenied responses) := by
  have below (status : Nat) (available : backendIsUnavailable (some status) = false) :
      decide (status < 500) := by
    rw [backendIsUnavailable_some_eq_false] at available
    exact decide_eq_true (by omega)
  refine ⟨?_, ?_, allowsUnlessDenied_iff absent⟩
  · apply (resilient_writing_iff absent below).trans
    simp only [writesOutage_backend_iff, not_or]
  · apply (resilient_writing_iff absent fun _ => isValidStatus_of_available).trans
    simp only [writesOutage_caching_iff]

/-- Responses after which an authorized key is denied, and the other way around. -/
theorem decisions_during_outage_iff_refused :
    (¬ Resilient (fun _ => none) BackendCacheHandler.resilient ∅ "key"
        [(⟨some 200, none⟩, none), (⟨some 0, none⟩, none)]) ∧
      Resilient (fun _ => none) CachingPolicy.resilient ∅ "key"
        [(⟨some 200, none⟩, none), (⟨some 0, none⟩, none)] := by
  obtain ⟨own, caching, _⟩ := decisions_during_outage_iff (fun _ => none)
    (SharedDict.get_empty "key") [(⟨some 200, none⟩, none), (⟨some 0, none⟩, none)]
  refine ⟨fun resilient => ?_, caching.mpr ?_⟩
  · exact (own.mp resilient _ (List.mem_cons_of_mem _ List.mem_cons_self)).1 rfl
  · intro response member
    rcases List.mem_pair.mp member with first | second
    · rw [first]
      nofun
    · rw [second]
      nofun

/-- A response with status 499 between an authorized one and an outage: both resilient
handlers deny from then on, and the allowing handler denies although nothing was denied. -/
theorem decisions_during_outage_closed :
    (¬ Resilient (fun _ => none) BackendCacheHandler.resilient ∅ "key"
        [(⟨some 200, none⟩, none), (⟨some 499, none⟩, none), (⟨some 503, none⟩, none)]) ∧
    (¬ Resilient (fun _ => none) CachingPolicy.resilient ∅ "key"
        [(⟨some 200, none⟩, none), (⟨some 499, none⟩, none), (⟨some 503, none⟩, none)]) ∧
    (¬ AllowsUnlessDenied (fun _ => none) CachingPolicy.allow ∅ "key"
        [(⟨some 200, none⟩, none), (⟨some 499, none⟩, none), (⟨some 503, none⟩, none)]) := by
  refine ⟨fun resilient => ?_, fun resilient => ?_, fun allows => ?_⟩
  · have kept := (resilient [(⟨some 200, none⟩, none)] (⟨some 499, none⟩, none)
      [(⟨some 503, none⟩, none)] rfl rfl).2
    revert kept
    decide
  · have kept := (resilient [(⟨some 200, none⟩, none)] (⟨some 499, none⟩, none)
      [(⟨some 503, none⟩, none)] rfl rfl).2
    revert kept
    decide
  · have kept := allows [(⟨some 200, none⟩, none)] (⟨some 499, none⟩, none)
      [(⟨some 503, none⟩, none)] rfl rfl
    revert kept
    decide

end Handlers

end Proxy

end Apicast
