import Apicast.TokenIntrospection.TokensCache
import Mathlib.Algebra.Order.Floor.Ring
import Mathlib.Data.Rat.Floor
import Mathlib.Tactic.Linarith
import Mathlib.Tactic.NormNum

/-!
# The expiry of introspected tokens

The time to live of an introspection is counted from a clock of whole seconds, and the cache
counts it from a clock with fractions. What is found therefore outlives its expiry by less than a
second. Writes that are skipped leave an older entry, which keeps its own expiry.
-/

namespace Apicast

namespace TokenExpiry

open Foundation

/-- The calls of the cache, and the entries it drops for others. -/
inductive Call
  | set (token : Option String) (introspectionInfo : Json ℚ)
  | get (token : Option String)
  | evict (token : String)

/-- A call at a time (`ngx.now`). -/
structure Event where
  now : ℚ
  call : Call

/-- The expiry of an introspection, if there is one. -/
def expiry (tonumber : String → Option ℚ) (introspectionInfo : Json ℚ) : Option ℚ :=
  (introspectionInfo.field "exp").bind (Json.toNumber tonumber)

/-- How `lrucache` finds an entry: only until its time to live has elapsed. -/
def ReadsUntilExpiry
    (read : TokensCache.Storage ℚ → ℚ → Option String → Option (Json ℚ)) : Prop :=
  ∀ storage now token found, read storage now token = some found →
    ∃ key entry, token = some key ∧ storage key = some entry ∧ entry.value = found ∧
      ∀ moment ∈ entry.expiresAt, now ≤ moment

theorem readsUntilExpiry_get : ReadsUntilExpiry TokensCache.get := by
  intro storage now token found present
  obtain ⟨key, rfl, value⟩ := Option.bind_eq_some_iff.mp present
  obtain ⟨entry, stored, fresh, equal⟩ := ExpiringCache.get_eq_some.mp value
  exact ⟨key, entry, rfl, stored, equal, fun moment limit => (fresh moment limit).le⟩

section Runs

variable (tonumber : String → Option ℚ) (maxTtl : Option ℚ)

/-- A call that raises an error stores nothing. -/
def step (storage : TokensCache.Storage ℚ) (event : Event) : TokensCache.Storage ℚ :=
  match event.call with
  | .set token introspectionInfo =>
      match TokensCache.set tonumber maxTtl storage ⌊event.now⌋ event.now token
        introspectionInfo with
      | .ok written => written
      | .error _ => storage
  | .get _ => storage
  | .evict token => ExpiringCache.evict storage token

/-- What is stored after a history, the last event first. -/
def after : List Event → TokensCache.Storage ℚ
  | [] => fun _ => none
  | event :: past => step tonumber maxTtl (after past) event

/-- In whole seconds, a moment is not past the expiry of a result nor past the configured maximum,
and there is one of the two. -/
structure Respects (introspectionInfo : Json ℚ) (stored now : ℚ) : Prop where
  unexpired : ∀ exp ∈ expiry tonumber introspectionInfo, ⌊now⌋ ≤ ⌈exp⌉
  withinMaximum : ∀ bound ∈ maxTtl, now ≤ stored + bound
  limited : expiry tonumber introspectionInfo = none → maxTtl ≠ none

/-- The entry was stored by a call of the history, and expires in time. -/
def StoredBy (past : List Event) (token : String) (entry : CacheEntry ℚ (Json ℚ)) : Prop :=
  ∃ event ∈ past, event.call = .set (some token) entry.value ∧
    ∃ moment ∈ entry.expiresAt, ∀ now ≤ moment,
      Respects tonumber maxTtl entry.value event.now now

variable {tonumber maxTtl} {introspectionInfo : Json ℚ}

/-- The time to live is what is left until the expiry. -/
theorem ttl_eq {time : ℚ} {ttl : Option ℚ}
    (read : TokensCache.ttlFromIntrospection tonumber time introspectionInfo = .ok ttl) :
    ttl = (expiry tonumber introspectionInfo).map (· - time) := by
  unfold TokensCache.ttlFromIntrospection at read
  unfold expiry
  cases field : introspectionInfo.field "exp" with
  | none =>
      rw [field] at read
      exact (Except.ok.inj read).symm
  | some tokenExp =>
      rw [field] at read
      cases false : tokenExp.isFalse with
      | true =>
          simp only [false, ↓reduceIte] at read
          have unread : tokenExp.toNumber tonumber = none := by
            cases tokenExp <;> first | rfl | cases false
          simpa [unread] using (Except.ok.inj read).symm
      | false =>
          simp only [false, Bool.false_eq_true, ↓reduceIte] at read
          cases number : tokenExp.toNumber tonumber with
          | none =>
              rw [number] at read
              cases read
          | some exp =>
              rw [number] at read
              simpa [number] using (Except.ok.inj read).symm

/-- The bounded time to live is below both bounds that there are. -/
theorem boundedTtl_le {ttl : Option ℚ} {bounded : ℚ}
    (bound : TokensCache.boundedTtl maxTtl ttl = some bounded) :
    (∀ span ∈ ttl, bounded ≤ span) ∧ (∀ span ∈ maxTtl, bounded ≤ span) ∧
      (ttl = none → maxTtl ≠ none) := by
  rcases maxTtl with - | limit <;> rcases ttl with - | span
  · cases bound
  · obtain rfl : span = bounded := Option.some.inj bound
    simp
  · obtain rfl : limit = bounded := Option.some.inj bound
    simp
  · simp only [TokensCache.boundedTtl] at bound
    split at bound
    · next smaller =>
        obtain rfl : limit = bounded := Option.some.inj bound
        simp [smaller.le]
    · next larger =>
        obtain rfl : span = bounded := Option.some.inj bound
        simp [not_lt.mp larger]

/-- What is stored for the bounded time to live expires in time. -/
theorem respects_of_bounded {ttl : Option ℚ} {bounded stored now : ℚ}
    (read : TokensCache.ttlFromIntrospection tonumber (⌊stored⌋ : ℚ) introspectionInfo = .ok ttl)
    (bound : TokensCache.boundedTtl maxTtl ttl = some bounded) (inTime : now ≤ stored + bounded) :
    Respects tonumber maxTtl introspectionInfo stored now := by
  obtain ⟨belowTtl, belowMax, limited⟩ := boundedTtl_le bound
  have ttlEq := ttl_eq read
  refine ⟨fun exp present => ?_, fun span configured => ?_, fun absent => ?_⟩
  · have span := belowTtl (exp - ⌊stored⌋) (by rw [ttlEq, present]; rfl)
    have fraction := Int.lt_floor_add_one stored
    -- The entry is kept for the fraction of a second that the whole clock leaves out.
    have early : now < exp + 1 := by linarith
    have whole : (⌊now⌋ : ℚ) < (⌈exp⌉ + 1 : ℤ) := by
      push_cast
      linarith [Int.floor_le now, Int.le_ceil exp]
    exact Int.lt_add_one_iff.mp (Int.cast_lt.mp whole)
  · have := belowMax span configured
    linarith
  · exact limited (by rw [ttlEq, absent]; rfl)

/-- Every entry was stored by a call of the history. -/
theorem storedBy_after (past : List Event) {token : String} {entry : CacheEntry ℚ (Json ℚ)}
    (present : after tonumber maxTtl past token = some entry) :
    StoredBy tonumber maxTtl past token entry := by
  induction past generalizing entry with
  | nil => cases present
  | cons event past ih =>
      have earlier (before : after tonumber maxTtl past token = some entry) :
          StoredBy tonumber maxTtl (event :: past) token entry := by
        obtain ⟨origin, member, respects⟩ := ih before
        exact ⟨origin, List.mem_cons_of_mem _ member, respects⟩
      rw [after, step] at present
      cases called : event.call with
      | get other =>
          rw [called] at present
          exact earlier present
      | evict other =>
          rw [called] at present
          exact earlier (ExpiringCache.evict_eq_some present)
      | set other introspectionInfo =>
          rw [called] at present
          dsimp only at present
          cases wrote : TokensCache.set tonumber maxTtl (after tonumber maxTtl past) ⌊event.now⌋
            event.now other introspectionInfo with
          | error message =>
              rw [wrote] at present
              exact earlier present
          | ok written =>
              rw [wrote] at present
              rcases TokensCache.set_eq_ok wrote with
                rfl | ⟨key, ttl, bounded, rfl, read, bound, rfl⟩
              · exact earlier present
              · rcases ExpiringCache.set_eq_some present with ⟨rfl, rfl⟩ | before
                · exact ⟨event, List.mem_cons_self, called, event.now + bounded, rfl,
                    fun now inTime => respects_of_bounded read bound inTime⟩
                · exact earlier before

end Runs

/-- **Expiry.** In every history at times that do not decrease, what is found under a token was
set for this token before, and respects its expiry and the configured maximum. -/
theorem found_respects (tonumber : String → Option ℚ) (maxTtl : Option ℚ)
    (read : TokensCache.Storage ℚ → ℚ → Option String → Option (Json ℚ))
    (expires : ReadsUntilExpiry read) (past : List Event) (now : ℚ) (token : Option String)
    (ordered : (⟨now, .get token⟩ :: past).Pairwise fun later earlier => earlier.now ≤ later.now)
    (found : Json ℚ) (present : read (after tonumber maxTtl past) now token = some found) :
    ∃ event ∈ past, event.call = .set token found ∧ event.now ≤ now ∧
      Respects tonumber maxTtl found event.now now := by
  obtain ⟨key, entry, rfl, stored, rfl, unexpired⟩ := expires _ _ _ _ present
  obtain ⟨event, member, called, moment, limit, respects⟩ := storedBy_after past stored
  exact ⟨event, member, called, (List.pairwise_cons.mp ordered).1 event member,
    respects now (unexpired moment limit)⟩

/-- A token that expires at second 12 is set at 10.5 and found at 11.5. -/
theorem found_respects_second :
    Respects (fun _ => none) (some 5) (.object [("exp", .number 12)]) (21 / 2) (23 / 2) := by
  have clock : ⌊(21 / 2 : ℚ)⌋ = 10 := by norm_num [Int.floor_eq_iff]
  obtain ⟨event, member, -, -, respects⟩ := found_respects (fun _ => none) (some 5)
    TokensCache.get readsUntilExpiry_get
    [⟨21 / 2, .set (some "token") (.object [("exp", .number 12)])⟩] (23 / 2) (some "token")
    (by norm_num) (.object [("exp", .number 12)])
    (by
      norm_num [TokensCache.get, after, step, TokensCache.set, TokensCache.ttlFromIntrospection,
        Json.field, Json.isFalse, Json.toNumber, TokensCache.boundedTtl, clock, ExpiringCache.get,
        ExpiringCache.set, CacheEntry.Fresh])
  obtain rfl := List.mem_singleton.mp member
  exact respects

end TokenExpiry

end Apicast
