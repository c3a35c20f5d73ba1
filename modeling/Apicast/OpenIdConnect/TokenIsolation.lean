import Apicast.Foundation.TransitionSystem
import Apicast.OpenIdConnect.Oidc
import Mathlib.Algebra.Order.Group.Int

/-!
# Isolation of the instances that share the cache of tokens

Calls of any instances of a worker, in any order, with evictions and the passing of
time in between. An instance finds what another one has cached when both use the same
cache key, and then does not verify the token itself.
-/

namespace Apicast

open Foundation

namespace OpenIdConnect

variable {Time : Type*} [AddCommGroup Time] [LinearOrder Time]

/-- What the JWT library promises: the claims of a token that verifies have an expiry, and
the token verifies again at any later moment before it. -/
structure JwtLibrary.Documented (library : JwtLibrary Time) : Prop where
  untilExpiry : ∀ pem issuer jwt now, library.verifyJwtObj pem issuer jwt now = .ok () →
    ∃ exp ∈ jwt.exp, ∀ later, now ≤ later → later < exp →
      library.verifyJwtObj pem issuer jwt later = .ok ()

/-- A call that returned success. -/
structure Acceptance (Time : Type*) where
  oidc : Oidc
  token : String
  key : String
  moment : Time

/-- A worker, with a record of its successful calls. -/
structure Worker (Time : Type*) where
  cache : Cache Time
  now : Time
  accepted : List (Acceptance Time)

inductive Event (Time : Type*)
  | transformCredentials (oidc : Oidc) (accessToken : String) (cacheKey : Option String)
  | evict (key : String)
  | elapse (moment : Time)

/-- The key under which a call looks for the token. -/
def callKey (accessToken : String) (keyspace : Option String) : String :=
  cacheKey (some (sharedNamespace keyspace)) accessToken

/-- A call has success and leaves this cache. -/
def Worker.accept (worker : Worker Time) (cache : Cache Time) (oidc : Oidc) (accessToken : String)
    (keyspace : Option String) : Worker Time :=
  { worker with
    cache
    accepted := ⟨oidc, accessToken, callKey accessToken keyspace, worker.now⟩ :: worker.accepted }

variable (library : JwtLibrary Time) (engine : TemplateEngine (Json Time)) (start : Time)

/-- Time does not run backwards. -/
def machine : Machine (Worker Time) (Event Time) where
  initial := ⟨fun _ => none, start, []⟩
  next worker
    | .transformCredentials oidc accessToken keyspace =>
        match transformCredentials library engine oidc worker.cache worker.now accessToken
          keyspace with
        | (cache, .ok _) => some (worker.accept cache oidc accessToken keyspace)
        | (cache, .error _) => some { worker with cache }
    | .evict key => some { worker with cache := worker.cache.evict key }
    | .elapse moment => if worker.now ≤ moment then some { worker with now := moment } else none

/-- A token that the own configuration of an instance rejects does not come under a key
under which another token, or another configuration, had success. -/
def OwnKey (worker : Worker Time) : Event Time → Prop
  | .transformCredentials oidc accessToken keyspace =>
      ¬ Verifies library oidc.verifier accessToken worker.now →
        ∀ earlier ∈ worker.accepted, earlier.key = callKey accessToken keyspace →
          earlier.oidc.verifier = oidc.verifier ∧ earlier.token = accessToken
  | _ => True

/-- What is in the cache was accepted, and the instance that accepted it would do so as
long as the entry is fresh. -/
def Vouched (worker : Worker Time) : Prop :=
  ∀ key entry, worker.cache key = some entry →
    entry.value.verified ∧ ∃ earlier ∈ worker.accepted, earlier.key = key ∧
      ∀ later, worker.now ≤ later → entry.Fresh later →
        Verifies library earlier.oidc.verifier earlier.token later

/-- Every successful call was right: the token verified under the configuration of the
instance called. -/
def AcceptedRightly (worker : Worker Time) : Prop :=
  ∀ acceptance ∈ worker.accepted,
    Verifies library acceptance.oidc.verifier acceptance.token acceptance.moment

section Calls

variable {library engine} {self : Verifier} {oidc : Oidc} {cache : Cache Time} {now : Time}
  {accessToken key : String} {keyspace : Option String}

omit [AddCommGroup Time] in
/-- A token that verifies goes on doing so until it expires. -/
theorem Verifies.later (documented : library.Documented)
    (verifies : Verifies library self accessToken now) :
    ∃ exp ∈ (loadJwt library accessToken).exp, ∀ later, now ≤ later → later < exp →
      Verifies library self accessToken later := by
  obtain ⟨valid, allowed, jwk, found, suits, signed⟩ := verifies
  obtain ⟨exp, expires, again⟩ := documented.untilExpiry _ _ _ _ signed
  refine ⟨exp, expires, ?_⟩
  intro later order before
  exact ⟨valid, allowed, jwk, found, suits, again later order before⟩

omit [LinearOrder Time] in
/-- A token that was only parsed is accepted exactly when it verifies, and then it is
cached for the rest of its life. -/
theorem verify_ok_iff {result : Cache Time × Jwt Time} :
    verify library self cache now (loadJwt library accessToken) key = .ok result ↔
      Verifies library self accessToken now ∧
        result = (cacheJwt cache now (loadJwt library accessToken) key,
          { loadJwt library accessToken with verified := true }) := by
  unfold verify
  by_cases valid : (loadJwt library accessToken).valid
  · simp only [valid, Bool.true_eq_false, ↓reduceIte]
    by_cases allowed : (loadJwt library accessToken).alg.any (· ∈ self.algWhitelist)
    · simp only [allowed, not_true_eq_false, ↓reduceIte]
      cases found : findJwk self (loadJwt library accessToken) with
      | none =>
          refine iff_of_false nofun ?_
          rintro ⟨⟨_, _, jwk, other, _⟩, _⟩
          rw [found] at other
          cases other
      | some jwk =>
          by_cases mismatch : jwk.alg.isSome ∧ jwk.alg ≠ (loadJwt library accessToken).alg
          · simp only [if_pos mismatch]
            refine iff_of_false nofun ?_
            rintro ⟨⟨_, _, other, same, suits, _⟩, _⟩
            rw [found] at same
            cases same
            exact suits mismatch
          · simp only [if_neg mismatch]
            cases signed : library.verifyJwtObj jwk.pem self.issuer (loadJwt library accessToken)
                now with
            | error reason =>
                refine iff_of_false nofun ?_
                rintro ⟨⟨_, _, other, same, _, verified⟩, _⟩
                rw [found] at same
                cases same
                rw [signed] at verified
                cases verified
            | ok checked =>
                have verifies : Verifies library self accessToken now :=
                  ⟨valid, allowed, jwk, found, mismatch, signed⟩
                simp only [verifies, true_and, Except.ok.injEq]
                exact eq_comm
    · simp only [allowed, Bool.false_eq_true, not_false_eq_true, ↓reduceIte]
      exact iff_of_false nofun fun ⟨verifies, _⟩ => allowed verifies.allowed
  · simp only [valid, ↓reduceIte]
    exact iff_of_false nofun fun ⟨verifies, _⟩ => valid verifies.valid

/-- A successful call found the token in the cache, or verified it and cached it. -/
theorem parseAndVerify_ok {keyspace : String} {result : Cache Time × Jwt Time}
    (verified : ∀ jwt, cache.get now (cacheKey (some keyspace) accessToken) = some jwt →
      jwt.verified)
    (succeeded : parseAndVerify library self cache now accessToken keyspace = .ok result) :
    ((cache.get now (cacheKey (some keyspace) accessToken)).isSome ∧ result.1 = cache) ∨
      verify library self cache now (loadJwt library accessToken)
        (cacheKey (some keyspace) accessToken) = .ok result := by
  unfold parseAndVerify parse at succeeded
  cases cached : cache.get now (cacheKey (some keyspace) accessToken) with
  | some jwt =>
      simp only [cached, Option.getD_some, verified jwt cached, ↓reduceIte] at succeeded
      cases succeeded
      exact .inl ⟨rfl, rfl⟩
  | none =>
      have unverified : (loadJwt library accessToken).verified = false := rfl
      simp only [cached, Option.getD_none, unverified, Bool.false_eq_true, ↓reduceIte] at succeeded
      cases checked : verify library self cache now (loadJwt library accessToken)
          (cacheKey (some keyspace) accessToken) with
      | error failure =>
          rw [checked] at succeeded
          cases succeeded
      | ok checkedResult =>
          rw [checked] at succeeded
          cases succeeded
          exact .inr rfl

/-- What a successful call is based on: a fresh entry of the cache, which stays as it is,
or a verification of its own, which is cached. -/
theorem transformCredentials_cases (library : JwtLibrary Time) (engine : TemplateEngine (Json Time))
    (verified : ∀ key entry, cache key = some entry → entry.value.verified) (now : Time)
    (oidc : Oidc) (accessToken : String) (keyspace : Option String) :
    (∃ err, transformCredentials library engine oidc cache now accessToken keyspace =
        (cache, .error err)) ∨
      ∃ written transformed, transformCredentials library engine oidc cache now accessToken
          keyspace = (written, .ok transformed) ∧
        (((cache.get now (callKey accessToken keyspace)).isSome ∧ written = cache) ∨
          (Verifies library oidc.verifier accessToken now ∧
            written = cacheJwt cache now (loadJwt library accessToken)
              (callKey accessToken keyspace))) := by
  unfold transformCredentials
  cases parsed : parseAndVerify library oidc.verifier cache now accessToken
      (sharedNamespace keyspace) with
  | error err => exact .inl ⟨err, rfl⟩
  | ok result =>
      refine .inr ⟨result.1, _, rfl, ?_⟩
      have cachedVerified (jwt : Jwt Time)
          (found : cache.get now (cacheKey (some (sharedNamespace keyspace)) accessToken) =
            some jwt) : jwt.verified := by
        obtain ⟨entry, present, _, equal⟩ := ExpiringCache.get_eq_some.mp found
        exact equal ▸ verified _ entry present
      rcases parseAndVerify_ok cachedVerified parsed with hit | checked
      · exact .inl hit
      · obtain ⟨verifies, equal⟩ := verify_ok_iff.mp checked
        exact .inr ⟨verifies, congrArg Prod.fst equal⟩

omit [LinearOrder Time] in
/-- The only entry that caching a token changes is its own. -/
theorem cacheJwt_eq_some {jwt : Jwt Time} {other : String} {entry : CacheEntry Time (Jwt Time)}
    (present : cacheJwt cache now jwt key other = some entry) :
    (other = key ∧ entry = ⟨{ jwt with verified := true }, jwt.exp⟩) ∨
      cache other = some entry := by
  have expires : (timestampToSecondsFromNow jwt.exp now).map (now + ·) = jwt.exp := by
    unfold timestampToSecondsFromNow
    cases jwt.exp with
    | none => rfl
    | some exp =>
        simp only [Option.map_some, add_sub_cancel]
  rcases ExpiringCache.set_eq_some present with ⟨same, written⟩ | before
  · rw [expires] at written
    exact .inl ⟨same, written⟩
  · exact .inr before

end Calls

section Runs

variable {library engine start} {worker after : Worker Time} {event : Event Time}

/-- What a step does: a call fails, or has success with a fresh entry or with a
verification of its own; an entry is dropped; time passes. -/
theorem next_cases (verified : ∀ key entry, worker.cache key = some entry → entry.value.verified)
    (stepped : (machine library engine start).next worker event = some after) :
    after = worker ∨
      (∃ oidc accessToken keyspace, event = .transformCredentials oidc accessToken keyspace ∧
        (((worker.cache.get worker.now (callKey accessToken keyspace)).isSome ∧
            after = worker.accept worker.cache oidc accessToken keyspace) ∨
          (Verifies library oidc.verifier accessToken worker.now ∧
            after = worker.accept (cacheJwt worker.cache worker.now (loadJwt library accessToken)
              (callKey accessToken keyspace)) oidc accessToken keyspace))) ∨
      (∃ key, after = { worker with cache := worker.cache.evict key }) ∨
      ∃ moment, worker.now ≤ moment ∧ after = { worker with now := moment } := by
  cases event with
  | transformCredentials oidc accessToken keyspace =>
      unfold machine at stepped
      rcases transformCredentials_cases library engine verified worker.now oidc accessToken
        keyspace with
        ⟨err, failed⟩ | ⟨written, transformed, succeeded, based⟩
      · simp only [failed] at stepped
        cases stepped
        exact .inl rfl
      · simp only [succeeded] at stepped
        cases stepped
        refine .inr (.inl ⟨oidc, accessToken, keyspace, rfl, ?_⟩)
        rcases based with ⟨hit, same⟩ | ⟨verifies, same⟩
        · subst same
          exact .inl ⟨hit, rfl⟩
        · subst same
          exact .inr ⟨verifies, rfl⟩
  | evict key =>
      cases stepped
      exact .inr (.inr (.inl ⟨key, rfl⟩))
  | elapse moment =>
      obtain ⟨order, equal⟩ := Option.ite_none_right_eq_some.mp stepped
      cases equal
      exact .inr (.inr (.inr ⟨moment, order, rfl⟩))

omit [AddCommGroup Time] in
/-- A fresh entry was accepted for an instance and a token that verifies now. -/
theorem Vouched.verifies_of_get (vouched : Vouched library worker) {key : String}
    (found : (worker.cache.get worker.now key).isSome) :
    ∃ earlier ∈ worker.accepted, earlier.key = key ∧
      Verifies library earlier.oidc.verifier earlier.token worker.now := by
  obtain ⟨jwt, found⟩ := Option.isSome_iff_exists.mp found
  obtain ⟨entry, present, fresh, _⟩ := ExpiringCache.get_eq_some.mp found
  obtain ⟨_, earlier, member, same, vouches⟩ := vouched key entry present
  exact ⟨earlier, member, same, vouches worker.now le_rfl fresh⟩

/-- Whatever its configuration is, an instance accepts a token that it finds in the cache. -/
theorem Vouched.accepts_of_get (vouched : Vouched library worker)
    (engine : TemplateEngine (Json Time)) (oidc : Oidc) {accessToken : String}
    {keyspace : Option String}
    (found : (worker.cache.get worker.now (callKey accessToken keyspace)).isSome) :
    ∃ transformed, transformCredentials library engine oidc worker.cache worker.now accessToken
      keyspace = (worker.cache, .ok transformed) := by
  obtain ⟨jwt, found⟩ := Option.isSome_iff_exists.mp found
  obtain ⟨entry, present, _, equal⟩ := ExpiringCache.get_eq_some.mp found
  have verified : jwt.verified := equal ▸ (vouched _ entry present).1
  have parsed : parseAndVerify library oidc.verifier worker.cache worker.now accessToken
      (sharedNamespace keyspace) = .ok (worker.cache, jwt) := by
    unfold callKey at found
    simp only [parseAndVerify, parse, found, Option.getD_some, verified, ↓reduceIte]
  unfold transformCredentials
  rw [parsed]
  exact ⟨_, rfl⟩

omit [AddCommGroup Time] in
/-- More acceptances, fewer entries and later moments keep the cache vouched for. -/
theorem Vouched.weaken (vouched : Vouched library worker)
    (entries : ∀ key entry, after.cache key = some entry → worker.cache key = some entry)
    (accepted : ∀ acceptance ∈ worker.accepted, acceptance ∈ after.accepted)
    (order : worker.now ≤ after.now) : Vouched library after := by
  intro key entry present
  obtain ⟨verified, earlier, member, same, vouches⟩ := vouched key entry (entries key entry present)
  refine ⟨verified, earlier, accepted earlier member, same, ?_⟩
  intro later following fresh
  exact vouches later (order.trans following) fresh

/-- A verified token is vouched for by its own acceptance until it expires. -/
theorem Vouched.accept (documented : library.Documented) (vouched : Vouched library worker)
    {oidc : Oidc} {accessToken : String} (keyspace : Option String)
    (verifies : Verifies library oidc.verifier accessToken worker.now) :
    Vouched library (worker.accept (cacheJwt worker.cache worker.now (loadJwt library accessToken)
      (callKey accessToken keyspace)) oidc accessToken keyspace) := by
  intro key entry present
  rcases cacheJwt_eq_some present with ⟨same, equal⟩ | before
  · subst equal
    obtain ⟨exp, expires, again⟩ := verifies.later documented
    refine ⟨rfl, _, List.mem_cons_self, same.symm, ?_⟩
    intro later following fresh
    exact again later following (fresh exp expires)
  · obtain ⟨verified, earlier, member, named, vouches⟩ := vouched key entry before
    exact ⟨verified, earlier, List.mem_cons_of_mem _ member, named, vouches⟩

theorem Vouched.next (documented : library.Documented) (vouched : Vouched library worker)
    (stepped : (machine library engine start).next worker event = some after) :
    Vouched library after := by
  rcases next_cases (fun key entry present => (vouched key entry present).1) stepped with
    same | ⟨oidc, accessToken, keyspace, _, ⟨_, same⟩ | ⟨verifies, same⟩⟩ | ⟨key, same⟩ |
      ⟨moment, order, same⟩
  · subst same
    exact vouched
  · subst same
    exact vouched.weaken (fun _ _ present => present)
      (fun _ member => List.mem_cons_of_mem _ member) le_rfl
  · subst same
    exact vouched.accept documented keyspace verifies
  · subst same
    exact vouched.weaken (fun _ _ present => ExpiringCache.evict_eq_some present)
      (fun _ member => member) le_rfl
  · subst same
    exact vouched.weaken (fun _ _ present => present) (fun _ member => member) order

/-- Where no token comes under the key of another one or of another configuration, a call
that has success is right. -/
theorem AcceptedRightly.next (vouched : Vouched library worker)
    (right : AcceptedRightly library worker) (own : OwnKey library worker event)
    (stepped : (machine library engine start).next worker event = some after) :
    AcceptedRightly library after := by
  rcases next_cases (fun key entry present => (vouched key entry present).1) stepped with
    same | ⟨oidc, accessToken, keyspace, called, ⟨hit, same⟩ | ⟨verifies, same⟩⟩ | ⟨key, same⟩ |
      ⟨moment, order, same⟩
  · subst same
    exact right
  · subst same called
    have verifies : Verifies library oidc.verifier accessToken worker.now := by
      by_contra rejects
      obtain ⟨earlier, member, named, verifies⟩ := vouched.verifies_of_get hit
      obtain ⟨sameVerifier, sameToken⟩ := own rejects earlier member named
      rw [sameVerifier, sameToken] at verifies
      exact rejects verifies
    exact List.forall_mem_cons.mpr ⟨verifies, right⟩
  · subst same
    exact List.forall_mem_cons.mpr ⟨verifies, right⟩
  · subst same
    exact right
  · subst same
    exact right

/-- In every run in which no instance gets a token that its own configuration rejects under
the key of another token or of another configuration that had success, every successful
call is right. -/
theorem accepted_verifies (documented : library.Documented)
    (reachable : (machine library engine start).ReachableWithin (OwnKey library) worker) :
    AcceptedRightly library worker := by
  have invariant : (machine library engine start).InvariantWithin (OwnKey library) fun worker =>
      Vouched library worker ∧ AcceptedRightly library worker := by
    refine ⟨⟨nofun, nofun⟩, ?_⟩
    intro before event after ⟨vouched, right⟩ own stepped
    exact ⟨vouched.next documented stepped, right.next vouched own stepped⟩
  exact (invariant.of_reachable reachable).2

end Runs

section Examples

/-- A library that finds the same claims in every token. -/
def claimsLibrary : JwtLibrary Int where
  loadJwt token :=
    ⟨token, true, some "RS256", some "key",
      .object [("iss", .string "https://first"), ("exp", .number 100)], false, none⟩
  verifyJwtObj _ issuer jwt now :=
    match jwt.payload.field "iss", jwt.exp with
    | some (.string iss), some exp =>
        if issuer = some iss ∧ now < exp then .ok () else .error "claim"
    | _, _ => .error "claim"

theorem claimsLibrary_documented : claimsLibrary.Documented := by
  refine ⟨?_⟩
  intro pem issuer jwt now verified
  simp only [claimsLibrary] at verified ⊢
  split at verified
  · rename_i iss exp named expires
    split at verified
    · rename_i suits
      refine ⟨exp, expires, ?_⟩
      intro later _ before
      exact if_pos ⟨suits.1, before⟩
    · cases verified
  · cases verified

/-- An instance for the tokens of an issuer. -/
def oidcOf (issuer : String) : Oidc :=
  (Oidc.new (some ⟨some issuer, ["RS256"], [("key", ⟨some "pem", none⟩)], none, .plain⟩)).1

def noTemplates : TemplateEngine (Json Int) := ⟨fun _ => none, fun _ _ => false⟩

/-- Two instances without a cache key of their own: the second one accepts the token that
the first one has cached, although it is for another issuer. -/
theorem accepted_other_issuer :
    ∃ worker, (machine claimsLibrary noTemplates 0).run
        (machine claimsLibrary noTemplates 0).initial
        [.transformCredentials (oidcOf "https://first") "token" none,
          .transformCredentials (oidcOf "https://second") "token" none] = some worker ∧
      ¬ AcceptedRightly claimsLibrary worker := by
  refine ⟨_, rfl, ?_⟩
  intro right
  obtain ⟨_, _, jwk, found, _, verified⟩ := right _ List.mem_cons_self
  cases found
  cases verified

/-- An instance that accepts a token twice, the second time from the cache. -/
theorem accepted_verifies_twice :
    let machine : Machine (Worker Int) (Event Int) := machine claimsLibrary noTemplates 0
    ∃ middle worker,
      machine.next machine.initial
          (.transformCredentials (oidcOf "https://first") "token" none) = some middle ∧
        machine.next middle
          (.transformCredentials (oidcOf "https://first") "token" none) = some worker ∧
        worker.accepted.length = 2 ∧ AcceptedRightly claimsLibrary worker := by
  intro machine
  obtain ⟨middle, first⟩ : ∃ middle, machine.next machine.initial
      (.transformCredentials (oidcOf "https://first") "token" none) = some middle := ⟨_, rfl⟩
  have only : ∀ earlier ∈ middle.accepted, earlier.oidc = oidcOf "https://first" ∧
      earlier.token = "token" := by
    cases first
    intro earlier member
    rw [List.mem_singleton.mp member]
    exact ⟨rfl, rfl⟩
  obtain ⟨worker, second, twice⟩ : ∃ worker, machine.next middle
      (.transformCredentials (oidcOf "https://first") "token" none) = some worker ∧
        worker.accepted.length = 2 := by
    cases first
    exact ⟨_, rfl, rfl⟩
  have own : OwnKey claimsLibrary middle
      (.transformCredentials (oidcOf "https://first") "token" none) := by
    intro _ earlier member _
    obtain ⟨same, token⟩ := only earlier member
    exact ⟨congrArg Oidc.verifier same, token⟩
  have reached : machine.ReachableWithin (OwnKey claimsLibrary) middle := by
    refine .step .initial ?_ first
    intro _ earlier member
    exact absurd member List.not_mem_nil
  exact ⟨middle, worker, first, second, twice,
    accepted_verifies claimsLibrary_documented (.step reached own second)⟩

end Examples

end OpenIdConnect

end Apicast
