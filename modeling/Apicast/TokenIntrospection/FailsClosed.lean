import Apicast.TokenIntrospection.AccessPhase
import Mathlib.Algebra.Ring.Int.Defs
import Mathlib.Data.List.Induction

/-!
# When token introspection fails closed

The chain catches the errors that the access phase raises and goes on. So a request
whose token is not active gets past the policy exactly when the phase raises an error
that the error callback does not end the request for.
-/

namespace Apicast

open Foundation

namespace TokenIntrospection

variable {Number : Type*} [NatCast Number] [Zero Number] [Add Number] [Sub Number] [LT Number]
  [DecidableLT Number] (tonumber : String → Option Number)

/-- What the endpoint says about the token of a request. -/
def endpointInfo (self : Introspection Number) (env : Environment Number) (context : Context) :
    Option (Json Number) :=
  (withIssuer self env context).toOption.bind fun resolved =>
    resolved.introspectionUrl.bind fun url => introspect resolved env url env.accessToken

/-- What a request is decided by: a cached answer about its token, or the answer of the
endpoint. -/
def decidingInfo (self : Introspection Number) (env : Environment Number)
    (storage : TokensCache.Storage Number) (context : Context) : Option (Json Number) :=
  (withIssuer self env context).toOption.bind fun resolved =>
    resolved.introspectionUrl.bind fun url =>
      cachedTokenInfo resolved env storage env.accessToken <|>
        introspect resolved env url env.accessToken

def SaidActive (self : Introspection Number) (env : Environment Number)
    (storage : TokensCache.Storage Number) (context : Context) : Prop :=
  ∃ tokenInfo ∈ decidingInfo self env storage context, isActive tokenInfo

/-- The issuer that has the credentials cannot be found out. -/
def UnknownIssuer (self : Introspection Number) (env : Environment Number) (context : Context) :
    Prop :=
  self.authType = .useOidcIssuerEndpoint ∧
    (context.proxy = none ∨ context.service = none ∨
      ∃ proxy ∈ context.proxy, ∃ service ∈ context.service, proxy.oauth.isSome ∧
        env.parseUrl service.issuerEndpoint = none)

/-- The answer of the endpoint is to be cached, and cannot be: its expiry is no number,
or it is to be cached without a token. -/
def StoringFault (self : Introspection Number) (env : Environment Number)
    (storage : TokensCache.Storage Number) (context : Context) (message : String) : Prop :=
  ∃ tokenInfo ∈ endpointInfo self env context, self.cachingEnabled ∧
    TokensCache.get storage env.now env.accessToken = none ∧
    ((TokensCache.UnreadableExpiry tonumber tokenInfo ∧ message = arithmeticOnNil) ∨
      (TokensCache.Cacheable tonumber self.maxTtl env.time tokenInfo ∧ env.accessToken = none ∧
        message = nilTableIndex))

/-- The inputs for which the phase raises an error, with the error. -/
inductive Fault (self : Introspection Number) (env : Environment Number)
    (storage : TokensCache.Storage Number) (context : Context) : String → Prop
  | issuer (unknown : UnknownIssuer self env context) : Fault self env storage context indexOfNil
  | storing {message : String} (fault : StoringFault tonumber self env storage context message) :
      Fault self env storage context message
  | service (missing : context.service = none)
      (storable : ∀ message, ¬ StoringFault tonumber self env storage context message)
      (inactive : ¬ SaidActive self env storage context) :
      Fault self env storage context indexOfNil

section AccessPhase

variable {tonumber} {self : Introspection Number} {env : Environment Number}
  {storage : TokensCache.Storage Number} {context : Context}

omit [Zero Number] [Add Number] [Sub Number] [LT Number] [DecidableLT Number] [NatCast Number] in
/-- The beginning of the phase fails on an unknown issuer; else it rejects for a service
that is there, or finds the endpoint and keeps the settings of the cache. -/
theorem withIssuer_cases (self : Introspection Number) (env : Environment Number)
    (context : Context) :
    (UnknownIssuer self env context ∧ withIssuer self env context = .error (.raised indexOfNil)) ∨
      ¬ UnknownIssuer self env context ∧
        ((∃ service, context.service = some service ∧
            withIssuer self env context = .error (reject context)) ∨
          ∃ resolved, withIssuer self env context = .ok resolved ∧
            resolved.cachingEnabled = self.cachingEnabled ∧ resolved.maxTtl = self.maxTtl) := by
  unfold UnknownIssuer withIssuer
  by_cases useOidc : self.authType = .useOidcIssuerEndpoint
  · simp only [useOidc, ↓reduceIte, true_and]
    cases context.proxy with
    | none => exact .inl ⟨.inl rfl, rfl⟩
    | some proxy =>
        cases known : context.service with
        | none =>
            refine .inl ⟨.inr (.inl rfl), ?_⟩
            cases oauth : proxy.oauth with
            | none => simp only [reject, known, oauth]
            | some oauthConfig => simp only [oauth]
        | some service =>
            cases oauth : proxy.oauth with
            | none =>
                refine .inr ⟨?_, .inl ⟨service, rfl, ?_⟩⟩
                · rintro (missing | missing | ⟨other, same, _, _, some, _⟩)
                  · cases missing
                  · cases missing
                  · cases same
                    rw [oauth] at some
                    cases some
                · simp only [oauth]
            | some oauthConfig =>
                cases parsed : env.parseUrl service.issuerEndpoint with
                | none =>
                    refine .inl ⟨.inr (.inr ⟨proxy, rfl, service, rfl, ?_, parsed⟩), ?_⟩
                    · rw [oauth]
                      rfl
                    · simp only [oauth, parsed]
                | some components =>
                    refine .inr ⟨?_, .inr ?_⟩
                    · rintro (missing | missing | ⟨_, _, other, same, _, unparsed⟩)
                      · cases missing
                      · cases missing
                      · cases same
                        rw [parsed] at unparsed
                        cases unparsed
                    · simp only [oauth, parsed, Except.ok.injEq, exists_eq_left', and_self]
  · simp only [useOidc, ↓reduceIte, false_and, not_false_eq_true, true_and, false_or]
    exact .inr ⟨self, rfl, rfl, rfl⟩

/-- Rejecting raises an error only without a service. -/
theorem reject_raised_iff {message : String} :
    reject context = .raised message ↔ context.service = none ∧ message = indexOfNil := by
  unfold reject
  cases context.service with
  | none =>
      simp only [Outcome.raised.injEq, true_and]
      exact eq_comm
  | some service => exact iff_of_false nofun nofun

theorem reject_ne_returned : reject context ≠ .returned := by
  unfold reject
  cases context.service with
  | none => nofun
  | some service => nofun

/-- An introspection fails exactly on an answer that is to be cached and cannot be. -/
theorem introspectToken_error_iff {url message : String} {token : Option String} :
    introspectToken tonumber self env storage url token = .error message ↔
      ∃ tokenInfo ∈ introspect self env url token, self.cachingEnabled ∧
        TokensCache.get storage env.now token = none ∧
        ((TokensCache.UnreadableExpiry tonumber tokenInfo ∧ message = arithmeticOnNil) ∨
          (TokensCache.Cacheable tonumber self.maxTtl env.time tokenInfo ∧ token = none ∧
            message = nilTableIndex)) := by
  unfold introspectToken cachedTokenInfo
  cases enabled : self.cachingEnabled with
  | false =>
      simp only [Bool.false_eq_true, ↓reduceIte, false_and, and_false, exists_false, iff_false]
      cases introspect self env url token with
      | none => nofun
      | some tokenInfo => nofun
  | true =>
      simp only [↓reduceIte, true_and]
      cases TokensCache.get storage env.now token with
      | some cached =>
          refine iff_of_false nofun ?_
          rintro ⟨_, _, missing, _⟩
          cases missing
      | none =>
          cases introspect self env url token with
          | none =>
              refine iff_of_false nofun ?_
              rintro ⟨_, answered, _⟩
              cases answered
          | some tokenInfo =>
              simp only [Option.mem_some_iff, exists_eq_left', true_and]
              rw [← TokensCache.set_error_iff storage env.now]
              cases TokensCache.set tonumber self.maxTtl storage env.time env.now token
                tokenInfo with
              | ok written => exact iff_of_false nofun nofun
              | error raised => simp only [Except.error.injEq]

/-- An introspection that does not fail gives the deciding answer, or an inactive one. -/
theorem introspectToken_info {url : String} {token : Option String} {tokenInfo : Json Number}
    {written : TokensCache.Storage Number}
    (introspected : introspectToken tonumber self env storage url token =
      .ok (written, tokenInfo)) :
    tokenInfo = ((cachedTokenInfo self env storage token <|>
      introspect self env url token).getD inactive) := by
  unfold introspectToken at introspected
  cases cached : cachedTokenInfo self env storage token with
  | some found =>
      rw [cached] at introspected
      cases introspected
      rfl
  | none =>
      rw [cached] at introspected
      cases answered : introspect self env url token with
      | none =>
          rw [answered] at introspected
          cases introspected
          rfl
      | some answer =>
          simp only [answered] at introspected
          by_cases enabled : self.cachingEnabled
          · simp only [enabled, ↓reduceIte] at introspected
            cases stored : TokensCache.set tonumber self.maxTtl storage env.time env.now token
                answer with
            | ok other =>
                rw [stored] at introspected
                cases introspected
                rfl
            | error raised =>
                rw [stored] at introspected
                cases introspected
          · simp only [enabled, Bool.false_eq_true, ↓reduceIte] at introspected
            cases introspected
            rfl

section Resolved

variable {resolved : Introspection Number} {outcome : Outcome}

omit [Zero Number] [Sub Number] [LT Number] [DecidableLT Number] in
theorem endpointInfo_of_error (failed : withIssuer self env context = .error outcome) :
    endpointInfo self env context = none := by
  unfold endpointInfo
  rw [failed]
  rfl

omit [Zero Number] [Sub Number] [LT Number] [DecidableLT Number] in
theorem endpointInfo_of_ok (resolves : withIssuer self env context = .ok resolved) :
    endpointInfo self env context = resolved.introspectionUrl.bind fun url =>
      introspect resolved env url env.accessToken := by
  unfold endpointInfo
  rw [resolves]
  rfl

omit [Zero Number] [Sub Number] in
theorem decidingInfo_of_error (failed : withIssuer self env context = .error outcome) :
    decidingInfo self env storage context = none := by
  unfold decidingInfo
  rw [failed]
  rfl

omit [Zero Number] [Sub Number] in
theorem decidingInfo_of_ok (resolves : withIssuer self env context = .ok resolved) :
    decidingInfo self env storage context = resolved.introspectionUrl.bind fun url =>
      cachedTokenInfo resolved env storage env.accessToken <|>
        introspect resolved env url env.accessToken := by
  unfold decidingInfo
  rw [resolves]
  rfl

end Resolved

/-- Without an endpoint nothing is answered. -/
theorem not_storingFault_of_endpointInfo {message : String}
    (unanswered : endpointInfo self env context = none) :
    ¬ StoringFault tonumber self env storage context message := by
  rintro ⟨tokenInfo, answered, _⟩
  rw [unanswered] at answered
  cases answered

omit [Zero Number] [Sub Number] in
theorem not_saidActive_of_decidingInfo (undecided : decidingInfo self env storage context = none) :
    ¬ SaidActive self env storage context := by
  rintro ⟨tokenInfo, decided, _⟩
  rw [undecided] at decided
  cases decided

/-- With an endpoint, the storing faults are the errors of the introspection. -/
theorem storingFault_iff {resolved : Introspection Number} {url message : String}
    (resolves : withIssuer self env context = .ok resolved)
    (caching : resolved.cachingEnabled = self.cachingEnabled)
    (maxTtl : resolved.maxTtl = self.maxTtl)
    (available : resolved.introspectionUrl = some url) :
    StoringFault tonumber self env storage context message ↔
      introspectToken tonumber resolved env storage url env.accessToken = .error message := by
  rw [introspectToken_error_iff, caching, maxTtl]
  unfold StoringFault
  rw [endpointInfo_of_ok resolves, available, Option.bind_some]

/-- With an endpoint, an introspection that does not fail gives what the request is
decided by. -/
theorem saidActive_iff {resolved : Introspection Number} {url : String} {tokenInfo : Json Number}
    {written : TokensCache.Storage Number}
    (resolves : withIssuer self env context = .ok resolved)
    (available : resolved.introspectionUrl = some url)
    (introspected : introspectToken tonumber resolved env storage url env.accessToken =
      .ok (written, tokenInfo)) :
    SaidActive self env storage context ↔ isActive tokenInfo := by
  rw [introspectToken_info introspected]
  unfold SaidActive
  rw [decidingInfo_of_ok resolves, available, Option.bind_some]
  cases cachedTokenInfo resolved env storage env.accessToken <|>
      introspect resolved env url env.accessToken with
  | none =>
      refine iff_of_false ?_ nofun
      rintro ⟨_, decided, _⟩
      cases decided
  | some decided => simp only [Option.mem_some_iff, exists_eq_left', Option.getD_some]

/-- What the phase does, by the issuer, the endpoint and the introspection. -/
theorem access_cases (tonumber : String → Option Number) (self : Introspection Number)
    (env : Environment Number) (storage : TokensCache.Storage Number) (context : Context) :
    (UnknownIssuer self env context ∧ endpointInfo self env context = none ∧
        decidingInfo self env storage context = none ∧
        (access tonumber self env storage context).2 = .raised indexOfNil) ∨
      ¬ UnknownIssuer self env context ∧
        ((endpointInfo self env context = none ∧ decidingInfo self env storage context = none ∧
            (access tonumber self env storage context).2 = reject context) ∨
          (∃ message, (∀ other, StoringFault tonumber self env storage context other ↔
              message = other) ∧
            (access tonumber self env storage context).2 = .raised message) ∨
          ((∀ message, ¬ StoringFault tonumber self env storage context message) ∧
            ((SaidActive self env storage context ∧
                (access tonumber self env storage context).2 = .returned) ∨
              (¬ SaidActive self env storage context ∧
                (access tonumber self env storage context).2 = reject context)))) := by
  rcases withIssuer_cases self env context with
    ⟨unknown, failed⟩ | ⟨found, ⟨service, known, failed⟩ | ⟨resolved, resolves, caching, maxTtl⟩⟩
  · refine .inl ⟨unknown, endpointInfo_of_error failed, decidingInfo_of_error failed, ?_⟩
    unfold access
    rw [failed]
  · refine .inr ⟨found, .inl ⟨endpointInfo_of_error failed, decidingInfo_of_error failed, ?_⟩⟩
    unfold access
    rw [failed]
  · refine .inr ⟨found, ?_⟩
    cases available : resolved.introspectionUrl with
    | none =>
        refine .inl ⟨?_, ?_, ?_⟩
        · rw [endpointInfo_of_ok resolves, available, Option.bind_none]
        · rw [decidingInfo_of_ok resolves, available, Option.bind_none]
        · unfold access
          simp only [resolves, available]
    | some url =>
        have storing (message : String) :
            StoringFault tonumber self env storage context message ↔
              introspectToken tonumber resolved env storage url env.accessToken =
                .error message :=
          storingFault_iff resolves caching maxTtl available
        unfold access
        simp only [resolves, available]
        cases introspected : introspectToken tonumber resolved env storage url env.accessToken with
        | error message =>
            refine .inr (.inl ⟨message, ?_, rfl⟩)
            intro other
            rw [storing, introspected, Except.error.injEq]
        | ok result =>
            obtain ⟨written, tokenInfo⟩ := result
            refine .inr (.inr ⟨?_, ?_⟩)
            · intro message fault
              rw [storing, introspected] at fault
              cases fault
            · rw [saidActive_iff resolves available introspected]
              cases active : isActive tokenInfo with
              | true =>
                  refine .inl ⟨rfl, ?_⟩
                  simp only [active, ↓reduceIte]
              | false =>
                  refine .inr ⟨nofun, ?_⟩
                  simp only [active, Bool.false_eq_true, ↓reduceIte]

/-- The phase raises exactly the errors of the faults. -/
theorem access_raised_iff {message : String} :
    (access tonumber self env storage context).2 = .raised message ↔
      Fault tonumber self env storage context message := by
  rcases access_cases tonumber self env storage context with
    ⟨unknown, unanswered, undecided, raised⟩ |
    ⟨found, ⟨unanswered, undecided, rejected⟩ | ⟨error, faults, raised⟩ |
      ⟨storable, ⟨active, returned⟩ | ⟨inactive, rejected⟩⟩⟩
  · rw [raised, Outcome.raised.injEq]
    refine ⟨fun same => same ▸ .issuer unknown, ?_⟩
    rintro (_ | fault | _)
    · rfl
    · exact absurd fault (not_storingFault_of_endpointInfo unanswered)
    · rfl
  · rw [rejected, reject_raised_iff]
    refine ⟨?_, ?_⟩
    · rintro ⟨missing, rfl⟩
      exact .service missing (fun _ => not_storingFault_of_endpointInfo unanswered)
        (not_saidActive_of_decidingInfo undecided)
    · rintro (unknown | fault | ⟨missing, _, _⟩)
      · exact absurd unknown found
      · exact absurd fault (not_storingFault_of_endpointInfo unanswered)
      · exact ⟨missing, rfl⟩
  · rw [raised, Outcome.raised.injEq]
    refine ⟨fun same => .storing ((faults message).mpr same), ?_⟩
    rintro (unknown | fault | ⟨_, storable, _⟩)
    · exact absurd unknown found
    · exact (faults message).mp fault
    · exact absurd ((faults error).mpr rfl) (storable error)
  · rw [returned]
    refine iff_of_false nofun ?_
    rintro (unknown | fault | ⟨_, _, inactive⟩)
    · exact found unknown
    · exact storable message fault
    · exact inactive active
  · rw [rejected, reject_raised_iff]
    refine ⟨?_, ?_⟩
    · rintro ⟨missing, rfl⟩
      exact .service missing storable inactive
    · rintro (unknown | fault | ⟨missing, _, _⟩)
      · exact absurd unknown found
      · exact absurd fault (storable message)
      · exact ⟨missing, rfl⟩

/-- The phase returns only for an active token. -/
theorem saidActive_of_returned
    (returned : (access tonumber self env storage context).2 = .returned) :
    SaidActive self env storage context := by
  rcases access_cases tonumber self env storage context with
    ⟨_, _, _, raised⟩ | ⟨_, ⟨_, _, rejected⟩ | ⟨_, _, raised⟩ | ⟨_, ⟨active, _⟩ | ⟨_, rejected⟩⟩⟩
  · rw [raised] at returned
    cases returned
  · rw [rejected] at returned
    exact absurd returned reject_ne_returned
  · rw [raised] at returned
    cases returned
  · exact active
  · rw [rejected] at returned
    exact absurd returned reject_ne_returned

end AccessPhase

section History

variable {tonumber} {self : Introspection Number} {env : Environment Number}
  {storage : TokensCache.Storage Number} {context : Context}

/-- The endpoint said this about the token in some request of the history. -/
def Answered (self : Introspection Number) (history : List (Event Number)) (token : Option String)
    (tokenInfo : Json Number) : Prop :=
  ∃ env context, Event.access env context ∈ history ∧ env.accessToken = token ∧
    endpointInfo self env context = some tokenInfo

/-- An introspection writes at most the answer of the endpoint. -/
theorem get_introspectToken {url : String} {token other : Option String}
    {tokenInfo found : Json Number} {written : TokensCache.Storage Number} {now : Number}
    (introspected : introspectToken tonumber self env storage url token = .ok (written, tokenInfo))
    (present : TokensCache.get written now other = some found) :
    (other = token ∧ introspect self env url token = some found) ∨
      TokensCache.get storage now other = some found := by
  unfold introspectToken at introspected
  cases cached : cachedTokenInfo self env storage token with
  | some answer =>
      rw [cached] at introspected
      cases introspected
      exact .inr present
  | none =>
      rw [cached] at introspected
      cases answered : introspect self env url token with
      | none =>
          rw [answered] at introspected
          cases introspected
          exact .inr present
      | some answer =>
          simp only [answered] at introspected
          by_cases enabled : self.cachingEnabled
          · simp only [enabled, ↓reduceIte] at introspected
            cases stored : TokensCache.set tonumber self.maxTtl storage env.time env.now token
                answer with
            | error raised =>
                rw [stored] at introspected
                cases introspected
            | ok result =>
                rw [stored] at introspected
                cases introspected
                rcases TokensCache.get_set stored present with ⟨same, equal⟩ | before
                · exact .inl ⟨same, congrArg some equal.symm⟩
                · exact .inr before
          · simp only [enabled, Bool.false_eq_true, ↓reduceIte] at introspected
            cases introspected
            exact .inr present

/-- A request writes at most what the endpoint says about its token. -/
theorem get_access {other : Option String} {found : Json Number} {now : Number}
    (present : TokensCache.get (access tonumber self env storage context).1 now other =
      some found) :
    (env.accessToken = other ∧ endpointInfo self env context = some found) ∨
      TokensCache.get storage now other = some found := by
  unfold access at present
  cases resolves : withIssuer self env context with
  | error outcome =>
      rw [resolves] at present
      exact .inr present
  | ok resolved =>
      simp only [resolves] at present
      cases available : resolved.introspectionUrl with
      | none =>
          rw [available] at present
          exact .inr present
      | some url =>
          simp only [available] at present
          cases introspected : introspectToken tonumber resolved env storage url
            env.accessToken with
          | error message =>
              rw [introspected] at present
              exact .inr present
          | ok result =>
              rw [introspected] at present
              rcases get_introspectToken introspected present with ⟨same, answered⟩ | before
              · refine .inl ⟨same.symm, ?_⟩
                rw [endpointInfo_of_ok resolves, available, Option.bind_some, answered]
              · exact .inr before

/-- What the cache gives for a token, the endpoint has said about this token. -/
theorem answered_of_storageAfter {history : List (Event Number)} {token : Option String}
    {now : Number} {tokenInfo : Json Number}
    (present : TokensCache.get (storageAfter tonumber self history) now token = some tokenInfo) :
    Answered self history token tokenInfo := by
  induction history using List.reverseRecOn with
  | nil =>
      obtain ⟨_, _, found⟩ := Option.bind_eq_some_iff.mp present
      cases found
  | append_singleton before event ih =>
      have earlier : Answered self before token tokenInfo →
          Answered self (before ++ [event]) token tokenInfo := by
        rintro ⟨env, context, member, answered⟩
        exact ⟨env, context, List.mem_append_left _ member, answered⟩
      unfold storageAfter at present
      rw [List.foldl_append, List.foldl_cons, List.foldl_nil] at present
      cases event with
      | evict evicted =>
          obtain ⟨key, same, found⟩ := Option.bind_eq_some_iff.mp present
          exact earlier
            (ih (Option.bind_eq_some_iff.mpr ⟨key, same, ExpiringCache.get_evict found⟩))
      | access env context =>
          rcases get_access present with ⟨same, answered⟩ | found
          · exact ⟨env, context, List.mem_append_right _ List.mem_cons_self, same, answered⟩
          · exact earlier (ih found)

end History

/-- A request gets past the policy only if what it is decided by says that its token is
active. -/
def FailsClosed (self : Introspection Number) (env : Environment Number)
    (storage : TokensCache.Storage Number) (chain : PolicyChain Context) (position : Nat)
    (context : Context) : Prop :=
  ∀ reached ∈ chain.reaches Context.policyErrorCallback position context,
    (chain.reaches Context.policyErrorCallback (position + 1) context).isSome →
      SaidActive self env storage reached

/-- The token is active, or the error callback ends the request for every error that is
raised. -/
def Guarded (self : Introspection Number) (env : Environment Number)
    (storage : TokensCache.Storage Number) (reached : Context) : Prop :=
  SaidActive self env storage reached ∨
    ∀ message, Fault tonumber self env storage reached message →
      (PolicyChain.endsRequest Context.policyErrorCallback reached "Token Introspection Policy"
        message).isSome

/-- For every chain with the policy, every history of its cache and every request: what
the cache gives for a token, the endpoint has said about this token; and the request
gets past the policy for an active token only, exactly when it is guarded. -/
theorem failsClosed_iff (self : Introspection Number) (history : List (Event Number))
    (env : Environment Number) (chain : PolicyChain Context) (position : Nat)
    (member : chain.policies[position]? =
      some (policy tonumber self env (storageAfter tonumber self history)))
    (context : Context) :
    (∀ now token tokenInfo,
        TokensCache.get (storageAfter tonumber self history) now token = some tokenInfo →
        Answered self history token tokenInfo) ∧
      (FailsClosed self env (storageAfter tonumber self history) chain position context ↔
        ∀ reached ∈ chain.reaches Context.policyErrorCallback position context,
          Guarded tonumber self env (storageAfter tonumber self history) reached) := by
  refine ⟨fun _ _ _ present => answered_of_storageAfter present, ?_⟩
  unfold FailsClosed Guarded
  simp only [← access_raised_iff]
  exact PolicyChain.past_only_if_iff member (fun _ => rfl) fun _ => saidActive_of_returned

section Examples

/-- A policy that caches introspected tokens. -/
def cachingIntrospection : Introspection Int :=
  .new ⟨none, some "client", some "secret", some "https://idp/introspect", none, none, none,
    some 100⟩ none

/-- A request with a token that the endpoint gives this answer about. -/
def answeringEnvironment (tokenInfo : Json Int) : Environment Int where
  time := 1000
  now := 1000
  requestId := "request"
  accessToken := some "token"
  encodeBase64 := id
  sign := fun _ _ => none
  parseUrl := fun _ => none
  post := fun _ => .ok ⟨200, some tokenInfo⟩

/-- A chain with the policy only, for a service. -/
def introspectionChain (tokenInfo : Json Int) : PolicyChain Context where
  policies := [policy (fun _ => none) cachingIntrospection (answeringEnvironment tokenInfo)
    (storageAfter (fun _ => none) cachingIntrospection [])]
  initFailedPolicy := none

def serviceContext : Context := ⟨some ⟨403, "Authentication failed", none⟩, none, none⟩

/-- An inactive token passes when its expiry is null: the error raised while caching the
answer is caught by the chain. -/
theorem failsClosed_null_expiry :
    ¬ FailsClosed cachingIntrospection
      (answeringEnvironment (.object [("active", .boolean false), ("exp", .null)]))
      (storageAfter (fun _ => none) cachingIntrospection [])
      (introspectionChain (.object [("active", .boolean false), ("exp", .null)])) 0
      serviceContext := by
  intro closed
  obtain ⟨tokenInfo, decided, active⟩ := closed serviceContext rfl rfl
  cases decided
  cases active

/-- An inactive token without an expiry is rejected. -/
theorem failsClosed_iff_no_expiry :
    FailsClosed cachingIntrospection
      (answeringEnvironment (.object [("active", .boolean false)]))
      (storageAfter (fun _ => none) cachingIntrospection [])
      (introspectionChain (.object [("active", .boolean false)])) 0 serviceContext := by
  refine (failsClosed_iff (fun _ => none) cachingIntrospection []
    (answeringEnvironment (.object [("active", .boolean false)]))
    (introspectionChain (.object [("active", .boolean false)])) 0 rfl serviceContext).2.mpr ?_
  intro reached arrives
  cases arrives
  refine .inr fun message fault => ?_
  have raised := access_raised_iff.mpr fault
  cases raised

end Examples

end TokenIntrospection

end Apicast
