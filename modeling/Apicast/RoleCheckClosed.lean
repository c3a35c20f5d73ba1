import Apicast.RoleDecisions

/-!
# A whitelist in a chain

The claims of a token may have any shape. The error that an unreadable claim raises does not end the
request: the chain catches it, and goes on unless the error callback of the context ends the
request.
-/

namespace Apicast.KeycloakRoleCheck

open Foundation
open JwtClaimCheck (Library)

variable {Number : Type*} (library : Library (Context Number)) (stringFunctions : String → Bool)
  (self : RoleCheck) (request : Request)

/-- There is a token, and a scope that matches the request has all its roles in the token. -/
def TokenGranted (context : Context Number) : Prop :=
  ∃ payload ∈ context.jwt, Granted library context payload request self.scopes

/-- What is raised: the first scope that decides the request is unreadable, or no scope decides it
and there is no service to reject the request for. -/
inductive Failure (context : Context Number) : String → Prop
  | roles {payload : Payload Number} {scope : Scope} {message : String}
      (authenticated : context.jwt = some payload)
      (first : self.scopes.find? (decides library stringFunctions context payload request) =
        some scope)
      (unreadable : UnreadableScope library stringFunctions context payload scope message) :
      Failure context message
  | service (missing : context.service = none)
      (undecided : ∀ payload ∈ context.jwt, ∀ scope ∈ self.scopes,
        decides library stringFunctions context payload request scope = false) :
      Failure context indexOfNil

section Whitelist

variable {library stringFunctions self request} {context : Context Number}

theorem authorizationFailed_raised_iff {message : String} :
    authorizationFailed context = .raised message ↔
      context.service = none ∧ message = indexOfNil := by
  unfold authorizationFailed
  cases context.service with
  | none => simp [eq_comm]
  | some service => simp

theorem find?_decides_eq_none {payload : Payload Number} :
    self.scopes.find? (decides library stringFunctions context payload request) = none ↔
      ∀ scope ∈ self.scopes,
        decides library stringFunctions context payload request scope = false := by
  simp only [List.find?_eq_none, Bool.not_eq_true]

/-- How the access phase of a whitelist ends that denies what no scope matches. -/
theorem access_whitelist (whitelist : self.type = .whitelist)
    (denies : self.whitelistDenyUnmatched = true) :
    access library stringFunctions self request context =
      match context.jwt.bind fun payload =>
          (self.scopes.find? (decides library stringFunctions context payload request)).map
            (matchRoles library stringFunctions context payload) with
      | none => authorizationFailed context
      | some (.error message) => .raised message
      | some (.ok passes) => if passes then .returned else authorizationFailed context := by
  unfold access scopesCheck
  rw [whitelist, denies]
  cases context.jwt with
  | none => rfl
  | some payload =>
      dsimp only
      rw [Option.bind_some, scopesCheckLoop_eq]
      cases self.scopes.find? (decides library stringFunctions context payload request) with
      | none =>
          rw [Option.map_none, Bool.false_or]
          dsimp only
          split <;> rfl
      | some scope =>
          rw [Option.map_some]
          dsimp only
          cases matchRoles library stringFunctions context payload scope with
          | error message => rfl
          | ok passes => cases passes <;> rfl

theorem granted_of_returned (whitelist : self.type = .whitelist)
    (denies : self.whitelistDenyUnmatched = true)
    (returned : access library stringFunctions self request context = .returned) :
    TokenGranted library self request context := by
  rw [access_whitelist whitelist denies] at returned
  split at returned
  · exact absurd returned.symm returned_ne_authorizationFailed
  · cases returned
  · rename_i passes decided
    obtain ⟨payload, authenticated, found⟩ := Option.bind_eq_some_iff.mp decided
    obtain ⟨scope, first, matched⟩ := Option.map_eq_some_iff.mp found
    split at returned
    · rename_i passed
      subst passed
      have covered := (decides_iff.mp (List.find?_some first)).1
      exact ⟨payload, authenticated, scope, List.mem_of_find?_eq_some first, covered,
        matchRoles_true_iff.mp matched⟩
    · exact absurd returned.symm returned_ne_authorizationFailed

theorem access_raised_iff_failure (whitelist : self.type = .whitelist)
    (denies : self.whitelistDenyUnmatched = true) {message : String} :
    access library stringFunctions self request context = .raised message ↔
      Failure library stringFunctions self request context message := by
  rw [access_whitelist whitelist denies]
  constructor
  · intro raised
    split at raised
    · rename_i undecided
      obtain ⟨missing, rfl⟩ := authorizationFailed_raised_iff.mp raised
      refine .service missing fun payload authenticated => ?_
      rw [Option.mem_def.mp authenticated, Option.bind_some, Option.map_eq_none_iff] at undecided
      exact find?_decides_eq_none.mp undecided
    · rename_i decided
      cases raised
      obtain ⟨payload, authenticated, found⟩ := Option.bind_eq_some_iff.mp decided
      obtain ⟨scope, first, failed⟩ := Option.map_eq_some_iff.mp found
      exact .roles authenticated first (matchRoles_error_iff.mp failed)
    · rename_i passes decided
      obtain ⟨payload, authenticated, found⟩ := Option.bind_eq_some_iff.mp decided
      obtain ⟨scope, first, matched⟩ := Option.map_eq_some_iff.mp found
      obtain ⟨_, granted | ⟨unread, unreadable⟩⟩ := decides_iff.mp (List.find?_some first)
      · cases matched.symm.trans (matchRoles_true_iff.mpr granted)
        cases raised
      · cases matched.symm.trans (matchRoles_error_iff.mpr unreadable)
  · intro failure
    cases failure with
    | roles authenticated first unreadable =>
        rw [authenticated, Option.bind_some, first, Option.map_some,
          matchRoles_error_iff.mpr unreadable]
    | service missing undecided =>
        have nothing : (context.jwt.bind fun payload =>
            (self.scopes.find? (decides library stringFunctions context payload request)).map
              (matchRoles library stringFunctions context payload)) = none := by
          rw [Option.bind_eq_none_iff]
          intro payload authenticated
          rw [Option.map_eq_none_iff]
          exact find?_decides_eq_none.mpr (undecided payload authenticated)
        rw [nothing]
        exact authorizationFailed_raised_iff.mpr ⟨missing, rfl⟩

end Whitelist

/-- Processing goes on after the policy at a position of a chain only for requests whose roles are
granted. -/
def PastOnlyIfGranted (chain : PolicyChain (Context Number)) (position : Nat)
    (context : Context Number) : Prop :=
  ∀ reached ∈ chain.reaches Context.policyErrorCallback position context,
    (chain.reaches Context.policyErrorCallback (position + 1) context).isSome →
      TokenGranted library self request reached

/-- The roles are granted, or the error callback ends the request for what is raised. -/
def Guarded (reached : Context Number) : Prop :=
  TokenGranted library self request reached ∨
    ∀ message, Failure library stringFunctions self request reached message →
      (PolicyChain.endsRequest Context.policyErrorCallback reached "Keycloak Role Check Policy"
        message).isSome

/-- For a whitelist that denies what no scope matches, at any position of any chain and for any
shape of the token: processing goes on after it only when the roles are granted exactly when every
request that gets to it is guarded. -/
theorem pastOnlyIfGranted_iff (chain : PolicyChain (Context Number)) (position : Nat)
    (member : chain.policies[position]? = some (policy library stringFunctions self request))
    (whitelist : self.type = .whitelist) (denies : self.whitelistDenyUnmatched = true)
    (context : Context Number) :
    PastOnlyIfGranted library self request chain position context ↔
      ∀ reached ∈ chain.reaches Context.policyErrorCallback position context,
        Guarded library stringFunctions self request reached := by
  unfold PastOnlyIfGranted Guarded
  simp only [← access_raised_iff_failure whitelist denies]
  exact PolicyChain.past_only_if_iff member (fun _ => rfl) fun _ =>
    granted_of_returned whitelist denies

section Examples

/-- A chain with the policy only. -/
def adminChain : PolicyChain (Context Int) where
  policies := [policy prefixLibrary (fun _ => false) (new adminConfig) adminRequest]
  initFailedPolicy := none

/-- A token whose claim is null passes: what its lookup raises is caught by the chain. -/
theorem not_pastOnlyIfGranted_null :
    ¬ PastOnlyIfGranted prefixLibrary (new adminConfig) adminRequest adminChain 0
      (tokenContext .null) := by
  intro closed
  obtain ⟨payload, authenticated, scope, member, _, realm, _⟩ := closed _ rfl rfl
  cases authenticated
  obtain rfl := List.mem_singleton.mp member
  obtain ⟨claim, found, fields, items, rfl, _⟩ := realm _ rfl _ List.mem_cons_self
  cases found

/-- A token without the role is rejected. -/
theorem pastOnlyIfGranted_iff_unlisted :
    PastOnlyIfGranted prefixLibrary (new adminConfig) adminRequest adminChain 0
      (tokenContext (.object [("roles", .array [.string "user"])])) := by
  refine (pastOnlyIfGranted_iff prefixLibrary (fun _ => false) (new adminConfig) adminRequest
    adminChain 0 rfl rfl rfl _).mpr ?_
  intro reached arrives
  cases arrives
  refine .inr fun message failure => ?_
  cases (access_raised_iff_failure rfl rfl).mpr failure

end Examples

end Apicast.KeycloakRoleCheck
