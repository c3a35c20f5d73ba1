import Mathlib.Data.List.Basic

/-!
# Policy chains

`policy_chain.lua`, `call_chain` for the access phase. An error that a policy raises
is caught and handed to the error callback of the context; without one, the chain
goes on. Leaving the request with `ngx.exit` cannot be caught.
-/

namespace Apicast

/-- What a request is left with. -/
structure ExitResponse where
  status : Nat
  body : Option String
  deriving DecidableEq, Repr

/-- How the call of a phase of a policy ends. -/
inductive Outcome
  | returned
  | raised (message : String)
  | exited (response : ExitResponse)
  deriving DecidableEq, Repr

structure Policy (Context : Type*) where
  name : String
  access : Context → Context × Outcome

/-- `policy_error_callback`, which may end the request. -/
abbrev ErrorCallback := String → String → Option ExitResponse

/-- The callback of the on_failed policy. -/
def OnFailed.policyErrorCallback (errorStatusCode : Option Nat) : ErrorCallback := fun _ _ =>
  some ⟨errorStatusCode.getD 503, none⟩

/-- `init_failed_policy` -/
structure InitFailedPolicy where
  name : String
  err : String
  deriving DecidableEq, Repr

structure PolicyChain (Context : Type*) where
  policies : List (Policy Context)
  initFailedPolicy : Option InitFailedPolicy

namespace PolicyChain

universe v

variable {Context : Type*} (policyErrorCallback : Context → Option ErrorCallback)

/-- Whether an error of a policy ends the request. -/
def endsRequest (context : Context) (name message : String) : Option ExitResponse :=
  (policyErrorCallback context).bind fun callback => callback name message

def reportError (context : Context) (name message : String) : Except ExitResponse Context :=
  match endsRequest policyErrorCallback context name message with
  | some response => .error response
  | none => .ok context

/-- One round of the loop of `call_chain`. -/
def callPolicy (context : Context) (policy : Policy Context) : Except ExitResponse Context :=
  match policy.access context with
  | (context, .returned) => .ok context
  | (context, .raised message) => reportError policyErrorCallback context policy.name message
  | (_, .exited response) => .error response

/-- What `call_chain` does first when a policy of the chain could not be loaded. -/
def reportInitFailed (self : PolicyChain Context) (context : Context) :
    Except ExitResponse Context :=
  match self.initFailedPolicy with
  | some failed => reportError policyErrorCallback context failed.name failed.err
  | none => .ok context

/-- `call_chain('access')` -/
def callChain (self : PolicyChain Context) (context : Context) : Except ExitResponse Context :=
  self.reportInitFailed policyErrorCallback context >>=
    self.policies.foldlM (callPolicy policyErrorCallback)

/-- The context in which a request gets to a position of the chain, past all policies
before it, unless one of them ends it. -/
def reaches (chain : PolicyChain Context) (position : Nat) (context : Context) :
    Option Context :=
  (callChain policyErrorCallback { chain with policies := chain.policies.take position }
    context).toOption

variable {policyErrorCallback} {chain : PolicyChain Context} {context : Context}

theorem toOption_bind {Error : Type*} {Value Result : Type v} (computed : Except Error Value)
    (next : Value → Except Error Result) :
    (computed >>= next).toOption = computed.toOption.bind fun value => (next value).toOption := by
  cases computed with
  | error failure => rfl
  | ok value => rfl

/-- Getting past a policy is getting to it and past its own call. -/
theorem reaches_succ {position : Nat} {policy : Policy Context}
    (found : chain.policies[position]? = some policy) :
    chain.reaches policyErrorCallback (position + 1) context =
      (chain.reaches policyErrorCallback position context).bind fun reached =>
        (callPolicy policyErrorCallback reached policy).toOption := by
  have split : chain.policies.take (position + 1) = chain.policies.take position ++ [policy] := by
    rw [List.take_add_one, found, Option.toList_some]
  unfold reaches callChain
  rw [split]
  change Except.toOption (chain.reportInitFailed policyErrorCallback context >>= _) =
    (Except.toOption (chain.reportInitFailed policyErrorCallback context >>= _)).bind _
  simp only [toOption_bind, List.foldlM_append, List.foldlM_cons, List.foldlM_nil, bind_pure,
    Option.bind_assoc]

/-- A request gets past the call of a policy exactly when the policy returns, or raises
an error that the callback does not end the request for. -/
theorem isSome_callPolicy {policy : Policy Context} {next : Context} {outcome : Outcome}
    (called : policy.access context = (next, outcome)) :
    (callPolicy policyErrorCallback context policy).toOption.isSome ↔
      outcome = .returned ∨ ∃ message, outcome = .raised message ∧
        endsRequest policyErrorCallback next policy.name message = none := by
  unfold callPolicy
  rw [called]
  cases outcome with
  | returned => exact iff_of_true rfl (.inl rfl)
  | raised message =>
      cases ends : endsRequest policyErrorCallback next policy.name message with
      | none =>
          simp only [reportError, ends]
          exact iff_of_true rfl (.inr ⟨message, rfl, ends⟩)
      | some response =>
          simp only [reportError, ends]
          refine iff_of_false nofun ?_
          rintro (returned | ⟨other, raised, passes⟩)
          · cases returned
          · cases raised
            rw [ends] at passes
            cases passes
  | exited response =>
      refine iff_of_false nofun ?_
      rintro (returned | ⟨other, raised, _⟩)
      · cases returned
      · cases raised

/-- A request gets past a policy, which returns only when this is allowed, only when it is allowed,
exactly when the callback ends the request for every error that the policy raises otherwise. -/
theorem past_only_if_iff {position : Nat} {policy : Policy Context} {outcome : Context → Outcome}
    {Allowed : Context → Prop} (member : chain.policies[position]? = some policy)
    (calls : ∀ reached, policy.access reached = (reached, outcome reached))
    (returns : ∀ reached, outcome reached = .returned → Allowed reached) :
    (∀ reached ∈ chain.reaches policyErrorCallback position context,
        (chain.reaches policyErrorCallback (position + 1) context).isSome → Allowed reached) ↔
      ∀ reached ∈ chain.reaches policyErrorCallback position context,
        Allowed reached ∨ ∀ message, outcome reached = .raised message →
          (endsRequest policyErrorCallback reached policy.name message).isSome := by
  rw [reaches_succ member]
  refine forall₂_congr fun reached arrives => ?_
  rw [Option.mem_def.mp arrives, Option.bind_some, isSome_callPolicy (calls reached)]
  refine ⟨?_, ?_⟩
  · intro closed
    by_cases allowed : Allowed reached
    · exact .inl allowed
    · refine .inr fun message raised => ?_
      rw [Option.isSome_iff_ne_none]
      exact fun passes => allowed (closed (.inr ⟨message, raised, passes⟩))
  · rintro guarded (returned | ⟨message, raised, passes⟩)
    · exact returns reached returned
    · rcases guarded with allowed | ends
      · exact allowed
      · have ended := ends message raised
        rw [passes] at ended
        cases ended

end PolicyChain

end Apicast
