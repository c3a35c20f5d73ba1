import Apicast.Foundation.LinkedList
import Apicast.PolicyChain

/-!
# The phases of policies

A chain calls a phase on each of its policies with a context that they share. A policy sees what is
in the context and what the policies of the chain export, and writes to the context. Chains are
nested: the conditional policy calls a phase on its own chain when its condition is met, and the
local chain calls it on the chain that the context names.
-/

namespace Apicast

open Foundation

/-- The phases of a request. -/
inductive Phase
  | rewrite
  | access
  | content
  | balancer
  | headerFilter
  | bodyFilter
  | postAction
  | log
  | metrics
  | sslCertificate
  deriving DecidableEq

namespace Phases

/-- The context that policies share. -/
abbrev Context (Key Value : Type*) := LinkedList Key Value

/-- What a phase of a policy does: the table of the context after it, what is seen of it outside,
and how it ends. -/
structure Result (Key Value Event : Type*) where
  current : Key → Option Value
  events : List Event
  outcome : Outcome

structure Policy (Key Value Event : Type*) where
  name : String
  call : Phase → Context Key Value → Result Key Value Event
  /-- What `export` returns. -/
  exported : Key → Option Value

structure Chain (Key Value Event : Type*) where
  policies : List (Policy Key Value Event)
  initFailedPolicy : Option InitFailedPolicy

variable {Key Value Event : Type*}

/-- What the policies export, the first one in front. -/
def exportedBy (policies : List (Policy Key Value Event)) : Key → Option Value :=
  policies.foldr (fun policy exported => LinkedList.link policy.exported exported)
    LinkedList.emptyTable

def Chain.exported (self : Chain Key Value Event) : Key → Option Value := exportedBy self.policies

/-- What chained policies export is found in the first ones before the others. -/
theorem exportedBy_append (policies others : List (Policy Key Value Event)) :
    exportedBy (policies ++ others) =
      LinkedList.link (exportedBy policies) (exportedBy others) := by
  induction policies with
  | nil => rfl
  | cons policy policies ih =>
      change LinkedList.link policy.exported (exportedBy (policies ++ others)) = _
      rw [ih, ← LinkedList.link_assoc]
      rfl

section Calls

variable (policyErrorCallback : Context Key Value → Option ErrorCallback)

/-- What becomes of an error. -/
def report (context : Context Key Value) (name message : String) : Outcome :=
  match PolicyChain.endsRequest policyErrorCallback context name message with
  | some response => .exited response
  | none => .returned

/-- One round of the loop of `call_chain`, unless the request was ended. -/
def callPolicy (phase : Phase) (next : Key → Option Value) (before : Result Key Value Event)
    (policy : Policy Key Value Event) : Result Key Value Event :=
  match before.outcome with
  | .returned =>
      let result := policy.call phase { current := before.current, next }
      { current := result.current
        events := before.events ++ result.events
        outcome :=
          match result.outcome with
          | .raised message =>
              report policyErrorCallback { current := result.current, next } policy.name message
          | outcome => outcome }
  | _ => before

/-- What `call_chain` does first when a policy of the chain could not be loaded. -/
def Chain.start (self : Chain Key Value Event) (context : Context Key Value) :
    Result Key Value Event :=
  { current := context.current
    events := []
    outcome :=
      match self.initFailedPolicy with
      | some failed => report policyErrorCallback context failed.name failed.err
      | none => .returned }

/-- `call_chain` -/
def Chain.call (self : Chain Key Value Event) (phase : Phase) (context : Context Key Value) :
    Result Key Value Event :=
  self.policies.foldl (callPolicy policyErrorCallback phase context.next)
    (self.start policyErrorCallback context)

/-- The conditional policy exports what its chain exports. -/
def conditional (condition : Phase → Context Key Value → Bool) (chain : Chain Key Value Event) :
    Policy Key Value Event where
  name := "Conditional policy"
  call := fun phase context =>
    if condition phase context then
      -- What the chain returns is dropped. The exit of a request is not returned.
      chain.call policyErrorCallback phase context
    else { current := context.current, events := [], outcome := .returned }
  exported := chain.exported

/-- The policy that calls the chain which it finds in the context. The rewrite phase stores the
chain in the context first, and links the context twice. -/
def localChain (buildChain : Context Key Value → Context Key Value)
    (findPolicyChain : Context Key Value → Chain Key Value Event) : Policy Key Value Event where
  name := "Local Policy Chain"
  call := fun phase context =>
    if phase = .rewrite then
      let built := buildChain context
      let merged := built.merge (findPolicyChain built).exported
      let chain := findPolicyChain merged
      chain.call policyErrorCallback phase (merged.merge chain.exported)
    else
      let chain := findPolicyChain context
      chain.call policyErrorCallback phase (context.merge chain.exported)
  exported := LinkedList.emptyTable

end Calls

section Access

variable {policyErrorCallback : Context Key Value → Option ErrorCallback}

/-- The access phase of a policy, without what is seen of it outside. -/
def Policy.toAccess (policy : Policy Key Value Event) : Apicast.Policy (Context Key Value) where
  name := policy.name
  access := fun context =>
    let result := policy.call .access context
    ({ context with current := result.current }, result.outcome)

/-- How the access phase of a chain ends. -/
def Result.toExcept (next : Key → Option Value) (result : Result Key Value Event) :
    Except ExitResponse (Context Key Value) :=
  match result.outcome with
  | .exited response => .error response
  | _ => .ok { current := result.current, next }

/-- An error does not leave the chain. -/
def Result.Caught (result : Result Key Value Event) : Prop :=
  ∀ message, result.outcome ≠ .raised message

theorem report_ne_raised (context : Context Key Value) (name message other : String) :
    report policyErrorCallback context name message ≠ .raised other := by
  unfold report
  split <;> nofun

/-- An error that the executor reports is the one that the access phase ends with. -/
theorem toExcept_report (context : Context Key Value) (events : List Event)
    (name message : String) :
    Result.toExcept context.next
        { current := context.current, events
          outcome := report policyErrorCallback context name message } =
      PolicyChain.reportError policyErrorCallback context name message := by
  unfold Result.toExcept report PolicyChain.reportError
  cases PolicyChain.endsRequest policyErrorCallback context name message <;> rfl

theorem caught_callPolicy {phase : Phase} {next : Key → Option Value}
    {before : Result Key Value Event} (caught : before.Caught)
    (policy : Policy Key Value Event) :
    (callPolicy policyErrorCallback phase next before policy).Caught := by
  intro message
  unfold callPolicy
  split
  · dsimp only
    split
    · exact report_ne_raised _ _ _ _
    · rename_i unraised
      exact unraised message
  · exact caught message

theorem toExcept_callPolicy {next : Key → Option Value} {before : Result Key Value Event}
    (caught : before.Caught) (policy : Policy Key Value Event) :
    (callPolicy policyErrorCallback .access next before policy).toExcept next =
      before.toExcept next >>= fun context =>
        PolicyChain.callPolicy policyErrorCallback context policy.toAccess := by
  obtain ⟨current, events, outcome⟩ := before
  cases outcome with
  | raised message => exact absurd rfl (caught message)
  | exited response => rfl
  | returned =>
      change _ = PolicyChain.callPolicy policyErrorCallback { current, next } policy.toAccess
      unfold callPolicy PolicyChain.callPolicy Policy.toAccess
      dsimp only
      cases (policy.call .access { current, next }).outcome with
      | returned => rfl
      | exited response => rfl
      | raised message => exact toExcept_report { current := _, next } _ policy.name message

/-- The access phase of a chain is the one of the chain of access phases. -/
theorem toExcept_call (chain : Chain Key Value Event) (context : Context Key Value) :
    (chain.call policyErrorCallback .access context).toExcept context.next =
      PolicyChain.callChain policyErrorCallback
        { policies := chain.policies.map Policy.toAccess
          initFailedPolicy := chain.initFailedPolicy } context := by
  have rounds (policies : List (Policy Key Value Event)) (before : Result Key Value Event)
      (caught : before.Caught) :
      (policies.foldl (callPolicy policyErrorCallback .access context.next) before).toExcept
          context.next =
        before.toExcept context.next >>= fun context =>
          (policies.map Policy.toAccess).foldlM (PolicyChain.callPolicy policyErrorCallback)
            context := by
    induction policies generalizing before with
    | nil => exact (bind_pure _).symm
    | cons policy policies ih =>
        rw [List.foldl_cons, ih _ (caught_callPolicy caught policy), toExcept_callPolicy caught,
          bind_assoc]
        rfl
  have started : (chain.start policyErrorCallback context).Caught := by
    intro message
    unfold Chain.start
    dsimp only
    split
    · exact report_ne_raised _ _ _ _
    · nofun
  unfold Chain.call PolicyChain.callChain
  rw [rounds _ _ started]
  apply congrArg (· >>= _)
  unfold Chain.start PolicyChain.reportInitFailed
  cases chain.initFailedPolicy with
  | none => rfl
  | some failed => exact toExcept_report context [] failed.name failed.err

end Access

section Rounds

variable (policyErrorCallback : Context Key Value → Option ErrorCallback) (phase : Phase)

/-- The policies of a chain, one after the other. -/
def callAll (policies : List (Policy Key Value Event)) (context : Context Key Value) :
    Result Key Value Event :=
  policies.foldl (callPolicy policyErrorCallback phase context.next)
    { current := context.current, events := [], outcome := .returned }

/-- The result, seen after some events. -/
def Result.after (events : List Event) (result : Result Key Value Event) :
    Result Key Value Event :=
  { result with events := events ++ result.events }

variable {policyErrorCallback phase}

/-- Earlier events stay before those of a policy. -/
theorem callPolicy_after {next : Key → Option Value} (events : List Event)
    (result : Result Key Value Event) (policy : Policy Key Value Event) :
    callPolicy policyErrorCallback phase next (result.after events) policy =
      (callPolicy policyErrorCallback phase next result policy).after events := by
  obtain ⟨current, own, outcome⟩ := result
  cases outcome with
  | raised message => rfl
  | exited response => rfl
  | returned =>
      unfold callPolicy Result.after
      dsimp only
      rw [List.append_assoc]

/-- The first policy of a chain, and then the others with what it left. -/
theorem callAll_cons {policy : Policy Key Value Event} {context : Context Key Value}
    (policies : List (Policy Key Value Event))
    (returned : (callAll policyErrorCallback phase [policy] context).outcome = .returned) :
    callAll policyErrorCallback phase (policy :: policies) context =
      (callAll policyErrorCallback phase policies
          { context with current := (callAll policyErrorCallback phase [policy] context).current }
        ).after (callAll policyErrorCallback phase [policy] context).events := by
  have first : callAll policyErrorCallback phase [policy] context =
      Result.after (callAll policyErrorCallback phase [policy] context).events
        { current := (callAll policyErrorCallback phase [policy] context).current
          events := []
          outcome := .returned } := by
    unfold Result.after
    rw [← returned, List.append_nil]
  change policies.foldl _ (callAll policyErrorCallback phase [policy] context) = _
  refine (congrArg (policies.foldl _) first).trans ?_
  exact List.foldl_hom _ fun result policy => callPolicy_after _ result policy

/-- A policy alone in its chain. -/
theorem callAll_singleton {policy : Policy Key Value Event} {context : Context Key Value}
    (returned : (policy.call phase context).outcome = .returned) :
    callAll policyErrorCallback phase [policy] context = policy.call phase context := by
  unfold callAll
  rw [List.foldl_cons, List.foldl_nil]
  unfold callPolicy
  dsimp only
  rw [returned, List.nil_append]
  exact congrArg (Result.mk _ _) returned.symm

/-- A chain whose policies all started calls them one after the other. -/
theorem Chain.call_eq_callAll {chain : Chain Key Value Event} {context : Context Key Value}
    (loaded : (chain.start policyErrorCallback context).outcome = .returned) :
    chain.call policyErrorCallback phase context =
      callAll policyErrorCallback phase chain.policies context :=
  congrArg (chain.policies.foldl _) (congrArg (Result.mk _ _) loaded)

end Rounds

end Phases

end Apicast
