import Apicast.PolicyPhases

/-!
# A conditional policy whose condition is not met

A conditional policy runs no phase of its chain while its condition is not met. What its chain
exports is exported all the same, so the other policies find it in the context.
-/

namespace Apicast.Phases

open Foundation

variable {Key Value Event : Type*} (policyErrorCallback : Context Key Value → Option ErrorCallback)

/-- What the phases of a request leave in the context, and what is seen of each of them. -/
def process (chain : Chain Key Value Event) :
    List Phase → Context Key Value → Context Key Value × List (List Event × Outcome)
  | [], context => (context, [])
  | phase :: phases, context =>
      let result := chain.call policyErrorCallback phase (context.merge chain.exported)
      let rest := process chain phases { context with current := result.current }
      (rest.1, (result.events, result.outcome) :: rest.2)

/-- Two chains process a request in the same way: the same is seen of each phase, and every lookup
in the context finds the same. -/
def SameRequest (chain other : Chain Key Value Event) (phases : List Phase)
    (context : Context Key Value) : Prop :=
  (process policyErrorCallback chain phases context).2 =
      (process policyErrorCallback other phases context).2 ∧
    ∀ key, ((process policyErrorCallback chain phases context).1.merge chain.exported).get key =
      ((process policyErrorCallback other phases context).1.merge other.exported).get key

/-- The context of the next policy. -/
def Result.context (result : Result Key Value Event) (next : Key → Option Value) :
    Context Key Value :=
  { current := result.current, next }

section Placed

variable (before after : List (Policy Key Value Event)) (failed : Option InitFailedPolicy)
  (condition : Phase → Context Key Value → Bool) (inner : Chain Key Value Event)

/-- The outer chain. -/
def outer : Chain Key Value Event := { policies := before ++ after, initFailedPolicy := failed }

/-- The outer chain with a conditional policy in it. -/
def placed : Chain Key Value Event :=
  { policies := before ++ conditional policyErrorCallback condition inner :: after
    initFailedPolicy := failed }

/-- What the policies before the conditional policy leave. -/
def reached (phase : Phase) (context : Context Key Value) : Result Key Value Event :=
  before.foldl (callPolicy policyErrorCallback phase context.next)
    ((outer before after failed).start policyErrorCallback context)

/-- The condition evaluates to false in every phase of a request. -/
def Unmet : List Phase → Context Key Value → Prop
  | [], _ => True
  | phase :: phases, context =>
      let chain := placed policyErrorCallback before after failed condition inner
      let merged := context.merge chain.exported
      let result := reached policyErrorCallback before after failed phase merged
      (result.outcome = .returned → condition phase (result.context merged.next) = false) ∧
        Unmet phases
          { context with current := (chain.call policyErrorCallback phase merged).current }

variable {policyErrorCallback before after failed condition inner}

/-- A conditional policy whose condition is not met leaves everything as it was. -/
theorem callPolicy_unmet {phase : Phase} {next : Key → Option Value}
    {result : Result Key Value Event}
    (unmet : result.outcome = .returned → condition phase (result.context next) = false) :
    callPolicy policyErrorCallback phase next result
      (conditional policyErrorCallback condition inner) = result := by
  obtain ⟨current, events, outcome⟩ := result
  cases outcome with
  | raised message => rfl
  | exited response => rfl
  | returned =>
      have skipped := Bool.eq_false_iff.mp (unmet rfl)
      unfold callPolicy conditional Result.context at *
      dsimp only at skipped ⊢
      rw [if_neg skipped, List.append_nil]

/-- A phase of the chain with the conditional policy is one of the chain without it. -/
theorem call_placed {phase : Phase} {context : Context Key Value}
    (unmet : (reached policyErrorCallback before after failed phase context).outcome = .returned →
      condition phase ((reached policyErrorCallback before after failed phase context).context
        context.next) = false) :
    (placed policyErrorCallback before after failed condition inner).call policyErrorCallback
        phase context =
      (outer before after failed).call policyErrorCallback phase context := by
  unfold Chain.call
  change (before ++ _ :: after).foldl _ _ = (before ++ after).foldl _ _
  rw [List.foldl_append, List.foldl_cons, List.foldl_append]
  exact congrArg (after.foldl _) (callPolicy_unmet unmet)

theorem exported_placed :
    (placed policyErrorCallback before after failed condition inner).exported =
      LinkedList.link (exportedBy before) (LinkedList.link inner.exported (exportedBy after)) :=
  exportedBy_append _ _

theorem exported_outer :
    (outer before after failed).exported =
      LinkedList.link (exportedBy before) (exportedBy after) :=
  exportedBy_append _ _

/-- What the chain of the conditional policy exports is hidden by a policy before it, or exported
by the policies after it as well. -/
def Hidden (before after : List (Policy Key Value Event)) (inner : Chain Key Value Event) : Prop :=
  ∀ key value, exportedBy before key = none → inner.exported key = some value →
    exportedBy after key = some value

theorem hidden_iff : Hidden before after inner ↔
    (placed policyErrorCallback before after failed condition inner).exported =
      (outer before after failed).exported := by
  rw [exported_placed, exported_outer]
  constructor
  · intro hidden
    funext key
    unfold LinkedList.link
    cases first : exportedBy before key with
    | some value => rfl
    | none =>
        rw [Option.none_or, Option.none_or]
        cases own : inner.exported key with
        | none => rfl
        | some value => rw [Option.some_or, hidden key value first own]
  · intro same key value first own
    have found := congrFun same key
    unfold LinkedList.link at found
    rw [first, own, Option.none_or, Option.none_or, Option.some_or] at found
    exact found.symm

theorem process_placed (hidden : Hidden before after inner) {phases : List Phase}
    {context : Context Key Value}
    (unmet : Unmet policyErrorCallback before after failed condition inner phases context) :
    process policyErrorCallback (placed policyErrorCallback before after failed condition inner)
        phases context =
      process policyErrorCallback (outer before after failed) phases context := by
  have exports : (placed policyErrorCallback before after failed condition inner).exported =
      (outer before after failed).exported := hidden_iff.mp hidden
  induction phases generalizing context with
  | nil => rfl
  | cons phase phases ih =>
      obtain ⟨now, later⟩ := unmet
      have same : (placed policyErrorCallback before after failed condition inner).call _ _ _ = _ :=
        call_placed now
      have rest := ih later
      unfold process
      dsimp only
      rw [rest, same, exports]

/-- A conditional policy is transparent to every request for which its condition evaluates to
false in every phase exactly when what its chain exports is hidden. -/
theorem transparent_iff (policyErrorCallback : Context Key Value → Option ErrorCallback)
    (before after : List (Policy Key Value Event)) (failed : Option InitFailedPolicy)
    (condition : Phase → Context Key Value → Bool) (inner : Chain Key Value Event) :
    (∀ phases context,
      Unmet policyErrorCallback before after failed condition inner phases context →
        SameRequest policyErrorCallback
          (placed policyErrorCallback before after failed condition inner)
          (outer before after failed) phases context) ↔
      Hidden before after inner := by
  constructor
  · intro transparent
    have lookups := (transparent [] ⟨LinkedList.emptyTable, LinkedList.emptyTable⟩ trivial).2
    apply hidden_iff.mpr
    funext key
    exact lookups key
  · intro hidden phases context unmet
    unfold SameRequest
    rw [process_placed hidden unmet, hidden_iff.mp hidden]
    exact ⟨rfl, fun _ => rfl⟩

end Placed

/-- A policy that exports its cache handler. -/
def caching : Policy String String Unit where
  name := "Caching policy"
  call := fun _ context => { current := context.current, events := [], outcome := .returned }
  exported := fun key => if key = "cache_handler" then some "strict" else none

/-- The cache handler of a policy whose condition is never met is found in the context. -/
theorem not_transparent_caching :
    ¬ ∀ phases context,
      Unmet (fun _ => none) [] [] none (fun _ _ => false) ⟨[caching], none⟩ phases context →
        SameRequest (fun _ => none)
          (placed (fun _ => none) [] [] none (fun _ _ => false) ⟨[caching], none⟩)
          (outer [] [] none) phases context := by
  intro transparent
  have lookups := (transparent [] ⟨LinkedList.emptyTable, LinkedList.emptyTable⟩ trivial).2
  exact absurd (lookups "cache_handler") (by decide)

end Apicast.Phases
