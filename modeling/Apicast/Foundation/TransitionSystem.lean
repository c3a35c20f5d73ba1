import Mathlib.Logic.Function.Basic
import Mathlib.Data.List.Basic

/-!
# Labelled machines, their runs and their invariants

A machine is an executable partial step function on states and actions. The
actions carry every nondeterministic choice, so that one list of actions is one
interleaving. Reachability is relative to a condition on the steps taken: with
the trivial condition it is plain reachability, with another one it is
reachability along the runs all of whose steps meet the condition.
-/

namespace Foundation

/-- An initial state and a step function that refuses the actions which are not
enabled. -/
structure Machine (State Action : Type*) where
  initial : State
  next : State → Action → Option State

namespace Machine

variable {State Action : Type*} (machine : Machine State Action)

/-- Execute a list of actions, refusing it as soon as one action is refused. -/
def run (machine : Machine State Action) : State → List Action → Option State
  | state, [] => some state
  | state, action :: actions => (machine.next state action).bind fun after =>
      machine.run after actions

/-- The states reached by steps that all meet `allowed`. -/
inductive ReachableWithin (allowed : State → Action → Prop) : State → Prop
  | initial : ReachableWithin allowed machine.initial
  | step {before after : State} {action : Action} :
      ReachableWithin allowed before → allowed before action →
      machine.next before action = some after → ReachableWithin allowed after

/-- The states reached by any steps at all. -/
def Reachable : State → Prop := machine.ReachableWithin fun _ _ => True

/-- A predicate that holds at first and that every allowed step keeps. -/
structure InvariantWithin (allowed : State → Action → Prop) (holds : State → Prop) : Prop where
  initial : holds machine.initial
  step : ∀ before action after, holds before → allowed before action →
    machine.next before action = some after → holds after

variable {machine} {allowed : State → Action → Prop} {holds : State → Prop}

/-- An enabled action starts the rest of a run. -/
theorem run_cons {before after : State} {action : Action} {actions : List Action}
    (stepped : machine.next before action = some after) :
    machine.run before (action :: actions) = machine.run after actions := by
  change (machine.next before action).bind _ = _
  rw [stepped, Option.bind_some]

/-- A run of two parts passes the state between them. -/
theorem run_append (before : State) (first rest : List Action) :
    machine.run before (first ++ rest) =
      (machine.run before first).bind fun middle => machine.run middle rest := by
  induction first generalizing before with
  | nil => rfl
  | cons action first ih =>
      change (machine.next before action).bind _ = ((machine.next before action).bind _).bind _
      cases machine.next before action with
      | none => rfl
      | some after => exact ih after

/-- An invariant holds wherever the allowed steps lead. -/
theorem InvariantWithin.of_reachable (invariant : machine.InvariantWithin allowed holds)
    {state : State} (reachable : machine.ReachableWithin allowed state) : holds state := by
  induction reachable with
  | initial => exact invariant.initial
  | step _ permitted stepped ih => exact invariant.step _ _ _ ih permitted stepped

/-- One step extends an unrestricted run. -/
theorem Reachable.next {before after : State} {action : Action}
    (reachable : machine.Reachable before) (stepped : machine.next before action = some after) :
    machine.Reachable after :=
  .step reachable trivial stepped

/-- Executing actions from a reachable state leads to a reachable state. -/
theorem Reachable.run {before after : State} {actions : List Action}
    (reachable : machine.Reachable before) (executed : machine.run before actions = some after) :
    machine.Reachable after := by
  induction actions generalizing before with
  | nil =>
      cases executed
      exact reachable
  | cons action actions ih =>
      obtain ⟨middle, stepped, rest⟩ := Option.bind_eq_some_iff.mp executed
      exact ih (reachable.next stepped) rest

/-- One more action is executed after a run. -/
theorem run_concat {before middle after : State} {past : List Action} {action : Action}
    (executed : machine.run before past = some middle)
    (stepped : machine.next middle action = some after) :
    machine.run before (past ++ [action]) = some after := by
  induction past generalizing before with
  | nil =>
      cases executed
      exact run_cons stepped
  | cons first past ih =>
      obtain ⟨next, start, rest⟩ := Option.bind_eq_some_iff.mp executed
      rw [List.cons_append, run_cons start]
      exact ih rest

/-- What is recorded of the actions taken so far is recorded of all actions of a run, if every
step adds its action. -/
theorem run_records {records : List Action → State → Prop} {before after : State}
    {past actions : List Action} (start : records past before)
    (step : ∀ past state action next, records past state →
      machine.next state action = some next → records (past ++ [action]) next)
    (executed : machine.run before actions = some after) : records (past ++ actions) after := by
  induction actions generalizing past before with
  | nil =>
      cases executed
      rw [List.append_nil]
      exact start
  | cons action actions ih =>
      obtain ⟨middle, stepped, rest⟩ := Option.bind_eq_some_iff.mp executed
      have recorded := ih (step past before action middle start stepped) rest
      rwa [List.append_assoc, List.singleton_append] at recorded

/-- Execute a list of actions as long as every one of them is allowed. -/
def runWithin (machine : Machine State Action) (allowed : State → Action → Prop)
    [∀ state action, Decidable (allowed state action)] : State → List Action → Option State
  | state, [] => some state
  | state, action :: actions =>
      if allowed state action then
        (machine.next state action).bind fun after => machine.runWithin allowed after actions
      else none

/-- Executing allowed actions leads along a run of allowed steps. -/
theorem ReachableWithin.run [∀ state action, Decidable (allowed state action)]
    {before after : State} {actions : List Action}
    (reachable : machine.ReachableWithin allowed before)
    (executed : machine.runWithin allowed before actions = some after) :
    machine.ReachableWithin allowed after := by
  induction actions generalizing before with
  | nil =>
      cases executed
      exact reachable
  | cons action actions ih =>
      obtain ⟨permitted, rest⟩ := Option.ite_none_right_eq_some.mp executed
      obtain ⟨middle, stepped, rest⟩ := Option.bind_eq_some_iff.mp rest
      exact ih (.step reachable permitted stepped) rest

section Exact

variable {invariant : State → Prop}

/-- What holds only as long as every step is allowed does not hold again once it is lost. -/
theorem holds_of_run (kept : ∀ before action after, invariant before →
      machine.next before action = some after → invariant after)
    (exact : ∀ before action after, invariant before → machine.next before action = some after →
      (holds after ↔ holds before ∧ allowed before action))
    {before after : State} {actions : List Action} (start : invariant before)
    (executed : machine.run before actions = some after) (held : holds after) : holds before := by
  induction actions generalizing before with
  | nil =>
      cases executed
      exact held
  | cons action actions ih =>
      obtain ⟨middle, stepped, rest⟩ := Option.bind_eq_some_iff.mp executed
      have middleHolds := ih (kept _ _ _ start stepped) rest
      exact ((exact _ _ _ start stepped).mp middleHolds).1

/-- When each step keeps a property exactly if it is allowed, the property holds after a run
exactly if all steps of the run are allowed. -/
theorem holds_iff_runWithin [∀ state action, Decidable (allowed state action)]
    (kept : ∀ before action after, invariant before → machine.next before action = some after →
      invariant after)
    (exact : ∀ before action after, invariant before → machine.next before action = some after →
      (holds after ↔ holds before ∧ allowed before action))
    {before after : State} {actions : List Action} (start : invariant before)
    (held : holds before) (executed : machine.run before actions = some after) :
    holds after ↔ machine.runWithin allowed before actions = some after := by
  induction actions generalizing before with
  | nil =>
      cases executed
      exact iff_of_true held rfl
  | cons action actions ih =>
      obtain ⟨middle, stepped, rest⟩ := Option.bind_eq_some_iff.mp executed
      have next := kept _ _ _ start stepped
      have unfolded : machine.runWithin allowed before (action :: actions) =
          if allowed before action then machine.runWithin allowed middle actions else none := by
        rw [runWithin, stepped, Option.bind_some]
      rw [unfolded]
      by_cases permitted : allowed before action
      · rw [if_pos permitted]
        exact ih next ((exact _ _ _ start stepped).mpr ⟨held, permitted⟩) rest
      · rw [if_neg permitted]
        refine iff_of_false ?_ nofun
        intro afterHolds
        have middleHolds := holds_of_run kept exact next rest afterHolds
        exact permitted ((exact _ _ _ start stepped).mp middleHolds).2

end Exact

section Always

variable [∀ state action, Decidable (allowed state action)]

/-- A run of allowed steps is a run. -/
theorem run_of_runWithin {before after : State} {actions : List Action}
    (executed : machine.runWithin allowed before actions = some after) :
    machine.run before actions = some after := by
  induction actions generalizing before with
  | nil => exact executed
  | cons action actions ih =>
      obtain ⟨_, rest⟩ := Option.ite_none_right_eq_some.mp executed
      obtain ⟨middle, stepped, rest⟩ := Option.bind_eq_some_iff.mp rest
      exact (run_cons stepped).trans (ih rest)

/-- When allowed steps keep an invariant and no other step shows a property that the invariant
implies, the property is shown all along a run exactly if all steps of the run are allowed. -/
theorem shown_iff_runWithin {shows : State → Prop} {before after : State} {actions : List Action}
    (shown : ∀ state, holds state → shows state)
    (exact : ∀ before action after, holds before → machine.next before action = some after →
      (allowed before action → holds after) ∧ (shows after → allowed before action))
    (start : holds before) (executed : machine.run before actions = some after) :
    (∀ count state, machine.run before (actions.take count) = some state → shows state) ↔
      machine.runWithin allowed before actions = some after := by
  induction actions generalizing before with
  | nil =>
      cases executed
      refine iff_of_true ?_ rfl
      intro count state reached
      rw [List.take_nil] at reached
      cases reached
      exact shown _ start
  | cons action actions ih =>
      obtain ⟨middle, stepped, rest⟩ := Option.bind_eq_some_iff.mp executed
      obtain ⟨kept, permitting⟩ := exact _ _ _ start stepped
      have unfolded : machine.runWithin allowed before (action :: actions) =
          if allowed before action then machine.runWithin allowed middle actions else none := by
        rw [runWithin, stepped, Option.bind_some]
      rw [unfolded]
      by_cases permitted : allowed before action
      · rw [if_pos permitted, ← ih (kept permitted) rest]
        constructor
        · intro always count state reached
          apply always (count + 1)
          rw [List.take_succ_cons, run_cons stepped]
          exact reached
        · intro always count state reached
          cases count with
          | zero =>
              rw [List.take_zero] at reached
              cases reached
              exact shown _ start
          | succ count =>
              rw [List.take_succ_cons, run_cons stepped] at reached
              exact always count state reached
      · rw [if_neg permitted]
        refine iff_of_false ?_ nofun
        intro always
        have once : machine.run before ((action :: actions).take 1) = some middle := by
          rw [List.take_succ_cons, List.take_zero, run_cons stepped]
          rfl
        exact permitted (permitting (always 1 middle once))

/-- When each step from a state where a property holds keeps it exactly if it is allowed, the
property holds all along a run exactly if all steps of the run are allowed. -/
theorem always_iff_runWithin {before after : State} {actions : List Action}
    (exact : ∀ before action after, holds before → machine.next before action = some after →
      (holds after ↔ allowed before action))
    (start : holds before) (executed : machine.run before actions = some after) :
    (∀ count state, machine.run before (actions.take count) = some state → holds state) ↔
      machine.runWithin allowed before actions = some after :=
  shown_iff_runWithin (fun _ held => held)
    (fun before action after held stepped =>
      ⟨(exact before action after held stepped).mpr, (exact before action after held stepped).mp⟩)
    start executed

end Always

section Copies

variable {Index : Type*} [DecidableEq Index]

/-- Copies of a machine that move independently, each action being one of one copy. -/
def copies (machine : Machine State Action) : Machine (Index → State) (Index × Action) where
  initial := fun _ => machine.initial
  next := fun states move =>
    (machine.next (states move.1) move.2).map (Function.update states move.1)

end Copies

/-- Every allowed step of the concrete machine is mapped to one abstract step or
to none. -/
structure Simulation {AbstractState AbstractAction : Type*} (machine : Machine State Action)
    (allowed : State → Action → Prop) (abstract : Machine AbstractState AbstractAction)
    (view : State → AbstractState) : Prop where
  initial : view machine.initial = abstract.initial
  step : ∀ before action after, machine.ReachableWithin allowed before → allowed before action →
    machine.next before action = some after →
      view after = view before ∨
        ∃ abstractAction, abstract.next (view before) abstractAction = some (view after)

/-- A simulated machine only shows reachable states of the abstract one. -/
theorem Simulation.reachable {AbstractState AbstractAction : Type*}
    {abstract : Machine AbstractState AbstractAction} {view : State → AbstractState}
    (simulation : Simulation machine allowed abstract view) {state : State}
    (reached : machine.ReachableWithin allowed state) : abstract.Reachable (view state) := by
  induction reached with
  | initial =>
      rw [simulation.initial]
      exact .initial
  | step prior permitted stepped ih =>
      rcases simulation.step _ _ _ prior permitted stepped with same | ⟨action, moved⟩
      · rw [same]
        exact ih
      · exact ih.next moved

end Machine

end Foundation
