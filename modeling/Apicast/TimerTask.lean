import Apicast.Foundation.TransitionSystem

/-!
# Cancelling a periodic task

A task runs a function, schedules a timer for its next run, and stops when it is not active any
more. A task that is cancelled can be marked to run one more time. The mark is taken away at the end
of any run, also of one that was in progress when the task was cancelled.
-/

namespace Apicast.TimerTask

open Foundation

/-- What the tables of the module say of an id, and the timers and runs of its task. -/
structure Task where
  active : Bool
  lastOne : Bool
  timers : Nat
  running : Nat
  /-- The number of times the function of the task started. -/
  started : Nat
  deriving DecidableEq

inductive Action
  | execute (runNow : Bool)
  | fire
  /-- The function returns or raises an error. -/
  | finish (failed : Bool)
  | cancel (runOneMore : Bool)
  deriving DecidableEq

namespace Task

def new : Task := { active := true, lastOne := false, timers := 0, running := 0, started := 0 }

def scheduleNext (task : Task) : Task := { task with timers := task.timers + 1 }

/-- The end of `run_periodic`, after the function. -/
def endPeriodic (task : Task) : Task :=
  if task.lastOne then { task with lastOne := false } else task.scheduleNext

def runPeriodic (runNow : Bool) (task : Task) : Task :=
  if !task.active && !task.lastOne then task
  else if runNow then { task with running := task.running + 1, started := task.started + 1 }
  else task.endPeriodic

def cancel (runOneMore : Bool) (task : Task) : Task :=
  { task with lastOne := task.lastOne || runOneMore, active := false }

/-- The bound on what is left to happen after the task is cancelled. -/
def remaining (task : Task) : Nat :=
  if task.lastOne then 3 * task.timers + 2 * task.running + 1
  else task.timers + 2 * task.running

end Task

/-- An error of the function is caught and logged, so it does not change what follows. -/
def next (task : Task) : Action → Option Task
  | .execute runNow => some (task.runPeriodic runNow)
  | .fire =>
      if 0 < task.timers then
        some ({ task with timers := task.timers - 1 }.runPeriodic true)
      else none
  | .finish _ =>
      if 0 < task.running then some { task with running := task.running - 1 }.endPeriodic else none
  | .cancel runOneMore => some (task.cancel runOneMore)

def machine : Machine Task Action where
  initial := .new
  next := next

def Action.isExecute : Action → Bool
  | .execute _ => true
  | _ => false

def Action.isCancel : Action → Bool
  | .cancel _ => true
  | _ => false

section Steps

variable {task after : Task} {action : Action}

theorem next_fire : next task .fire = some after ↔
    0 < task.timers ∧ { task with timers := task.timers - 1 }.runPeriodic true = after := by
  simp only [next, Option.ite_none_right_eq_some, Option.some.injEq]

theorem next_finish (failed : Bool) : next task (.finish failed) = some after ↔
    0 < task.running ∧ { task with running := task.running - 1 }.endPeriodic = after := by
  simp only [next, Option.ite_none_right_eq_some, Option.some.injEq]

/-- The task is registered and has not been cancelled. -/
structure Task.Uncancelled (task : Task) : Prop where
  active : task.active = true
  unmarked : task.lastOne = false

/-- The task was cancelled and is not to run any more. -/
structure Task.Ended (task : Task) : Prop where
  inactive : task.active = false
  unmarked : task.lastOne = false

/-- The task was cancelled and is to run one more time. -/
structure Task.Marked (task : Task) : Prop where
  inactive : task.active = false
  marked : task.lastOne = true

/-- Before it is cancelled, a task has one timer or run for each time it was executed. -/
theorem Task.Uncancelled.next (uncancelled : task.Uncancelled) (alone : action.isCancel = false)
    (stepped : next task action = some after) :
    after.Uncancelled ∧ after.timers + after.running =
      task.timers + task.running + if action.isExecute then 1 else 0 := by
  obtain ⟨active, lastOne, timers, running, started⟩ := task
  obtain ⟨rfl, rfl⟩ := uncancelled
  cases action with
  | execute runNow =>
      cases Option.some.inj stepped
      cases runNow with
      | true => exact ⟨⟨rfl, rfl⟩, rfl⟩
      | false => exact ⟨⟨rfl, rfl⟩, Nat.add_right_comm timers 1 running⟩
  | fire =>
      obtain ⟨pending, rfl⟩ := next_fire.mp stepped
      refine ⟨⟨rfl, rfl⟩, ?_⟩
      change timers - 1 + (running + 1) = timers + running + 0
      change 0 < timers at pending
      omega
  | finish failed =>
      obtain ⟨busy, rfl⟩ := (next_finish failed).mp stepped
      refine ⟨⟨rfl, rfl⟩, ?_⟩
      change timers + 1 + (running - 1) = timers + running + 0
      change 0 < running at busy
      omega
  | cancel runOneMore => cases alone

/-- A task that has ended does not run. -/
theorem Task.Ended.next (ended : task.Ended) (alone : action.isCancel = false)
    (stepped : next task action = some after) : after.Ended ∧ after.started = task.started := by
  obtain ⟨active, lastOne, timers, running, started⟩ := task
  obtain ⟨rfl, rfl⟩ := ended
  cases action with
  | execute runNow =>
      cases Option.some.inj stepped
      exact ⟨⟨rfl, rfl⟩, rfl⟩
  | fire =>
      obtain ⟨_, rfl⟩ := next_fire.mp stepped
      exact ⟨⟨rfl, rfl⟩, rfl⟩
  | finish failed =>
      obtain ⟨_, rfl⟩ := (next_finish failed).mp stepped
      exact ⟨⟨rfl, rfl⟩, rfl⟩
  | cancel runOneMore => cases alone

/-- A timer of a marked task runs its function once more. -/
theorem Task.Marked.fire (marked : task.Marked) (stepped : next task .fire = some after) :
    after.Marked ∧ 0 < task.timers ∧ after.timers = task.timers - 1 ∧
      after.running = task.running + 1 ∧ after.started = task.started + 1 := by
  obtain ⟨active, lastOne, timers, running, started⟩ := task
  obtain ⟨rfl, rfl⟩ := marked
  obtain ⟨pending, rfl⟩ := next_fire.mp stepped
  exact ⟨⟨rfl, rfl⟩, pending, rfl, rfl, rfl⟩

/-- The end of a run takes the mark away and schedules nothing. -/
theorem Task.Marked.finish (failed : Bool) (marked : task.Marked)
    (stepped : TimerTask.next task (.finish failed) = some after) :
    after.Ended ∧ 0 < task.running ∧ after.timers = task.timers ∧
      after.running = task.running - 1 ∧ after.started = task.started := by
  obtain ⟨active, lastOne, timers, running, started⟩ := task
  obtain ⟨rfl, rfl⟩ := marked
  obtain ⟨busy, rfl⟩ := (next_finish failed).mp stepped
  exact ⟨⟨rfl, rfl⟩, busy, rfl, rfl, rfl⟩

end Steps

section Runs

variable {task final : Task} {actions : List Action}

theorem Task.Uncancelled.run (uncancelled : task.Uncancelled)
    (alone : ∀ action ∈ actions, action.isCancel = false)
    (executed : machine.run task actions = some final) :
    final.Uncancelled ∧ final.timers + final.running =
      task.timers + task.running + actions.countP Action.isExecute := by
  induction actions generalizing task with
  | nil =>
      cases executed
      exact ⟨uncancelled, rfl⟩
  | cons action actions ih =>
      obtain ⟨middle, stepped, rest⟩ := Option.bind_eq_some_iff.mp executed
      obtain ⟨kept, total⟩ := uncancelled.next (alone action List.mem_cons_self) stepped
      obtain ⟨last, others⟩ := ih kept
        (fun action member => alone action (List.mem_cons_of_mem _ member)) rest
      refine ⟨last, ?_⟩
      rw [others, total, List.countP_cons]
      omega

theorem Task.Ended.run (ended : task.Ended) (alone : ∀ action ∈ actions, action.isCancel = false)
    (executed : machine.run task actions = some final) :
    final.Ended ∧ final.started = task.started := by
  induction actions generalizing task with
  | nil =>
      cases executed
      exact ⟨ended, rfl⟩
  | cons action actions ih =>
      obtain ⟨middle, stepped, rest⟩ := Option.bind_eq_some_iff.mp executed
      obtain ⟨kept, same⟩ := ended.next (alone action List.mem_cons_self) stepped
      obtain ⟨last, others⟩ := ih kept
        (fun action member => alone action (List.mem_cons_of_mem _ member)) rest
      exact ⟨last, others.trans same⟩

end Runs

section Cancel

variable {before after : List Action} {runOneMore : Bool} {mid final : Task}

end Cancel

section Tasks

variable {Id : Type} [DecidableEq Id]

end Tasks

end Apicast.TimerTask
