import Apicast.Foundation.TransitionSystem

/-!
# The permits of a pool of timers

A post takes a permit of the pool and schedules its task on a timer, which gives the permit back
after the task, also if the task fails. When there is no permit the post falls back on a policy.
When the timer cannot be created the permit is lost, and the task does not run.
-/

namespace Apicast.TimerPool

open Foundation

inductive FallbackPolicy
  | abort
  | discard
  | callerRuns
  deriving DecidableEq

/-- Where the task of a post is. -/
inductive Status
  | scheduled
  | running
  | finished
  | callerRunning
  | callerReturned
  /-- The post raised an error or returned false. -/
  | rejected
  /-- There is no timer for the task, and the post returned an event nevertheless. -/
  | lost
  deriving DecidableEq

structure Post where
  status : Status
  /-- The number of times the task started. -/
  runs : Nat
  deriving DecidableEq

structure State where
  /-- The count of the semaphore. -/
  free : Nat
  posts : List Post
  deriving DecidableEq

inductive Action
  /-- A post, for which a timer can be created or not. -/
  | post (created : Bool)
  | fire (index : Nat)
  /-- The task returns or raises an error. -/
  | finish (index : Nat) (failed : Bool)
  | callerReturn (index : Nat) (failed : Bool)
  deriving DecidableEq

/-- `pool:wait(0)`. -/
def checkoutTimer (free : Nat) : Option Nat := if 0 < free then some (free - 1) else none

def checkinTimer (free : Nat) : Nat := free + 1

/-- The result of `ngx.timer.at` is not looked at. -/
def schedule (created : Bool) : Post :=
  { status := if created then .scheduled else .lost, runs := 0 }

def fallback : FallbackPolicy → Post
  | .abort => { status := .rejected, runs := 0 }
  | .discard => { status := .rejected, runs := 0 }
  | .callerRuns => { status := .callerRunning, runs := 1 }

def post (policy : FallbackPolicy) (created : Bool) (state : State) : State :=
  match checkoutTimer state.free with
  | some free => { free, posts := state.posts ++ [schedule created] }
  | none => { state with posts := state.posts ++ [fallback policy] }

def next (policy : FallbackPolicy) (state : State) : Action → Option State
  | .post created => some (post policy created state)
  | .fire index =>
      match state.posts[index]? with
      | some { status := .scheduled, runs } =>
          some { state with
            posts := state.posts.set index { status := .running, runs := runs + 1 } }
      | _ => none
  -- The worker catches the error of a task and logs it.
  | .finish index _ =>
      match state.posts[index]? with
      | some { status := .running, runs } =>
          some { free := checkinTimer state.free
                 posts := state.posts.set index { status := .finished, runs } }
      | _ => none
  | .callerReturn index _ =>
      match state.posts[index]? with
      | some { status := .callerRunning, runs } =>
          some { state with posts := state.posts.set index { status := .callerReturned, runs } }
      | _ => none

/-- A pool with a number of timers. -/
def pool (maxTimers : Nat) (policy : FallbackPolicy) : Machine State Action where
  initial := { free := maxTimers, posts := [] }
  next := next policy

section Permits

variable {maxTimers : Nat} {policy : FallbackPolicy} {state after : State} {action : Action}

/-- The task is scheduled or running on a timer. -/
def Post.onTimer (post : Post) : Bool := post.status = .scheduled || post.status = .running

/-- The task started once, unless it is still scheduled. -/
def Post.Once (post : Post) : Prop := post.runs = if post.status = .scheduled then 0 else 1

instance (post : Post) : Decidable post.Once :=
  inferInstanceAs (Decidable (post.runs = if post.status = .scheduled then 0 else 1))

/-- What is expected of a pool: no permit is lost or duplicated, and the tasks of all posts that
were not rejected run exactly once. -/
structure Conserved (maxTimers : Nat) (state : State) : Prop where
  permits : state.free + state.posts.countP Post.onTimer = maxTimers
  once : ∀ post ∈ state.posts, post.status ≠ .rejected → post.Once

/-- The timer of a post that takes a permit is created. -/
def TimerCreated (state : State) : Action → Prop
  | .post created => created = true ∨ state.free = 0
  | _ => True

instance (state : State) (action : Action) : Decidable (TimerCreated state action) := by
  cases action <;> unfold TimerCreated <;> infer_instance

theorem conserved_initial : Conserved maxTimers (pool maxTimers policy).initial where
  permits := rfl
  once := fun _ member => nomatch member

/-- A task moves on, and its post keeps its permit or gives it back. -/
theorem Conserved.set (conserved : Conserved maxTimers state) {index free : Nat} {old moved : Post}
    (found : state.posts[index]? = some old)
    (permits : free + moved.onTimer.toNat = state.free + old.onTimer.toNat)
    (once : moved.Once) : Conserved maxTimers { free, posts := state.posts.set index moved } where
  permits := by
    obtain ⟨short, rfl⟩ := List.getElem?_eq_some_iff.mp found
    have total := conserved.permits
    have counted : state.posts[index].onTimer.toNat ≤ state.posts.countP Post.onTimer := by
      cases held : state.posts[index].onTimer with
      | false => exact Nat.zero_le _
      | true => exact List.countP_pos_iff.mpr ⟨_, List.getElem_mem short, held⟩
    change free + (state.posts.set index moved).countP Post.onTimer = maxTimers
    rw [List.countP_set short]
    cases held : state.posts[index].onTimer <;> cases keeps : moved.onTimer <;>
      simp only [held, keeps, Bool.toNat_true, Bool.toNat_false, Bool.false_eq_true,
        ↓reduceIte] at permits counted ⊢ <;> omega
  once := by
    intro post member accepted
    rcases List.mem_or_eq_of_mem_set member with before | rfl
    · exact conserved.once post before accepted
    · exact once

/-- What a post does to the pool. -/
theorem conserved_post (conserved : Conserved maxTimers state) (created : Bool) :
    Conserved maxTimers (post policy created state) ↔ created = true ∨ state.free = 0 := by
  have total := conserved.permits
  unfold post checkoutTimer
  by_cases free : 0 < state.free
  · rw [if_pos free]
    dsimp only
    cases created with
    | true =>
        refine iff_of_true ⟨?_, ?_⟩ (.inl rfl)
        · change state.free - 1 + (state.posts ++ [schedule true]).countP Post.onTimer = maxTimers
          rw [List.countP_append, List.countP_singleton]
          change state.free - 1 + (state.posts.countP Post.onTimer + 1) = maxTimers
          omega
        · intro post member accepted
          rcases List.mem_append.mp member with before | last
          · exact conserved.once post before accepted
          · rw [List.mem_singleton.mp last]
            rfl
    | false =>
        refine iff_of_false ?_ fun either => either.elim Bool.noConfusion (Nat.ne_of_gt free)
        intro kept
        have lost := kept.permits
        rw [List.countP_append, List.countP_singleton] at lost
        change state.free - 1 + (state.posts.countP Post.onTimer + 0) = maxTimers at lost
        omega
  · rw [if_neg free]
    refine iff_of_true ⟨?_, ?_⟩ (.inr (Nat.eq_zero_of_not_pos free))
    · change state.free + (state.posts ++ [fallback policy]).countP Post.onTimer = maxTimers
      rw [List.countP_append, List.countP_singleton]
      cases policy <;> exact total
    · intro post member accepted
      rcases List.mem_append.mp member with before | last
      · exact conserved.once post before accepted
      · rw [List.mem_singleton.mp last] at accepted ⊢
        cases policy with
        | abort => exact absurd rfl accepted
        | discard => exact absurd rfl accepted
        | callerRuns => rfl

/-- A step keeps the pool as expected exactly when the timer that it needs is created. -/
theorem conserved_next (conserved : Conserved maxTimers state)
    (stepped : (pool maxTimers policy).next state action = some after) :
    Conserved maxTimers after ↔ TimerCreated state action := by
  have once {index : Nat} {old : Post} (found : state.posts[index]? = some old)
      (accepted : old.status ≠ .rejected) : old.Once :=
    conserved.once old (List.mem_of_getElem? found) accepted
  change next policy state action = some after at stepped
  cases action with
  | post created =>
      cases Option.some.inj stepped
      exact conserved_post conserved created
  | fire index =>
      refine iff_of_true ?_ trivial
      unfold next at stepped
      dsimp only at stepped
      split at stepped
      · rename_i runs found
        cases Option.some.inj stepped
        have unstarted : runs = 0 := once found nofun
        exact conserved.set found rfl (congrArg (· + 1) unstarted)
      · cases stepped
  | finish index failed =>
      refine iff_of_true ?_ trivial
      unfold next at stepped
      dsimp only at stepped
      split at stepped
      · rename_i runs found
        cases Option.some.inj stepped
        have started : runs = 1 := once found nofun
        exact conserved.set found rfl started
      · cases stepped
  | callerReturn index failed =>
      refine iff_of_true ?_ trivial
      unfold next at stepped
      dsimp only at stepped
      split at stepped
      · rename_i runs found
        cases Option.some.inj stepped
        have started : runs = 1 := once found nofun
        exact conserved.set found rfl started
      · cases stepped

/-- In every run of posts and timers, permits are conserved and tasks run exactly once in all of
its states exactly when a timer was created for every post that took a permit. -/
theorem conserved_iff (maxTimers : Nat) (policy : FallbackPolicy) {actions : List Action}
    {final : State}
    (executed : (pool maxTimers policy).run (pool maxTimers policy).initial actions = some final) :
    (∀ count state, (pool maxTimers policy).run (pool maxTimers policy).initial
        (actions.take count) = some state → Conserved maxTimers state) ↔
      (pool maxTimers policy).runWithin TimerCreated (pool maxTimers policy).initial actions =
        some final :=
  Machine.always_iff_runWithin (fun _ _ _ => conserved_next) conserved_initial executed

/-- A task that fails gives its permit back, and a rejected post takes none. -/
theorem conserved_failed :
    Conserved 1 { free := 1, posts := [⟨.finished, 1⟩, ⟨.rejected, 0⟩] } :=
  (@conserved_iff 1 .discard [.post true, .post false, .fire 0, .finish 0 true] _ rfl).mpr rfl
    4 _ rfl

/-- When the timer of a post cannot be created, its permit is lost. -/
theorem not_conserved_lost : ∃ state,
    (pool 1 .callerRuns).run (pool 1 .callerRuns).initial [.post false] = some state ∧
      ¬ Conserved 1 state :=
  ⟨_, rfl, fun conserved => absurd conserved.permits (by decide)⟩

end Permits

end Apicast.TimerPool
