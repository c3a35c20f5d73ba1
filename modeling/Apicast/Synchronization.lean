import Apicast.Foundation.Budget
import Apicast.Foundation.ThreadPool

/-!
# Synchronization of light threads

`resty/synchronization.lua`: a table of semaphores that are created when a key is
first used and dropped when a holder releases it. A light thread gives up control
while it waits and inside the callback, so the steps between these points are
atomic. A post hands the resource to a waiter in a later event; which waiter this
is, and when a wait times out, is left open.
-/

namespace Apicast

open Foundation

/-- Where a light thread is in `_M:run`. -/
inductive LightThread (Key : Type*)
  | idle
  | waiting (key : Key) (sema : Nat)
  | executing (key : Key) (sema : Nat)
  deriving DecidableEq, Repr

namespace LightThread

variable {Key : Type*}

/-- Whether the thread is queued at a semaphore. -/
def WaitsOn (sema : Nat) : LightThread Key → Prop
  | waiting _ other => other = sema
  | _ => False

/-- Whether the thread executes a callback for a key. -/
def Executes (key : Key) : LightThread Key → Prop
  | executing other _ => other = key
  | _ => False

/-- Whether the thread executes a callback under a semaphore. -/
def Holds (sema : Nat) : LightThread Key → Prop
  | executing _ other => other = sema
  | _ => False

/-- Whether the thread waits for or holds a semaphore as that of a key. -/
def On (key : Key) (sema : Nat) : LightThread Key → Prop
  | idle => False
  | waiting other otherSema => other = key ∧ otherSema = sema
  | executing other otherSema => other = key ∧ otherSema = sema

/-- The key of the call in progress. -/
def key : LightThread Key → Option Key
  | idle => none
  | waiting other _ | executing other _ => some other

/-- The key for whose semaphore the thread is queued. -/
def awaited : LightThread Key → Option Key
  | waiting other _ => some other
  | _ => none

theorem awaited_eq_some {thread : LightThread Key} {key : Key} :
    thread.awaited = some key ↔ ∃ sema, thread = .waiting key sema := by
  cases thread with
  | idle | executing other sema =>
      constructor
      · nofun
      · rintro ⟨_, equal⟩
        cases equal
  | waiting other sema =>
      constructor
      · intro same
        cases same
        exact ⟨sema, rfl⟩
      · rintro ⟨_, equal⟩
        cases equal
        rfl

theorem On.key_eq {key : Key} {sema : Nat} {thread : LightThread Key} (on : thread.On key sema) :
    thread.key = some key := by
  cases thread with
  | idle => exact on.elim
  | waiting other otherSema => exact congrArg some on.1
  | executing other otherSema => exact congrArg some on.1

instance (sema : Nat) : DecidablePred (WaitsOn sema : LightThread Key → Prop)
  | idle | executing _ _ => inferInstanceAs (Decidable False)
  | waiting _ other => inferInstanceAs (Decidable (other = sema))

instance [DecidableEq Key] (key : Key) : DecidablePred (Executes key : LightThread Key → Prop)
  | idle | waiting _ _ => inferInstanceAs (Decidable False)
  | executing other _ => inferInstanceAs (Decidable (other = key))

instance (sema : Nat) : DecidablePred (Holds sema : LightThread Key → Prop)
  | idle | waiting _ _ => inferInstanceAs (Decidable False)
  | executing _ other => inferInstanceAs (Decidable (other = sema))

section Places

variable (key other : Key) (sema otherSema : Nat)

@[simp] theorem executes_idle : ¬ (idle : LightThread Key).Executes key := id

@[simp] theorem executes_waiting : ¬ (waiting other sema).Executes key := id

@[simp] theorem executes_executing : (executing other sema).Executes key ↔ other = key := Iff.rfl

@[simp] theorem holds_idle : ¬ (idle : LightThread Key).Holds sema := id

@[simp] theorem holds_waiting : ¬ (waiting key otherSema).Holds sema := id

@[simp] theorem holds_executing : (executing key otherSema).Holds sema ↔ otherSema = sema :=
  Iff.rfl

@[simp] theorem on_waiting_self : (waiting key sema).On key sema := ⟨rfl, rfl⟩

@[simp] theorem on_executing_self : (executing key sema).On key sema := ⟨rfl, rfl⟩

end Places

end LightThread

/-- The table of semaphores, the resources of every semaphore created so far, and
the light threads. -/
structure Synchronization (Key Thread : Type*) where
  semaphores : Key → Option Nat
  resources : Nat → Nat
  created : Nat
  threads : Thread → LightThread Key

namespace Synchronization

inductive Action (Key Thread : Type*)
  | run (thread : Thread) (key : Key)
  /-- A waiter obtains a resource that was posted. -/
  | grant (thread : Thread)
  | timeout (thread : Thread)
  /-- The callback returns or raises an error. -/
  | finish (thread : Thread)
  deriving DecidableEq, Repr

variable {Key Thread : Type*} [DecidableEq Key] [DecidableEq Thread] [Fintype Thread]

/-- `_M:acquire`: a missing semaphore is created with `size` resources. -/
def acquire (size : Nat) (self : Synchronization Key Thread) (key : Key) :
    Synchronization Key Thread × Nat :=
  match self.semaphores key with
  | some sema => (self, sema)
  | none =>
      ({ self with
          semaphores := Function.update self.semaphores key (some self.created)
          resources := Function.update self.resources self.created size
          created := self.created + 1 }, self.created)

/-- `_M:release` -/
def release (self : Synchronization Key Thread) (key : Key) : Synchronization Key Thread :=
  { self with semaphores := Function.update self.semaphores key none }

/-- `sema:post` -/
def post (self : Synchronization Key Thread) (sema : Nat) : Synchronization Key Thread :=
  { self with resources := Function.update self.resources sema (self.resources sema + 1) }

def move (self : Synchronization Key Thread) (thread : Thread)
    (place : LightThread Key) : Synchronization Key Thread :=
  { self with threads := Function.update self.threads thread place }

/-- The thread takes a resource of the semaphore and enters the callback. -/
def enter (self : Synchronization Key Thread) (thread : Thread) (key : Key) (sema : Nat) :
    Synchronization Key Thread :=
  { self with resources := Function.update self.resources sema (self.resources sema - 1) }.move
    thread (.executing key sema)

/-- `sema:wait`: without a queue a resource is taken at once. -/
def wait (self : Synchronization Key Thread) (thread : Thread) (key : Key) (sema : Nat) :
    Synchronization Key Thread :=
  if (¬ ∃ other, (self.threads other).WaitsOn sema) ∧ 0 < self.resources sema then
    self.enter thread key sema
  else self.move thread (.waiting key sema)

/-- `_M:run` of any threads on a synchronization of the given size. -/
def machine (size : Nat) : Machine (Synchronization Key Thread) (Action Key Thread) where
  initial :=
    { semaphores := fun _ => none, resources := fun _ => 0, created := 0
      threads := fun _ => .idle }
  next self
    | .run thread key =>
        if self.threads thread = .idle then
          let (self, sema) := self.acquire size key
          some (self.wait thread key sema)
        else none
    | .grant thread =>
        match self.threads thread with
        | .waiting key sema =>
            if 0 < self.resources sema then some (self.enter thread key sema) else none
        | _ => none
    | .timeout thread =>
        match self.threads thread with
        | .waiting _ _ => some (self.move thread .idle)
        | _ => none
    | .finish thread =>
        match self.threads thread with
        | .executing key sema => some (((self.release key).post sema).move thread .idle)
        | _ => none

/-- A semaphore is in use for a key: new calls find it, or a thread is still on it. -/
def Uses (self : Synchronization Key Thread) (key : Key) (sema : Nat) : Prop :=
  self.semaphores key = some sema ∨ ∃ thread, (self.threads thread).On key sema

/-- The callbacks that execute under a semaphore. -/
def held (self : Synchronization Key Thread) (sema : Nat) : Nat :=
  ThreadPool.count (LightThread.Holds sema) self.threads

/-- The callbacks that execute for a key. -/
def executing (self : Synchronization Key Thread) (key : Key) : Nat :=
  ThreadPool.count (LightThread.Executes key) self.threads

/-- Semaphores belong to one key, and their resources are free or held. -/
structure Sound (size : Nat) (state : Synchronization Key Thread) : Prop where
  created : ∀ key sema, state.Uses key sema → sema < state.created
  named : ∀ key other sema, state.Uses key sema → state.Uses other sema → key = other
  permits : ∀ sema, sema < state.created → state.resources sema + state.held sema = size

/-- At most one semaphore is in use for each key. -/
def Single (self : Synchronization Key Thread) : Prop :=
  ∀ key sema other, self.Uses key sema → self.Uses key other → sema = other

/-- A call creates a semaphore for a key only while no thread is on an earlier one. -/
def CreatesAlone (self : Synchronization Key Thread) : Action Key Thread → Prop
  | .run _ key => self.semaphores key = none → ∀ thread, (self.threads thread).key ≠ some key
  | _ => True

instance (self : Synchronization Key Thread) (action : Action Key Thread) :
    Decidable (self.CreatesAlone action) :=
  match action with
  | .run _ key =>
      inferInstanceAs (Decidable (self.semaphores key = none →
        ∀ thread, (self.threads thread).key ≠ some key))
  | .grant _ | .timeout _ | .finish _ => inferInstanceAs (Decidable True)

section Step

variable {size : Nat} {before after : Synchronization Key Thread} {thread : Thread}
  {place : LightThread Key} {key : Key} {sema : Nat}

omit [DecidableEq Key] [Fintype Thread] in
/-- A step of one thread that only forgets table entries brings no semaphore into use
but the one it moves to. -/
theorem uses_of_moved (moved : after.threads = Function.update before.threads thread place)
    (table : ∀ key sema, after.semaphores key = some sema → before.semaphores key = some sema)
    (known : ∀ key sema, place.On key sema → before.Uses key sema)
    (uses : after.Uses key sema) : before.Uses key sema := by
  rcases uses with tabled | ⟨other, on⟩
  · exact .inl (table key sema tabled)
  · rw [moved] at on
    by_cases same : other = thread
    · subst same
      rw [Function.update_self] at on
      exact known key sema on
    · rw [Function.update_of_ne same] at on
      exact .inr ⟨other, on⟩

omit [DecidableEq Key] in
/-- A step of one thread that exchanges a resource for a place in the callback, or the
other way round, keeps the semaphores sound and single. -/
theorem Sound.of_moved (sound : before.Sound size) (created : after.created = before.created)
    (moved : after.threads = Function.update before.threads thread place)
    (table : ∀ key sema, after.semaphores key = some sema → before.semaphores key = some sema)
    (known : ∀ key sema, place.On key sema → before.Uses key sema)
    (exchanged : ∀ sema, after.resources sema + (if place.Holds sema then 1 else 0) =
      before.resources sema + if (before.threads thread).Holds sema then 1 else 0) :
    after.Sound size ∧ (before.Single → after.Single) := by
  have uses {key : Key} {sema : Nat} (used : after.Uses key sema) : before.Uses key sema :=
    uses_of_moved moved table known used
  refine ⟨⟨?_, ?_, ?_⟩, ?_⟩
  · intro key sema used
    rw [created]
    exact sound.created key sema (uses used)
  · intro key other sema used otherUsed
    exact sound.named key other sema (uses used) (uses otherUsed)
  · intro sema bounded
    rw [created] at bounded
    have permits := sound.permits sema bounded
    have exchange := exchanged sema
    have counted : after.held sema + (if (before.threads thread).Holds sema then 1 else 0) =
        before.held sema + if place.Holds sema then 1 else 0 := by
      unfold held
      rw [moved]
      exact ThreadPool.count_update before.threads thread place
    omega
  · intro single key sema other used otherUsed
    exact single key sema other (uses used) (uses otherUsed)

omit [DecidableEq Key] in
/-- Entering the callback exchanges a free resource. -/
theorem Sound.enter (sound : before.Sound size) (known : before.Uses key sema)
    (free : 0 < before.resources sema)
    (outside : ∀ sema, ¬ (before.threads thread).Holds sema) :
    (before.enter thread key sema).Sound size ∧
      (before.Single → (before.enter thread key sema).Single) := by
  refine sound.of_moved rfl rfl (fun _ _ tabled => tabled) ?_ ?_
  · rintro other otherSema ⟨rfl, rfl⟩
    exact known
  · intro other
    rw [if_neg (outside other)]
    change Function.update before.resources sema (before.resources sema - 1) other + _ = _
    by_cases same : other = sema
    · subst same
      have holds : (LightThread.executing key other).Holds other := rfl
      rw [Function.update_self, if_pos holds]
      omega
    · have holds : ¬ (LightThread.executing key sema).Holds other := fun held => same held.symm
      rw [Function.update_of_ne same, if_neg holds]

omit [DecidableEq Key] in
/-- A call on a semaphore in use enters the callback or joins the queue. -/
theorem Sound.wait (sound : before.Sound size) (known : before.Uses key sema)
    (idle : before.threads thread = .idle) :
    (before.wait thread key sema).Sound size ∧
      (before.Single → (before.wait thread key sema).Single) := by
  have outside (sema : Nat) : ¬ (before.threads thread).Holds sema := by
    rw [idle]
    exact LightThread.holds_idle sema
  unfold Synchronization.wait
  split
  · rename_i free
    exact sound.enter known free.2 outside
  · refine sound.of_moved rfl rfl (fun _ _ tabled => tabled) ?_ ?_
    · rintro other otherSema ⟨rfl, rfl⟩
      exact known
    · intro other
      rw [if_neg (outside other)]
      rfl

omit [DecidableEq Thread] [Fintype Thread] in
/-- A semaphore that is created is used for its key only, and nothing else changes. -/
theorem uses_of_create {key other : Key} {sema : Nat}
    (used : Uses
      { before with
        semaphores := Function.update before.semaphores key (some before.created)
        resources := Function.update before.resources before.created size
        created := before.created + 1 } other sema) :
    before.Uses other sema ∨ other = key ∧ sema = before.created := by
  rcases used with tabled | on
  · change Function.update before.semaphores key (some before.created) other = _ at tabled
    by_cases same : other = key
    · subst same
      rw [Function.update_self] at tabled
      exact .inr ⟨rfl, (Option.some.inj tabled).symm⟩
    · rw [Function.update_of_ne same] at tabled
      exact .inl (.inl tabled)
  · exact .inl (.inr on)

omit [DecidableEq Thread] [DecidableEq Key] in
/-- Nobody holds a permit of a semaphore that is yet to be created. -/
theorem Sound.unheld (sound : before.Sound size) : before.held before.created = 0 := by
  apply ThreadPool.count_eq_zero
  intro thread holds
  cases place : before.threads thread with
  | idle | waiting other sema =>
      rw [place] at holds
      exact holds
  | executing other sema =>
      rw [place] at holds
      have on : (before.threads thread).On other before.created := by
        rw [place]
        exact ⟨rfl, holds⟩
      exact Nat.lt_irrefl _ (sound.created other _ (.inr ⟨thread, on⟩))

omit [DecidableEq Thread] in
/-- Looking a semaphore up keeps the semaphores sound and puts it into use. They stay
single when it is only created while no thread is on an earlier one. -/
theorem Sound.acquire (sound : before.Sound size) (key : Key) :
    (before.acquire size key).1.Sound size ∧
      (before.acquire size key).1.Uses key (before.acquire size key).2 ∧
      (before.acquire size key).1.threads = before.threads ∧
      (before.Single →
        (before.semaphores key = none → ∀ thread, (before.threads thread).key ≠ some key) →
        (before.acquire size key).1.Single) := by
  unfold Synchronization.acquire
  cases found : before.semaphores key with
  | some sema => exact ⟨sound, .inl found, rfl, fun single _ => single⟩
  | none =>
      dsimp only
      refine ⟨⟨?_, ?_, ?_⟩, .inl (Function.update_self ..), rfl, ?_⟩
      · intro other sema used
        change sema < before.created + 1
        rcases uses_of_create used with old | ⟨_, rfl⟩
        · exact Nat.lt_succ_of_lt (sound.created other sema old)
        · exact Nat.lt_succ_self _
      · intro first second sema used otherUsed
        rcases uses_of_create used with old | ⟨rfl, rfl⟩
        · rcases uses_of_create otherUsed with otherOld | ⟨rfl, rfl⟩
          · exact sound.named first second sema old otherOld
          · exact absurd (sound.created first _ old) (Nat.lt_irrefl _)
        · rcases uses_of_create otherUsed with otherOld | ⟨rfl, _⟩
          · exact absurd (sound.created second _ otherOld) (Nat.lt_irrefl _)
          · rfl
      · intro sema bounded
        change Function.update before.resources before.created size sema + before.held sema = size
        by_cases fresh : sema = before.created
        · subst fresh
          rw [Function.update_self, sound.unheld, Nat.add_zero]
        · rw [Function.update_of_ne fresh]
          exact sound.permits sema (Nat.lt_of_le_of_ne (Nat.le_of_lt_succ bounded) fresh)
      · intro single alone first sema other used otherUsed
        have unused (sema : Nat) : ¬ before.Uses key sema := by
          rintro (tabled | ⟨thread, on⟩)
          · rw [found] at tabled
            cases tabled
          · exact alone rfl thread on.key_eq
        rcases uses_of_create used with old | ⟨rfl, rfl⟩
        · rcases uses_of_create otherUsed with otherOld | ⟨rfl, rfl⟩
          · exact single first sema other old otherOld
          · exact absurd old (unused sema)
        · rcases uses_of_create otherUsed with otherOld | ⟨_, rfl⟩
          · exact absurd otherOld (unused other)
          · rfl

omit [DecidableEq Key] in
/-- A waiter that times out leaves the queue. -/
theorem Sound.timeout (sound : before.Sound size)
    (waiting : before.threads thread = .waiting key sema) :
    (before.move thread .idle).Sound size ∧
      (before.Single → (before.move thread .idle).Single) := by
  refine sound.of_moved rfl rfl (fun _ _ tabled => tabled) (fun _ _ on => on.elim) ?_
  rw [waiting]
  exact fun _ => rfl

/-- The end of a callback gives its resource back and forgets the semaphore of the key. -/
theorem Sound.finish (sound : before.Sound size)
    (executing : before.threads thread = .executing key sema) :
    (((before.release key).post sema).move thread .idle).Sound size ∧
      (before.Single → (((before.release key).post sema).move thread .idle).Single) := by
  refine sound.of_moved rfl rfl ?_ (fun _ _ on => on.elim) ?_
  · intro other otherSema tabled
    change Function.update before.semaphores key none other = _ at tabled
    by_cases same : other = key
    · subst same
      rw [Function.update_self] at tabled
      cases tabled
    · rw [Function.update_of_ne same] at tabled
      exact tabled
  · intro other
    change Function.update before.resources sema (before.resources sema + 1) other + _ = _
    rw [executing, if_neg (LightThread.holds_idle other)]
    by_cases same : other = sema
    · subst same
      rw [Function.update_self, if_pos ((LightThread.holds_executing ..).mpr rfl), Nat.add_zero]
    · have holds : ¬ (LightThread.executing key sema).Holds other := fun held => same held.symm
      rw [Function.update_of_ne same, if_neg holds]

/-- Every step keeps the semaphores sound, and single when it creates them alone. -/
theorem Sound.next {action : Action Key Thread} (sound : before.Sound size)
    (stepped : (machine size).next before action = some after) :
    after.Sound size ∧ (before.CreatesAlone action → before.Single → after.Single) := by
  cases action with
  | run thread key =>
      obtain ⟨idle, equal⟩ := Option.ite_none_right_eq_some.mp stepped
      cases equal
      obtain ⟨acquired, known, same, single⟩ := sound.acquire key
      have stillIdle : (before.acquire size key).1.threads thread = .idle := by
        rw [same, idle]
      obtain ⟨waited, singleWait⟩ := acquired.wait known stillIdle
      exact ⟨waited, fun alone before => singleWait (single before alone)⟩
  | grant thread =>
      cases place : before.threads thread with
      | idle | executing key sema =>
          simp only [machine, place, reduceCtorEq] at stepped
      | waiting key sema =>
          simp only [machine, place] at stepped
          obtain ⟨free, equal⟩ := Option.ite_none_right_eq_some.mp stepped
          cases equal
          have on : (before.threads thread).On key sema := by
            rw [place]
            exact LightThread.on_waiting_self ..
          have outside (sema : Nat) : ¬ (before.threads thread).Holds sema := by
            rw [place]
            exact LightThread.holds_waiting _ _ _
          obtain ⟨entered, single⟩ := sound.enter (.inr ⟨thread, on⟩) free outside
          exact ⟨entered, fun _ => single⟩
  | timeout thread =>
      cases place : before.threads thread with
      | idle | executing key sema =>
          simp only [machine, place, reduceCtorEq] at stepped
      | waiting key sema =>
          simp only [machine, place, Option.some.injEq] at stepped
          cases stepped
          obtain ⟨left, single⟩ := sound.timeout place
          exact ⟨left, fun _ => single⟩
  | finish thread =>
      cases place : before.threads thread with
      | idle | waiting key sema =>
          simp only [machine, place, reduceCtorEq] at stepped
      | executing key sema =>
          simp only [machine, place, Option.some.injEq] at stepped
          cases stepped
          obtain ⟨finished, single⟩ := sound.finish place
          exact ⟨finished, fun _ => single⟩

end Step

/-- A thread waits after a step only if it waited before or the step was its call. -/
theorem waiting_of_next {size : Nat} {before after : Synchronization Key Thread}
    {action : Action Key Thread} {thread : Thread} {key : Key} {sema : Nat}
    (stepped : (machine size).next before action = some after)
    (waiting : after.threads thread = .waiting key sema) :
    before.threads thread = .waiting key sema ∨ action = .run thread key := by
  have elsewhere {mover : Thread} {place : LightThread Key}
      (moved : Function.update before.threads mover place thread = .waiting key sema)
      (leaves : ∀ other otherSema, place ≠ .waiting other otherSema) :
      before.threads thread = .waiting key sema := by
    by_cases same : thread = mover
    · subst same
      rw [Function.update_self] at moved
      exact absurd moved (leaves key sema)
    · rw [Function.update_of_ne same] at moved
      exact moved
  cases action with
  | run mover other =>
      obtain ⟨_, equal⟩ := Option.ite_none_right_eq_some.mp stepped
      cases equal
      have same : (before.acquire size other).1.threads = before.threads := by
        unfold acquire
        cases before.semaphores other <;> rfl
      change ((before.acquire size other).1.wait mover other
        (before.acquire size other).2).threads thread = _ at waiting
      unfold wait at waiting
      split at waiting
      · change Function.update (before.acquire size other).1.threads mover _ thread = _ at waiting
        rw [same] at waiting
        exact .inl (elsewhere waiting fun _ _ => nofun)
      · change Function.update (before.acquire size other).1.threads mover _ thread = _ at waiting
        rw [same] at waiting
        by_cases called : thread = mover
        · subst called
          rw [Function.update_self] at waiting
          cases waiting
          exact .inr rfl
        · rw [Function.update_of_ne called] at waiting
          exact .inl waiting
  | grant mover =>
      cases place : before.threads mover with
      | idle | executing other otherSema =>
          simp only [machine, place, reduceCtorEq] at stepped
      | waiting other otherSema =>
          simp only [machine, place] at stepped
          obtain ⟨_, equal⟩ := Option.ite_none_right_eq_some.mp stepped
          cases equal
          exact .inl (elsewhere waiting fun _ _ => nofun)
  | timeout mover =>
      cases place : before.threads mover with
      | idle | executing other otherSema =>
          simp only [machine, place, reduceCtorEq] at stepped
      | waiting other otherSema =>
          simp only [machine, place, Option.some.injEq] at stepped
          cases stepped
          exact .inl (elsewhere waiting fun _ _ => nofun)
  | finish mover =>
      cases place : before.threads mover with
      | idle | waiting other otherSema =>
          simp only [machine, place, reduceCtorEq] at stepped
      | executing other otherSema =>
          simp only [machine, place, Option.some.injEq] at stepped
          cases stepped
          exact .inl (elsewhere waiting fun _ _ => nofun)

variable {size : Nat}

/-- The semaphores of every reachable state are sound. -/
theorem sound_invariant :
    (machine size : Machine (Synchronization Key Thread) _).InvariantWithin (fun _ _ => True)
      (Sound size) := by
  refine ⟨⟨?_, ?_, ?_⟩, ?_⟩
  · rintro key sema (tabled | ⟨thread, on⟩)
    · cases tabled
    · exact on.elim
  · rintro key other sema (tabled | ⟨thread, on⟩)
    · cases tabled
    · exact on.elim
  · exact fun sema bounded => absurd bounded (Nat.not_lt_zero sema)
  · exact fun before action after sound _ stepped => (sound.next stepped).1

/-- The semaphores stay single along runs that create them alone. -/
theorem single_invariant :
    (machine size : Machine (Synchronization Key Thread) _).InvariantWithin CreatesAlone
      (fun state => state.Sound size ∧ state.Single) := by
  refine ⟨⟨sound_invariant.initial, ?_⟩, ?_⟩
  · rintro key sema other (tabled | ⟨thread, on⟩)
    · cases tabled
    · exact on.elim
  · rintro before action after ⟨sound, single⟩ alone stepped
    obtain ⟨nextSound, nextSingle⟩ := sound.next stepped
    exact ⟨nextSound, nextSingle alone single⟩

omit [DecidableEq Thread] in
/-- While the semaphore of a key is single, its free resources and the callbacks of the
key together do not exceed the size. -/
theorem executing_add_resources_le {state : Synchronization Key Thread} {key : Key} {sema : Nat}
    (sound : state.Sound size) (single : state.Single) (used : state.Uses key sema) :
    state.executing key + state.resources sema ≤ size := by
  have within : state.executing key ≤ state.held sema := by
    apply ThreadPool.count_le_count
    intro thread executes
    cases place : state.threads thread with
    | idle | waiting other otherSema =>
        rw [place] at executes
        exact executes.elim
    | executing other otherSema =>
        rw [place] at executes
        have same : other = key := executes
        subst same
        have on : (state.threads thread).On other otherSema := by
          rw [place]
          exact LightThread.on_executing_self ..
        exact single other otherSema sema (.inr ⟨thread, on⟩) used
  have permits := sound.permits sema (sound.created key sema used)
  omega

/-- A thread that moves exchanges its share of the callbacks of a key. -/
theorem executing_moved (before after : Synchronization Key Thread) {thread : Thread}
    {place : LightThread Key} (key : Key)
    (moved : after.threads = Function.update before.threads thread place) :
    after.executing key + (if (before.threads thread).Executes key then 1 else 0) =
      before.executing key + if place.Executes key then 1 else 0 := by
  unfold executing
  rw [moved]
  exact ThreadPool.count_update before.threads thread place

/-- Entering the callback of a key claims a unit of its budget. -/
theorem executing_enter {before : Synchronization Key Thread} {thread : Thread} {key : Key}
    {sema : Nat} (other : Key) (sound : before.Sound size) (single : before.Single)
    (known : before.Uses key sema) (free : 0 < before.resources sema)
    (outside : ¬ (before.threads thread).Executes other) :
    (before.enter thread key sema).executing other = before.executing other ∨
      (Budget.machine size).next (before.executing other) .claim =
        some ((before.enter thread key sema).executing other) := by
  have moved := executing_moved before (before.enter thread key sema) other rfl
  rw [if_neg outside, Nat.add_zero] at moved
  by_cases same : key = other
  · subst same
    have bounded := executing_add_resources_le sound single known
    have executes : (LightThread.executing key sema).Executes key := rfl
    rw [if_pos executes] at moved
    rw [moved]
    exact .inr (Budget.next_claim (by omega))
  · have executes : ¬ (LightThread.executing key sema).Executes other := same
    rw [if_neg executes] at moved
    exact .inl moved

/-- Along runs that create semaphores alone, the callbacks of a key take and return the
units of a budget of the given size. -/
theorem machine_simulates_budget (key : Key) :
    Machine.Simulation (machine size : Machine (Synchronization Key Thread) _) CreatesAlone
      (Budget.machine size) (·.executing key) := by
  refine ⟨ThreadPool.count_eq_zero fun _ => LightThread.executes_idle key, ?_⟩
  intro before action after reachable alone stepped
  obtain ⟨sound, single⟩ := single_invariant.of_reachable reachable
  cases action with
  | run thread other =>
      obtain ⟨idle, equal⟩ := Option.ite_none_right_eq_some.mp stepped
      cases equal
      obtain ⟨acquired, known, same, acquiredSingle⟩ := sound.acquire other
      have singleNow := acquiredSingle single alone
      have count : (before.acquire size other).1.executing key = before.executing key := by
        unfold executing
        rw [same]
      have outside : ¬ ((before.acquire size other).1.threads thread).Executes key := by
        rw [same, idle]
        exact LightThread.executes_idle key
      change ((before.acquire size other).1.wait thread other
        (before.acquire size other).2).executing key = _ ∨ ∃ _, _ = some
          (((before.acquire size other).1.wait thread other
            (before.acquire size other).2).executing key)
      unfold wait
      split
      · rename_i free
        rcases executing_enter key acquired singleNow known free.2 outside with kept | claimed
        · exact .inl (kept.trans count)
        · rw [count] at claimed
          exact .inr ⟨.claim, claimed⟩
      · have moved := executing_moved (before.acquire size other).1
          ((before.acquire size other).1.move thread
            (.waiting other (before.acquire size other).2)) key rfl
        rw [if_neg outside, if_neg (LightThread.executes_waiting _ _ _)] at moved
        exact .inl (moved.trans count)
  | grant thread =>
      cases place : before.threads thread with
      | idle | executing other sema =>
          simp only [machine, place, reduceCtorEq] at stepped
      | waiting other sema =>
          simp only [machine, place] at stepped
          obtain ⟨free, equal⟩ := Option.ite_none_right_eq_some.mp stepped
          cases equal
          have on : (before.threads thread).On other sema := by
            rw [place]
            exact LightThread.on_waiting_self ..
          have outside : ¬ (before.threads thread).Executes key := by
            rw [place]
            exact LightThread.executes_waiting _ _ _
          rcases executing_enter key sound single (.inr ⟨thread, on⟩) free outside with
            kept | claimed
          · exact .inl kept
          · exact .inr ⟨.claim, claimed⟩
  | timeout thread =>
      cases place : before.threads thread with
      | idle | executing other sema =>
          simp only [machine, place, reduceCtorEq] at stepped
      | waiting other sema =>
          simp only [machine, place, Option.some.injEq] at stepped
          cases stepped
          have moved := executing_moved before (before.move thread .idle) key rfl
          rw [place, if_neg (LightThread.executes_waiting _ _ _),
            if_neg (LightThread.executes_idle _)] at moved
          exact .inl moved
  | finish thread =>
      cases place : before.threads thread with
      | idle | waiting other sema =>
          simp only [machine, place, reduceCtorEq] at stepped
      | executing other sema =>
          simp only [machine, place, Option.some.injEq] at stepped
          cases stepped
          have moved := executing_moved before
            (((before.release other).post sema).move thread .idle) key rfl
          rw [place, if_neg (LightThread.executes_idle _), Nat.add_zero] at moved
          by_cases same : other = key
          · have executes : (LightThread.executing other sema).Executes key := same
            rw [if_pos executes] at moved
            refine .inr ⟨.giveBack, ?_⟩
            rw [← moved]
            exact Budget.next_giveBack (Nat.succ_pos _)
          · have executes : ¬ (LightThread.executing other sema).Executes key := same
            rw [if_neg executes] at moved
            exact .inl moved

/-- In a run that creates semaphores only while no thread is on an earlier one of the
same key, no more callbacks of a key execute than the semaphores have resources. -/
theorem executing_le_size {state : Synchronization Key Thread}
    (reachable : (machine size).ReachableWithin CreatesAlone state) (key : Key) :
    state.executing key ≤ size :=
  Budget.out_le_limit ((machine_simulates_budget key).reachable reachable)

/-- Two threads contend for a single resource and take it one after the other. -/
theorem executing_le_size_handover :
    let machine : Machine (Synchronization String (Fin 2)) _ := machine 1
    ∃ state, machine.runWithin CreatesAlone machine.initial
        [.run 0 "host", .run 1 "host", .finish 0, .grant 1] = some state ∧
      state.executing "host" ≤ 1 := by
  intro machine
  have executes : (machine.runWithin CreatesAlone machine.initial
      [.run 0 "host", .run 1 "host", .finish 0, .grant 1]).isSome := by decide
  obtain ⟨state, executed⟩ := Option.isSome_iff_exists.mp executes
  exact ⟨state, executed, executing_le_size (Machine.ReachableWithin.run .initial executed) "host"⟩

/-- The release of the first holder drops the semaphore that the second thread waits
on, so that the third gets a new one and executes at the same time as the second. -/
theorem executing_exceeds_size :
    let machine : Machine (Synchronization String (Fin 3)) _ := machine 1
    ∃ state, machine.run machine.initial
        [.run 0 "host", .run 1 "host", .finish 0, .run 2 "host", .grant 1] = some state ∧
      state.executing "host" = 2 := by
  intro machine
  have counted : (machine.run machine.initial
      [.run 0 "host", .run 1 "host", .finish 0, .run 2 "host", .grant 1]).map
        (·.executing "host") = some 2 := by decide
  obtain ⟨state, executed, executing⟩ := Option.map_eq_some_iff.mp counted
  exact ⟨state, executed, executing⟩

end Synchronization

end Apicast
