import Apicast.RateLimit.CountInc

/-!
# Concurrent calls of a fixed-window limiter

Workers call `incoming` and `uncommit` on one key. A committing `incoming` that
counts past the limit compensates in a second dictionary operation, so other
workers see its over-count in between. The counter exceeds the accepted requests
by exactly the compensations that are still owed.
-/

namespace Apicast.RateLimit

open Foundation

/-- Where a worker is between two dictionary operations. -/
inductive Call
  | idle
  | incoming (commit : Bool)
  /-- `count > limit` was seen, `dict:incr(key, -1)` is still to come. -/
  | compensating
  | uncommit
  deriving DecidableEq, Repr

/-- The store, the calls in progress, and how many committed requests were
accepted, how many of these were given up by a caller, and how many of those
calls have reached the store. -/
structure WindowState (Worker : Type*) where
  dict : SharedDict String Int
  calls : Worker → Call
  accepted : Nat
  uncommits : Nat
  uncommitted : Nat

inductive WindowAction (Worker : Type*)
  | incoming (worker : Worker) (commit : Bool)
  | uncommit (worker : Worker)
  /-- The next dictionary operation of the worker's call, with the local
  computation up to the one after it. -/
  | advance (worker : Worker)
  deriving DecidableEq, Repr

namespace CountLimiter

variable {Worker : Type*} [DecidableEq Worker] (self : CountLimiter) (key : String)

/-- One dictionary operation of a call in progress. -/
def advance (state : WindowState Worker) (worker : Worker) : Option (WindowState Worker) :=
  match state.calls worker with
  | .idle => none
  | .incoming true =>
      match self.store.incr state.dict key 1 (some 0) with
      | (dict, .error _) =>
          some { state with dict, calls := Function.update state.calls worker .idle }
      | (dict, .ok count) =>
          if count > self.limit then
            some { state with dict, calls := Function.update state.calls worker .compensating }
          else
            some { state with
              dict, calls := Function.update state.calls worker .idle
              accepted := state.accepted + 1 }
  | .incoming false =>
      -- `dict:get` only reads, and its answer is not kept anywhere
      some { state with calls := Function.update state.calls worker .idle }
  | .compensating =>
      some { state with
        dict := (self.store.incr state.dict key (-1) none).1
        calls := Function.update state.calls worker .idle }
  | .uncommit =>
      some { state with
        dict := (self.store.incr state.dict key (-1) none).1
        calls := Function.update state.calls worker .idle
        uncommitted := state.uncommitted + 1 }

/-- Calls of any workers on one key. A caller gives up an accepted request at
most once. -/
def window (dict : SharedDict String Int) :
    Machine (WindowState Worker) (WindowAction Worker) where
  initial :=
    { dict, calls := fun _ => .idle, accepted := 0, uncommits := 0, uncommitted := 0 }
  next state
    | .incoming worker commit =>
        if state.calls worker = .idle then
          some { state with calls := Function.update state.calls worker (.incoming commit) }
        else none
    | .uncommit worker =>
        if state.calls worker = .idle ∧ state.uncommits < state.accepted then
          some { state with
            calls := Function.update state.calls worker .uncommit
            uncommits := state.uncommits + 1 }
        else none
    | .advance worker => self.advance key state worker

end CountLimiter

namespace WindowState

variable {Worker : Type*} (state : WindowState Worker) (key : String)

/-- The stored counter; an absent one counts as zero. -/
def counter : Int := (state.dict.get key).getD 0

/-- No call is in progress. -/
def Quiescent : Prop := ∀ worker, state.calls worker = .idle

/-- Accepted requests that were not given up. -/
def outstanding : Nat := state.accepted - state.uncommitted

variable [Fintype Worker]

/-- The over-counts that are still to be taken back. -/
def owed : Nat := ThreadPool.count (· = .compensating) state.calls

/-- The `uncommit` calls that have not reached the store. -/
def uncommitting : Nat := ThreadPool.count (· = .uncommit) state.calls

/-- The counter is what was accepted, less what was given up, plus what is owed,
and no more was given up than accepted. -/
structure Balanced : Prop where
  counted : state.counter key + state.uncommitted = state.accepted + state.owed
  stored : state.dict.get key = none → state.accepted = 0 ∧ state.owed = 0
  given : state.uncommits = state.uncommitted + state.uncommitting
  earned : state.uncommits ≤ state.accepted

end WindowState

section Operation

variable {Worker : Type*} [DecidableEq Worker] (self : CountLimiter) (key : String)
  (before : WindowState Worker) {worker : Worker} {count : Int}

/-- The counting operation of a committing call. -/
theorem CountLimiter.advance_incoming (call : before.calls worker = .incoming true) :
    self.advance key before worker =
      if before.counter key + 1 > self.limit then
        some { before with
          dict := before.dict.set key (before.counter key + 1)
          calls := Function.update before.calls worker .compensating }
      else
        some { before with
          dict := before.dict.set key (before.counter key + 1)
          calls := Function.update before.calls worker .idle
          accepted := before.accepted + 1 } := by
  unfold CountLimiter.advance
  rw [call, self.store.incr_from_zero]
  rfl

/-- The compensating operation, when the count it takes back is stored. -/
theorem CountLimiter.advance_compensating (call : before.calls worker = .compensating)
    (present : before.dict.get key = some count) :
    self.advance key before worker =
      some { before with
        dict := before.dict.set key (count - 1)
        calls := Function.update before.calls worker .idle } := by
  unfold CountLimiter.advance
  rw [call, self.store.incr_back present]

/-- The operation of an `uncommit`, when the count it gives back is stored. -/
theorem CountLimiter.advance_uncommit (call : before.calls worker = .uncommit)
    (present : before.dict.get key = some count) :
    self.advance key before worker =
      some { before with
        dict := before.dict.set key (count - 1)
        calls := Function.update before.calls worker .idle
        uncommitted := before.uncommitted + 1 } := by
  unfold CountLimiter.advance
  rw [call, self.store.incr_back present]

/-- A committing call that no other call interrupts does to the dictionary what
`incoming` does, and is counted as accepted unless `incoming` rejects it. -/
theorem CountLimiter.window_run_incoming (dict : SharedDict String Int)
    (idle : before.calls worker = .idle) :
    ∃ actions after, (self.window key dict).run before actions = some after ∧
      after.dict = (self.incoming before.dict key true).1 ∧ after.calls = before.calls ∧
      after.accepted = before.accepted +
        if (self.incoming before.dict key true).2 = .rejected then 0 else 1 := by
  have returns : Function.update before.calls worker .idle = before.calls := by
    rw [← idle, Function.update_eq_self]
  have starts : (self.window key dict).next before (.incoming worker true) =
      some { before with calls := Function.update before.calls worker (.incoming true) } :=
    if_pos idle
  have counts := self.advance_incoming key
    { before with calls := Function.update before.calls worker (.incoming true) }
    (Function.update_self ..)
  simp only [Function.update_idem, returns] at counts
  have alone := self.incoming_commit before.dict key
  by_cases above : (before.dict.get key).getD 0 + 1 > self.limit
  · have compensates := self.advance_compensating key
      { before with
        dict := before.dict.set key (before.counter key + 1)
        calls := Function.update before.calls worker .compensating }
      (Function.update_self ..) (SharedDict.get_set_self ..)
    rw [Int.add_sub_cancel, SharedDict.set_set, Function.update_idem, returns] at compensates
    dsimp only at alone
    rw [if_pos above, Int.add_sub_cancel] at alone
    refine ⟨[.incoming worker true, .advance worker, .advance worker],
      { before with dict := before.dict.set key (before.counter key) }, ?_, ?_, rfl, ?_⟩
    · rw [Machine.run_cons starts, Machine.run_cons (counts.trans (if_pos above)),
        Machine.run_cons compensates]
      rfl
    · rw [alone]
      rfl
    · rw [alone, if_pos rfl]
      rfl
  · dsimp only at alone
    rw [if_neg above] at alone
    refine ⟨[.incoming worker true, .advance worker],
      { before with
        dict := before.dict.set key (before.counter key + 1)
        accepted := before.accepted + 1 }, ?_, ?_, rfl, ?_⟩
    · rw [Machine.run_cons starts, Machine.run_cons (counts.trans (if_neg above))]
      rfl
    · rw [alone]
      rfl
    · rw [alone, if_neg IncomingResult.noConfusion]

end Operation

section Step

variable {Worker : Type*} [Fintype Worker] [DecidableEq Worker] {self : CountLimiter}
  {key : String} {before after : WindowState Worker}

/-- A call that moves exchanges its share of the owed compensations. -/
theorem WindowState.owed_moved {worker : Worker} {call : Call}
    (moved : after.calls = Function.update before.calls worker call) :
    after.owed + (if before.calls worker = .compensating then 1 else 0) =
      before.owed + if call = .compensating then 1 else 0 := by
  unfold WindowState.owed
  rw [moved]
  exact ThreadPool.count_update before.calls worker call

/-- A call that moves exchanges its share of the pending `uncommit` calls. -/
theorem WindowState.uncommitting_moved {worker : Worker} {call : Call}
    (moved : after.calls = Function.update before.calls worker call) :
    after.uncommitting + (if before.calls worker = .uncommit then 1 else 0) =
      before.uncommitting + if call = .uncommit then 1 else 0 := by
  unfold WindowState.uncommitting
  rw [moved]
  exact ThreadPool.count_update before.calls worker call

/-- Everything the next dictionary operation of a worker can do to a balanced
state: take a unit, over-count, take an over-count back, return a unit, or
answer without counting. -/
theorem CountLimiter.advance_cases (balanced : before.Balanced key) {worker : Worker}
    (stepped : self.advance key before worker = some after) :
    (before.calls worker = .incoming true ∧ before.counter key + 1 ≤ self.limit ∧
      after = { before with
        dict := before.dict.set key (before.counter key + 1)
        calls := Function.update before.calls worker .idle
        accepted := before.accepted + 1 }) ∨
    (before.calls worker = .incoming true ∧ self.limit < before.counter key + 1 ∧
      after = { before with
        dict := before.dict.set key (before.counter key + 1)
        calls := Function.update before.calls worker .compensating }) ∨
    (before.calls worker = .incoming false ∧
      after = { before with calls := Function.update before.calls worker .idle }) ∨
    (before.calls worker = .compensating ∧
      after = { before with
        dict := before.dict.set key (before.counter key - 1)
        calls := Function.update before.calls worker .idle }) ∨
    (before.calls worker = .uncommit ∧
      after = { before with
        dict := before.dict.set key (before.counter key - 1)
        calls := Function.update before.calls worker .idle
        uncommitted := before.uncommitted + 1 }) := by
  -- A worker that counts down finds its key: the unit it returns is in the counter.
  have counted_down (busy : 0 < before.accepted + before.owed) :
      before.dict.get key = some (before.counter key) := by
    unfold WindowState.counter
    cases present : before.dict.get key with
    | some value => rfl
    | none =>
        obtain ⟨accepted, owed⟩ := balanced.stored present
        omega
  cases call : before.calls worker with
  | idle =>
      unfold CountLimiter.advance at stepped
      rw [call] at stepped
      cases stepped
  | incoming commit =>
      cases commit with
      | false =>
          unfold CountLimiter.advance at stepped
          rw [call] at stepped
          exact .inr (.inr (.inl ⟨rfl, (Option.some.inj stepped).symm⟩))
      | true =>
          rw [self.advance_incoming key before call] at stepped
          split at stepped
          · rename_i above
            exact .inr (.inl ⟨rfl, above, (Option.some.inj stepped).symm⟩)
          · rename_i within
            exact .inl ⟨rfl, not_lt.mp within, (Option.some.inj stepped).symm⟩
  | compensating =>
      have owed : 0 < before.owed := ThreadPool.count_pos call
      rw [self.advance_compensating key before call (counted_down (by omega))] at stepped
      exact .inr (.inr (.inr (.inl ⟨rfl, (Option.some.inj stepped).symm⟩)))
  | uncommit =>
      have pending : 0 < before.uncommitting := ThreadPool.count_pos call
      have given := balanced.given
      have earned := balanced.earned
      rw [self.advance_uncommit key before call (counted_down (by omega))] at stepped
      exact .inr (.inr (.inr (.inr ⟨rfl, (Option.some.inj stepped).symm⟩)))

omit [Fintype Worker] [DecidableEq Worker] in
/-- What a write to the key of the window leaves there. -/
theorem WindowState.counter_of_set {count : Int}
    (written : after.dict = before.dict.set key count) :
    after.dict.get key = some count ∧ after.counter key = count := by
  have present : after.dict.get key = some count := by
    rw [written, SharedDict.get_set_self]
  refine ⟨present, ?_⟩
  unfold WindowState.counter
  rw [present, Option.getD_some]

/-- An operation that writes the counter keeps the balance when it moves the
counter, the accepted requests and the units given back consistently. -/
theorem WindowState.Balanced.of_set {count : Int} {worker : Worker} {call : Call}
    (balanced : before.Balanced key) (written : after.dict = before.dict.set key count)
    (moved : after.calls = Function.update before.calls worker call)
    (opened : after.uncommits = before.uncommits)
    (accepted : before.accepted ≤ after.accepted)
    (counted : count + after.uncommitted + before.accepted +
        (if before.calls worker = .compensating then 1 else 0 : Nat) =
      before.counter key + before.uncommitted + after.accepted +
        (if call = .compensating then 1 else 0 : Nat))
    (given : after.uncommitted + (if call = .uncommit then 1 else 0) =
      before.uncommitted + if before.calls worker = .uncommit then 1 else 0) :
    after.Balanced key := by
  have owed := WindowState.owed_moved moved
  have uncommitting := WindowState.uncommitting_moved moved
  obtain ⟨present, counter⟩ := WindowState.counter_of_set written
  refine ⟨?_, ?_, ?_, ?_⟩
  · have before_counted := balanced.counted
    rw [counter]
    omega
  · intro absent
    rw [present] at absent
    cases absent
  · have before_given := balanced.given
    omega
  · rw [opened]
    exact balanced.earned.trans accepted

/-- A call that starts or only reads keeps the balance. -/
theorem WindowState.Balanced.of_moved {worker : Worker} {call : Call}
    (balanced : before.Balanced key) (same : after.dict = before.dict)
    (moved : after.calls = Function.update before.calls worker call)
    (accepted : after.accepted = before.accepted)
    (uncommitted : after.uncommitted = before.uncommitted)
    (opened : after.uncommits + (if before.calls worker = .uncommit then 1 else 0) =
      before.uncommits + if call = .uncommit then 1 else 0)
    (earned : after.uncommits ≤ after.accepted)
    (kept : before.calls worker = .compensating ↔ call = .compensating) :
    after.Balanced key := by
  have owed := WindowState.owed_moved moved
  simp only [kept, Nat.add_right_cancel_iff] at owed
  have uncommitting := WindowState.uncommitting_moved moved
  have counter : after.counter key = before.counter key := by
    unfold WindowState.counter
    rw [same]
  refine ⟨?_, ?_, ?_, earned⟩
  · rw [counter, uncommitted, accepted, owed]
    exact balanced.counted
  · intro absent
    rw [same] at absent
    rw [accepted, owed]
    exact balanced.stored absent
  · have given := balanced.given
    omega

/-- Every dictionary operation of a call keeps the balance. -/
theorem WindowState.Balanced.advance (balanced : before.Balanced key) {worker : Worker}
    (stepped : self.advance key before worker = some after) : after.Balanced key := by
  rcases CountLimiter.advance_cases balanced stepped with ⟨call, within, rfl⟩ | ⟨call, above, rfl⟩ |
    ⟨call, rfl⟩ | ⟨call, rfl⟩ | ⟨call, rfl⟩
  · refine balanced.of_set rfl rfl rfl (Nat.le_succ _) ?_ ?_
    · simp only [call, reduceCtorEq, ↓reduceIte]
      omega
    · simp only [call, reduceCtorEq, ↓reduceIte]
  · refine balanced.of_set rfl rfl rfl le_rfl ?_ ?_
    · simp only [call, reduceCtorEq, ↓reduceIte]
      omega
    · simp only [call, reduceCtorEq, ↓reduceIte]
  · refine balanced.of_moved rfl rfl rfl rfl ?_ balanced.earned ?_
    all_goals simp only [call, reduceCtorEq, ↓reduceIte]
  · refine balanced.of_set rfl rfl rfl le_rfl ?_ ?_
    · simp only [call, reduceCtorEq, ↓reduceIte]
      omega
    · simp only [call, reduceCtorEq, ↓reduceIte]
  · refine balanced.of_set rfl rfl rfl le_rfl ?_ ?_
    · simp only [call, reduceCtorEq, ↓reduceIte]
      omega
    · simp only [call, reduceCtorEq, ↓reduceIte]

/-- The balance holds initially and every step of the window keeps it. -/
theorem CountLimiter.window_balanced {dict : SharedDict String Int}
    (absent : dict.get key = none) :
    (self.window key dict : Machine (WindowState Worker) _).InvariantWithin (fun _ _ => True)
      (·.Balanced key) := by
  refine ⟨?_, ?_⟩
  · have owed :
        WindowState.owed (self.window key dict : Machine (WindowState Worker) _).initial = 0 :=
      ThreadPool.count_eq_zero fun _ => Call.noConfusion
    have uncommitting :
        WindowState.uncommitting
          (self.window key dict : Machine (WindowState Worker) _).initial = 0 :=
      ThreadPool.count_eq_zero fun _ => Call.noConfusion
    refine ⟨?_, fun _ => ⟨rfl, owed⟩, ?_, le_rfl⟩
    · rw [owed]
      unfold WindowState.counter
      change (dict.get key).getD 0 + 0 = 0
      rw [absent]
      rfl
    · rw [uncommitting]
      rfl
  · intro before action after balanced _ stepped
    cases action with
    | incoming worker commit =>
        obtain ⟨idle, equal⟩ := Option.ite_none_right_eq_some.mp stepped
        cases equal
        refine balanced.of_moved rfl rfl rfl rfl ?_ balanced.earned ?_
        all_goals simp only [idle, reduceCtorEq, ↓reduceIte]
    | uncommit worker =>
        obtain ⟨⟨idle, accepted⟩, equal⟩ := Option.ite_none_right_eq_some.mp stepped
        cases equal
        refine balanced.of_moved rfl rfl rfl rfl ?_ accepted ?_
        all_goals simp only [idle, reduceCtorEq, ↓reduceIte, Nat.add_zero]
    | advance worker => exact balanced.advance stepped

/-- The requests let through in one window claim and return units of a budget
of the limiter's size. -/
theorem CountLimiter.window_simulates_budget {dict : SharedDict String Int}
    (absent : dict.get key = none) :
    Machine.Simulation (self.window key dict : Machine (WindowState Worker) _)
      (fun _ _ => True) (Budget.machine self.limit) WindowState.outstanding := by
  refine ⟨rfl, ?_⟩
  intro before action after reachable _ stepped
  have balanced := (CountLimiter.window_balanced absent).of_reachable reachable
  cases action with
  | incoming worker commit =>
      obtain ⟨_, equal⟩ := Option.ite_none_right_eq_some.mp stepped
      cases equal
      exact .inl rfl
  | uncommit worker =>
      obtain ⟨_, equal⟩ := Option.ite_none_right_eq_some.mp stepped
      cases equal
      exact .inl rfl
  | advance worker =>
      have counted := balanced.counted
      have given := balanced.given
      have earned := balanced.earned
      rcases CountLimiter.advance_cases balanced stepped with ⟨_, within, rfl⟩ | ⟨_, _, rfl⟩ |
        ⟨_, rfl⟩ | ⟨_, rfl⟩ | ⟨call, rfl⟩
      · refine .inr ⟨.claim, ?_⟩
        have grown : WindowState.outstanding
            { before with
              dict := before.dict.set key (before.counter key + 1)
              calls := Function.update before.calls worker .idle
              accepted := before.accepted + 1 } = before.outstanding + 1 := by
          unfold WindowState.outstanding
          dsimp only
          omega
        rw [grown]
        refine Budget.next_claim ?_
        unfold WindowState.outstanding
        omega
      · exact .inl rfl
      · exact .inl rfl
      · exact .inl rfl
      · refine .inr ⟨.giveBack, ?_⟩
        have pending : 0 < before.uncommitting := ThreadPool.count_pos call
        refine Budget.next_giveBack ?_
        unfold WindowState.outstanding
        omega

/-- Over every interleaving of one window, at most `limit` accepted requests are
outstanding, and the counter is exactly their number whenever no call is in
progress; a rejected call leaves the counter as it was. -/
theorem CountLimiter.incoming_within_limit (self : CountLimiter) (key : String)
    {dict : SharedDict String Int} (absent : dict.get key = none) {state : WindowState Worker}
    (reachable : (self.window key dict).Reachable state) :
    (state.accepted : Int) - state.uncommitted ≤ self.limit ∧
      (state.Quiescent → state.counter key = state.accepted - state.uncommits) ∧
      ∀ (dict : SharedDict String Int) (commit : Bool),
        (self.incoming dict key commit).2 = .rejected →
          ((self.incoming dict key commit).1.get key).getD 0 = (dict.get key).getD 0 := by
  have balanced := (CountLimiter.window_balanced absent).of_reachable reachable
  have bounded : state.outstanding ≤ self.limit :=
    Budget.out_le_limit ((CountLimiter.window_simulates_budget absent).reachable reachable)
  refine ⟨?_, ?_, fun _ _ => self.incoming_rejected⟩
  · unfold WindowState.outstanding at bounded
    omega
  · intro quiescent
    have owed : state.owed = 0 := ThreadPool.count_eq_zero fun worker compensating => by
      rw [quiescent worker] at compensating
      cases compensating
    have uncommitting : state.uncommitting = 0 := ThreadPool.count_eq_zero fun worker pending => by
      rw [quiescent worker] at pending
      cases pending
    have counted := balanced.counted
    have given := balanced.given
    omega

/-- Two workers race for the only slot, the loser compensates, and the winner
gives the slot up again. -/
theorem CountLimiter.incoming_within_limit_race :
    let machine : Machine (WindowState (Fin 2)) _ :=
      CountLimiter.window ⟨.redis, 1⟩ "requests" ∅
    ∃ state, machine.run machine.initial
        [.incoming 0 true, .incoming 1 true, .advance 0, .advance 1, .advance 1, .uncommit 0,
          .advance 0] = some state ∧
      (state.accepted : Int) - state.uncommitted ≤ (1 : Nat) ∧
      (state.Quiescent → state.counter "requests" = state.accepted - state.uncommits) := by
  intro machine
  have executes : (machine.run machine.initial
      [.incoming 0 true, .incoming 1 true, .advance 0, .advance 1, .advance 1, .uncommit 0,
        .advance 0]).isSome := by decide
  obtain ⟨state, executed⟩ := Option.isSome_iff_exists.mp executes
  obtain ⟨bounded, exact, _⟩ := CountLimiter.incoming_within_limit ⟨.redis, 1⟩ "requests"
    (SharedDict.get_empty "requests") (Machine.Reachable.run .initial executed)
  exact ⟨state, executed, bounded, exact⟩

end Step

end Apicast.RateLimit
