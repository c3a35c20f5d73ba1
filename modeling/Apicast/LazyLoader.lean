import Apicast.Configuration.Store
import Apicast.Synchronization

/-!
# Lazy loading of the configuration

`lazy.rewrite` of `configuration_loader.lua`, run by any requests: the store is
checked first, the lock of the host is taken next, and the load that follows is
not preceded by a second check.
-/

namespace Apicast

open Foundation

/-- The locks of the hosts, the shared store and the time. -/
structure LazyLoader (Value Thread : Type*) where
  synchronization : Synchronization String Thread
  store : ConfigurationStore Value
  now : Int

namespace LazyLoader

inductive Action (Value Thread : Type*)
  /-- `lazy.rewrite`, up to the point where it waits for the lock or loads. -/
  | rewrite (thread : Thread) (host : String)
  /-- A waiting request obtains the lock and starts its load. -/
  | grant (thread : Thread)
  | timeout (thread : Thread)
  /-- A load ends, with a parsed configuration or without one. -/
  | finish (thread : Thread) (config : Option (Configuration Value))
  | tick (duration : Nat)
  | evict (host : String)

variable {Value Thread : Type*} [DecidableEq Thread] [Fintype Thread]

/-- `_M.configure` on the store of the request, which is the shared one unless the time
to live is zero. -/
def configure (ttl : Int) (self : LazyLoader Value Thread) (config : Option (Configuration Value)) :
    ConfigurationStore Value :=
  match config with
  | some config => if ttl = 0 then self.store else self.store.store self.now config (some ttl)
  | none => self.store

/-- A step of the synchronization, which leaves the store alone. -/
def synchronize (self : LazyLoader Value Thread) (action : Synchronization.Action String Thread) :
    Option (LazyLoader Value Thread) :=
  ((Synchronization.machine 1).next self.synchronization action).map fun synchronization =>
    { self with synchronization }

def machine (ttl : Int) (pathRouting : Bool) (start : Int) :
    Machine (LazyLoader Value Thread) (Action Value Thread) where
  initial :=
    { synchronization := (Synchronization.machine 1).initial
      store := ConfigurationStore.new pathRouting
      now := start }
  next self
    | .rewrite thread host =>
        if self.synchronization.threads thread = .idle then
          if ttl ≠ 0 ∧ self.store.Configured self.now host then some self
          else self.synchronize (.run thread host)
        else none
    | .grant thread => self.synchronize (.grant thread)
    | .timeout thread => self.synchronize (.timeout thread)
    | .finish thread config =>
        { self with store := self.configure ttl config }.synchronize (.finish thread)
    | .tick duration => some { self with now := self.now + duration }
    | .evict host => some { self with store := self.store.evict host }

/-- The request waits for the lock of the host. -/
def WaitsFor (self : LazyLoader Value Thread) (thread : Thread) (host : String) : Prop :=
  (self.synchronization.threads thread).awaited = some host

/-- The step starts another load of a host that is configured, by a request that was
waiting for its lock. -/
def LoadsAgain (self : LazyLoader Value Thread) (action : Action Value Thread) : Prop :=
  ∃ thread host, action = .grant thread ∧ self.WaitsFor thread host ∧
    self.store.Configured self.now host

/-- A load ends only when no request waits for the lock of a host that it leaves
configured. -/
def EndsUnawaited (ttl : Int) (self : LazyLoader Value Thread) : Action Value Thread → Prop
  | .finish _ config => ∀ thread, ∀ host ∈ (self.synchronization.threads thread).awaited,
      ¬ (self.configure ttl config).Configured self.now host
  | _ => True

instance (ttl : Int) (self : LazyLoader Value Thread) (action : Action Value Thread) :
    Decidable (self.EndsUnawaited ttl action) :=
  match action with
  | .finish _ config =>
      inferInstanceAs (Decidable (∀ thread, ∀ host ∈ (self.synchronization.threads thread).awaited,
        ¬ (self.configure ttl config).Configured self.now host))
  | .rewrite _ _ | .grant _ | .timeout _ | .tick _ | .evict _ => inferInstanceAs (Decidable True)

variable {ttl : Int} {pathRouting : Bool} {start : Int} {before after : LazyLoader Value Thread}

/-- A step of the locks keeps the store and the time, and brings a request into a queue
only when it is its call. -/
theorem synchronize_spec {action : Synchronization.Action String Thread}
    (stepped : before.synchronize action = some after) :
    after.store = before.store ∧ after.now = before.now ∧
      ∀ thread host, after.WaitsFor thread host →
        before.WaitsFor thread host ∨ action = .run thread host := by
  obtain ⟨synchronization, moved, equal⟩ := Option.map_eq_some_iff.mp stepped
  subst equal
  refine ⟨rfl, rfl, ?_⟩
  intro thread host waits
  obtain ⟨sema, waiting⟩ := LightThread.awaited_eq_some.mp waits
  rcases Synchronization.waiting_of_next moved waiting with earlier | called
  · exact .inl (LightThread.awaited_eq_some.mpr ⟨sema, earlier⟩)
  · exact .inr called

/-- No request waits for the lock of a configured host. -/
def Unawaited (self : LazyLoader Value Thread) : Prop :=
  ∀ thread host, self.WaitsFor thread host → ¬ self.store.Configured self.now host

omit [DecidableEq Thread] [Fintype Thread] in
/-- A step that stores nothing keeps the queues of configured hosts empty. -/
theorem Unawaited.of_stored {state : LazyLoader Value Thread} (unawaited : before.Unawaited)
    (waits : ∀ thread host, state.WaitsFor thread host → before.WaitsFor thread host)
    (configured : ∀ host, state.store.Configured state.now host →
      before.store.Configured before.now host) : state.Unawaited :=
  fun thread host waiting found => unawaited thread host (waits thread host waiting)
    (configured host found)

/-- Along runs whose loads end unawaited, no request waits for a configured host. -/
theorem unawaited_invariant (lasting : ttl ≠ 0) :
    (machine ttl pathRouting start : Machine (LazyLoader Value Thread) _).InvariantWithin
      (EndsUnawaited ttl) Unawaited := by
  refine ⟨?_, ?_⟩
  · intro thread host waiting
    cases waiting
  · intro before action after unawaited ends stepped
    cases action with
    | rewrite thread host =>
        obtain ⟨_, stepped⟩ := Option.ite_none_right_eq_some.mp stepped
        split at stepped
        · cases stepped
          exact unawaited
        · rename_i unconfigured
          obtain ⟨store, now, waits⟩ := synchronize_spec stepped
          intro other otherHost waiting
          rw [store, now]
          rcases waits other otherHost waiting with earlier | called
          · exact unawaited other otherHost earlier
          · cases called
            exact fun found => unconfigured ⟨lasting, found⟩
    | grant thread =>
        obtain ⟨store, now, waits⟩ := synchronize_spec stepped
        refine unawaited.of_stored ?_ ?_
        · intro other host waiting
          rcases waits other host waiting with earlier | called
          · exact earlier
          · cases called
        · rw [store, now]
          exact fun _ found => found
    | timeout thread =>
        obtain ⟨store, now, waits⟩ := synchronize_spec stepped
        refine unawaited.of_stored ?_ ?_
        · intro other host waiting
          rcases waits other host waiting with earlier | called
          · exact earlier
          · cases called
        · rw [store, now]
          exact fun _ found => found
    | finish thread config =>
        obtain ⟨store, now, waits⟩ := synchronize_spec stepped
        intro other host waiting
        rw [store, now]
        rcases waits other host waiting with earlier | called
        · exact ends other host earlier
        · cases called
    | tick duration =>
        cases stepped
        have later : before.now ≤ before.now + duration := by omega
        exact unawaited.of_stored (fun _ _ waiting => waiting) fun _ found => found.earlier later
    | evict host =>
        cases stepped
        exact unawaited.of_stored (fun _ _ waiting => waiting) fun _ found => found.of_evict

/-- In a run whose loads end only when no request waits for a host that they leave
configured, no waiting request starts another load of a configured host. -/
theorem waiting_loads_once (lasting : ttl ≠ 0) {state : LazyLoader Value Thread}
    (reachable : (machine ttl pathRouting start).ReachableWithin (EndsUnawaited ttl) state)
    (action : Action Value Thread) : ¬ state.LoadsAgain action := by
  rintro ⟨thread, host, _, waiting, configured⟩
  exact (unawaited_invariant lasting).of_reachable reachable thread host waiting configured

/-- A load that leaves its host configured while a request waits on the same lock is
followed by another load of that host, as soon as the request wakes up. -/
theorem loadsAgain_of_awaited {thread other : Thread} {host : String} {sema : Nat}
    {config : Option (Configuration Value)}
    (executing : before.synchronization.threads thread = .executing host sema)
    (waiting : before.synchronization.threads other = .waiting host sema)
    (configured : (before.configure ttl config).Configured before.now host) :
    ∃ ended, (machine ttl pathRouting start).next before (.finish thread config) = some ended ∧
      ended.LoadsAgain (.grant other) ∧
      ((machine ttl pathRouting start).next ended (.grant other)).isSome := by
  have different : other ≠ thread := by
    intro same
    rw [same, executing] at waiting
    cases waiting
  refine ⟨⟨((before.synchronization.release host).post sema).move thread .idle,
    before.configure ttl config, before.now⟩, ?_, ⟨other, host, rfl, ?_, configured⟩, ?_⟩
  · simp only [machine, synchronize, Synchronization.machine, executing, Option.map_some]
  · exact LightThread.awaited_eq_some.mpr
      ⟨sema, (Function.update_of_ne different ..).trans waiting⟩
  · have queued : (((before.synchronization.release host).post sema).move thread .idle).threads
        other = .waiting host sema := (Function.update_of_ne different ..).trans waiting
    have free : 0 < (((before.synchronization.release host).post sema).move thread
        .idle).resources sema := by
      change 0 < Function.update before.synchronization.resources sema _ sema
      rw [Function.update_self]
      exact Nat.succ_pos _
    simp only [machine, synchronize, Synchronization.machine, queued, if_pos free, Option.map_some,
      Option.isSome_some]

/-- A configuration with one service on one host. -/
def single : Configuration Unit where
  services := [⟨"1", ["host"], ⟨none, ∅⟩⟩]
  oidc := []
  ttl := none

/-- The second of two requests for a host loads it again after the first has left it
configured. -/
theorem loadsAgain_second_request :
    let machine : Machine (LazyLoader Unit (Fin 2)) _ := machine 60 false 0
    ∃ state, machine.run machine.initial
        [.rewrite 0 "host", .rewrite 1 "host", .finish 0 (some single)] = some state ∧
      state.LoadsAgain (.grant 1) ∧ (machine.next state (.grant 1)).isSome := by
  intro machine
  have seen : (machine.run machine.initial
      [.rewrite 0 "host", .rewrite 1 "host", .finish 0 (some single)]).map (fun state =>
        ((state.synchronization.threads 1).awaited,
          decide (state.store.Configured state.now "host"),
          (machine.next state (.grant 1)).isSome)) =
      some (some "host", true, true) := by decide
  obtain ⟨state, executed, facts⟩ := Option.map_eq_some_iff.mp seen
  obtain ⟨waiting, configured, enabled⟩ := Prod.mk.inj facts |>.imp_right Prod.mk.inj
  exact ⟨state, executed, ⟨1, "host", rfl, waiting, of_decide_eq_true configured⟩, enabled⟩

/-- A request that waited for a load which found nothing loads the host itself, and this is
not another load of a configured host. -/
theorem waiting_loads_once_failed :
    let machine : Machine (LazyLoader Unit (Fin 2)) _ := machine 60 false 0
    ∃ state, machine.runWithin (EndsUnawaited 60) machine.initial
        [.rewrite 0 "host", .rewrite 1 "host", .finish 0 none] = some state ∧
      state.WaitsFor 1 "host" ∧ (machine.next state (.grant 1)).isSome ∧
      ∀ action, ¬ state.LoadsAgain action := by
  intro machine
  have seen : (machine.runWithin (EndsUnawaited 60) machine.initial
      [.rewrite 0 "host", .rewrite 1 "host", .finish 0 none]).map (fun state =>
        ((state.synchronization.threads 1).awaited, (machine.next state (.grant 1)).isSome)) =
      some (some "host", true) := by decide
  obtain ⟨state, executed, facts⟩ := Option.map_eq_some_iff.mp seen
  obtain ⟨waiting, enabled⟩ := Prod.mk.inj facts
  exact ⟨state, executed, waiting, enabled, waiting_loads_once (by decide)
    (Machine.ReachableWithin.run .initial executed)⟩

end LazyLoader

end Apicast
