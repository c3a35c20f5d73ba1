import Apicast.Configuration.Filter
import Apicast.Configuration.Journal
import Apicast.LazyLoader

/-!
# Reloading the configuration

`configuration_loader.lua`: in boot mode the configuration is loaded before the workers start,
and every worker replaces its copy from a timer that starts itself again. In lazy mode loads are
added to the store one after the other. The management API changes the same store.
-/

namespace Apicast

open Foundation

/-- One worker in boot mode: its copy of the configuration, the moments at which its timers are
due, and the number of timers whose handler loads a configuration. -/
structure BootLoader (Value : Type*) where
  configuration : ConfigurationStore Value
  now : Int
  timers : List Int
  refreshing : Nat

namespace BootLoader

open ConfigurationStore

variable {Value : Type*}

/-- What the environment decides: the selection of services, and the time to live, which
`tonumber` does not always find. -/
structure Settings (Value : Type*) where
  text : String → Value
  filter : ServiceFilter
  ttl : Option Int
  pathRouting : Bool

/-- `boot_reserved_domain` -/
def bootReservedDomain : String := "boot.test"

/-- The reserved configuration that `boot.init` stores. -/
def reserved : RawConfiguration Value where
  services := [⟨some "-1", none, some ⟨none, none, none, none, some [bootReservedDomain]⟩⟩]
  oidc := []

/-- `_M.configure`, with contents that `configuration_parser.decode` reads or not. -/
def configure (settings : Settings Value) (configuration : ConfigurationStore Value) (now : Int)
    (contents : Option (RawConfiguration Value)) (resetCache : Bool) :
    ConfigurationStore Value × Option (Configuration Value) :=
  match contents.map (Configuration.new settings.text settings.filter) with
  | some config =>
      let emptied := if resetCache then configuration.reset else configuration
      (emptied.store now config settings.ttl, some config)
  | none => (configuration, none)

/-- `boot.init`; without a result the process exits. -/
def init (settings : Settings Value) (now : Int) (config : Option (RawConfiguration Value)) :
    Option (ConfigurationStore Value) :=
  match configure settings (ConfigurationStore.new settings.pathRouting) now config false with
  | (configuration, some _) =>
      if settings.ttl = some 0 then none
      else some (configure settings configuration now (some reserved) false).1
  | (_, none) => none

/-- `boot.ttl() or 0` -/
def interval (settings : Settings Value) : Int := settings.ttl.getD 0

/-- `ngx.timer.at`, which can fail. -/
def schedule (self : BootLoader Value) (delay : Int) (created : Bool) : BootLoader Value :=
  if created then { self with timers := (self.now + delay) :: self.timers } else self

/-- `boot.init_worker` -/
def initWorker (settings : Settings Value) (configuration : ConfigurationStore Value) (now : Int)
    (created : Bool) : BootLoader Value :=
  let worker : BootLoader Value := ⟨configuration, now, [], 0⟩
  if 0 < interval settings then
    let bootReservedHosts := configuration.findByHost now bootReservedDomain false
    worker.schedule (if bootReservedHosts.length = 0 then 0 else interval settings) created
  else worker

inductive Action (Value : Type*)
  | tick (duration : Nat)
  /-- A timer runs its handler, which returns at once when the worker exits. -/
  | fire (due : Int) (premature : Bool)
  /-- `refresh_configuration` ends, also when the load has raised an error, and the handler
  schedules itself again. -/
  | refresh (contents : Option (RawConfiguration Value)) (created : Bool)
  /-- `management.lua`, `_M.update_config` and `_M.boot` -/
  | updateConfig (contents : Option (RawConfiguration Value))
  /-- `management.lua`, `_M.delete_config` -/
  | deleteConfig
  | evictHost (host : String)
  | evictId (id : String)

def machine (settings : Settings Value) (worker : BootLoader Value) :
    Machine (BootLoader Value) (Action Value) where
  initial := worker
  next self
    | .tick duration => some { self with now := self.now + duration }
    | .fire due premature =>
        if due ∈ self.timers ∧ (premature ∨ due ≤ self.now) then
          some { self with
            timers := self.timers.erase due
            refreshing := if premature then self.refreshing else self.refreshing + 1 }
        else none
    | .refresh contents created =>
        if 0 < self.refreshing then
          let configured := (configure settings self.configuration self.now contents true).1
          let updated := { self with
            configuration := configured, refreshing := self.refreshing - 1 }
          some (updated.schedule (interval settings) created)
        else none
    | .updateConfig contents =>
        some { self with
          configuration := (configure settings self.configuration self.now contents false).1 }
    | .deleteConfig => some { self with configuration := self.configuration.reset }
    | .evictHost host => some { self with configuration := self.configuration.evict host }
    | .evictId id => some { self with configuration := self.configuration.evictId id }

section Journal

variable (settings : Settings Value)

/-- The loads that count after an action: a reload makes the earlier ones forgotten, a failed
one does not count. -/
def journalNext (journal : List (Configuration Value)) :
    Action Value → List (Configuration Value)
  | .refresh (some contents) _ => [Configuration.new settings.text settings.filter contents]
  | .updateConfig (some contents) =>
      Configuration.new settings.text settings.filter contents :: journal
  | .deleteConfig => []
  | _ => journal

/-- The loads that count after actions of a worker that was booted with a configuration. -/
def journal (booted : RawConfiguration Value) (actions : List (Action Value)) :
    List (Configuration Value) :=
  actions.foldl (journalNext settings)
    [Configuration.new settings.text settings.filter reserved,
      Configuration.new settings.text settings.filter booted]

/-- The action drops an entry of the store. -/
def Action.evicts : Action Value → Bool
  | .evictHost _ | .evictId _ => true
  | _ => false

variable {settings} {before after worker : BootLoader Value}
  {loads : List (Configuration Value)} {action : Action Value}

theorem schedule_configuration (delay : Int) (created : Bool) :
    (before.schedule delay created).configuration = before.configuration := by
  cases created <;> rfl

theorem initWorker_configuration (settings : Settings Value)
    (configuration : ConfigurationStore Value) (now : Int) (created : Bool) :
    (initWorker settings configuration now created).configuration = configuration := by
  unfold initWorker
  split
  · exact schedule_configuration _ created
  · rfl

/-- What an action does to the store: it drops an entry or nothing, it empties the store, or it
configures the store with contents. -/
theorem configuration_next (loads : List (Configuration Value))
    (stepped : (machine settings worker).next before action = some after) :
    (after.configuration = before.configuration ∧ journalNext settings loads action = loads) ∨
      (action.evicts = true ∧ journalNext settings loads action = loads ∧
        ((∃ host, after.configuration = before.configuration.evict host) ∨
          ∃ id, after.configuration = before.configuration.evictId id)) ∨
      (after.configuration = before.configuration.reset ∧
        journalNext settings loads action = []) ∨
      ∃ config,
        (after.configuration = before.configuration.store before.now config settings.ttl ∧
          journalNext settings loads action = config :: loads) ∨
        (after.configuration = before.configuration.reset.store before.now config settings.ttl ∧
          journalNext settings loads action = [config]) := by
  cases action with
  | tick duration =>
      cases stepped
      exact .inl ⟨rfl, rfl⟩
  | fire due premature =>
      obtain ⟨_, rfl⟩ := Option.ite_none_right_eq_some.mp stepped |>.imp_right Option.some.inj
      exact .inl ⟨rfl, rfl⟩
  | refresh contents created =>
      obtain ⟨_, rfl⟩ := Option.ite_none_right_eq_some.mp stepped |>.imp_right Option.some.inj
      rw [schedule_configuration]
      cases contents with
      | none => exact .inl ⟨rfl, rfl⟩
      | some contents => exact .inr (.inr (.inr ⟨_, .inr ⟨rfl, rfl⟩⟩))
  | updateConfig contents =>
      cases stepped
      cases contents with
      | none => exact .inl ⟨rfl, rfl⟩
      | some contents => exact .inr (.inr (.inr ⟨_, .inl ⟨rfl, rfl⟩⟩))
  | deleteConfig =>
      cases stepped
      exact .inr (.inr (.inl ⟨rfl, rfl⟩))
  | evictHost host =>
      cases stepped
      exact .inr (.inl ⟨rfl, rfl, .inl ⟨host, rfl⟩⟩)
  | evictId id =>
      cases stepped
      exact .inr (.inl ⟨rfl, rfl, .inr ⟨id, rfl⟩⟩)

theorem records_next (records : before.configuration.Records loads)
    (stepped : (machine settings worker).next before action = some after) :
    after.configuration.Records (journalNext settings loads action) := by
  rcases configuration_next loads stepped with
    ⟨same, count⟩ | ⟨_, count, ⟨host, dropped⟩ | ⟨id, dropped⟩⟩ | ⟨emptied, count⟩ |
    ⟨config, ⟨stored, count⟩ | ⟨stored, count⟩⟩
  · rw [same, count]
    exact records
  · rw [dropped, count]
    exact records.evict host
  · rw [dropped, count]
    exact records.evictId id
  · rw [emptied, count]
    exact (retains_reset before.configuration).records
  · rw [stored, count]
    exact records.store config
  · rw [stored, count]
    exact ((retains_reset before.configuration).store config).records

theorem retains_next (retains : before.configuration.Retains loads)
    (keeps : action.evicts = false)
    (stepped : (machine settings worker).next before action = some after) :
    after.configuration.Retains (journalNext settings loads action) := by
  rcases configuration_next loads stepped with
    ⟨same, count⟩ | ⟨evicts, _⟩ | ⟨emptied, count⟩ | ⟨config, ⟨stored, count⟩ | ⟨stored, count⟩⟩
  · rw [same, count]
    exact retains
  · rw [keeps] at evicts
    cases evicts
  · rw [emptied, count]
    exact retains_reset before.configuration
  · rw [stored, count]
    exact retains.store config
  · rw [stored, count]
    exact (retains_reset before.configuration).store config

/-- A booted store retains its configuration and the reserved one. -/
theorem retains_init {now : Int} {booted : RawConfiguration Value}
    {configuration : ConfigurationStore Value}
    (started : init settings now (some booted) = some configuration) :
    configuration.Retains (journal settings booted []) := by
  obtain ⟨_, rfl⟩ := Option.ite_none_left_eq_some.mp started |>.imp_right Option.some.inj
  exact ((retains_new settings.pathRouting).store _).store _

end Journal

/-- Whatever happens to a worker in boot mode, its store records the loads that count. -/
theorem records_run {settings : Settings Value} {booted : RawConfiguration Value}
    {configuration : ConfigurationStore Value} {masterStart start : Int} {created : Bool}
    {actions : List (Action Value)} {state : BootLoader Value}
    (started : init settings masterStart (some booted) = some configuration)
    (executed : (machine settings (initWorker settings configuration start created)).run
      (initWorker settings configuration start created) actions = some state) :
    state.configuration.Records (journal settings booted actions) := by
  let recorded (past : List (Action Value)) (state : BootLoader Value) : Prop :=
    state.configuration.Records (journal settings booted past)
  have initially : recorded [] (initWorker settings configuration start created) := by
    unfold recorded
    rw [initWorker_configuration]
    exact (retains_init started).records
  refine Machine.run_records initially ?_ executed
  intro past before action after held stepped
  unfold recorded journal
  rw [List.foldl_append]
  exact records_next held stepped

/-- Whatever happens to a worker in boot mode, a lookup answers from the newest load that counts
and knows the key, or finds nothing; without evictions a lookup that takes stale entries does find
what that load has. -/
theorem worker_answers_from_journal {settings : Settings Value} {booted : RawConfiguration Value}
    {configuration : ConfigurationStore Value} {masterStart start : Int} {created : Bool}
    {actions : List (Action Value)} {state : BootLoader Value}
    (started : init settings masterStart (some booted) = some configuration)
    (executed : (machine settings (initWorker settings configuration start created)).run
      (initWorker settings configuration start created) actions = some state) :
    state.configuration.Records (journal settings booted actions) ∧
      ((∀ action ∈ actions, action.evicts = false) →
        state.configuration.Retains (journal settings booted actions)) := by
  let retained (past : List (Action Value)) (state : BootLoader Value) : Prop :=
    (∀ action ∈ past, action.evicts = false) →
      state.configuration.Retains (journal settings booted past)
  have initially : retained [] (initWorker settings configuration start created) := by
    unfold retained
    rw [initWorker_configuration]
    exact fun _ => retains_init started
  refine ⟨records_run started executed, Machine.run_records initially ?_ executed⟩
  intro past before action after held stepped
  unfold retained journal
  rw [List.foldl_append]
  intro keeps
  have earlier := held fun action member => keeps action (List.mem_append_left _ member)
  exact retains_next earlier (keeps action (List.mem_append_right _ List.mem_cons_self)) stepped

/-- A reload every minute, of all services. -/
def minutely : Settings Unit where
  text _ := ()
  filter := ⟨[], none, fun _ => true, fun _ _ => true⟩
  ttl := some 60
  pathRouting := false

/-- A decoded configuration of one service on one host. -/
def oneService (id host : String) : RawConfiguration Unit where
  services := [⟨some id, none, some ⟨none, none, none, none, some [host]⟩⟩]
  oidc := []

/-- A worker whose reload brings another service. -/
theorem worker_answers_from_journal_reload :
    let actions := [.tick 60, .fire 60 false, .refresh (some (oneService "2" "b.test")) true]
    ∃ configuration state, init minutely 0 (some (oneService "1" "a.test")) = some configuration ∧
      (machine minutely (initWorker minutely configuration 0 true)).run
        (initWorker minutely configuration 0 true) actions = some state ∧
      state.configuration.Records (journal minutely (oneService "1" "a.test") actions) ∧
      state.configuration.Retains (journal minutely (oneService "1" "a.test") actions) := by
  intro actions
  have runs : ((init minutely 0 (some (oneService "1" "a.test"))).bind fun configuration =>
      (machine minutely (initWorker minutely configuration 0 true)).run
        (initWorker minutely configuration 0 true) actions).isSome := by decide
  obtain ⟨state, both⟩ := Option.isSome_iff_exists.mp runs
  obtain ⟨configuration, started, executed⟩ := Option.bind_eq_some_iff.mp both
  obtain ⟨records, retains⟩ := worker_answers_from_journal started executed
  exact ⟨configuration, state, started, executed, records, retains (by decide)⟩

section Timers

variable {settings : Settings Value} {before after worker : BootLoader Value}
  {action : Action Value} {start : Int} {fires : Nat}

/-- The action starts a reload. -/
def Action.reloads : Action Value → Bool
  | .fire _ premature => !premature
  | _ => false

/-- The action ends the chain of reloads: the worker exits, or no timer is created. -/
def Action.ends : Action Value → Bool
  | .fire _ premature => premature
  | .refresh _ created => !created
  | _ => false

/-- The time that passes in an action. -/
def Action.duration : Action Value → Nat
  | .tick duration => duration
  | _ => 0

/-- The time that passes in actions. -/
def elapsed (actions : List (Action Value)) : Nat := (actions.map Action.duration).sum

/-- After a number of reloads there is at most one timer or reload, and enough time has
passed for the reloads. -/
structure Paced (settings : Settings Value) (start : Int) (fires : Nat)
    (state : BootLoader Value) : Prop where
  single : state.timers.length + state.refreshing ≤ 1
  due : ∀ due ∈ state.timers, start + fires * interval settings ≤ due
  spaced : start + fires * interval settings ≤ state.now + interval settings

/-- The handlers and timers of a worker that schedules its reloads. -/
theorem Paced.next (paced : Paced settings start fires before)
    (stepped : (machine settings worker).next before action = some after) :
    Paced settings start (fires + if action.reloads then 1 else 0) after ∧
      (action.ends = false →
        after.timers.length + after.refreshing = before.timers.length + before.refreshing) := by
  obtain ⟨single, due, spaced⟩ := paced
  cases action with
  | tick duration =>
      cases stepped
      refine ⟨⟨single, due, ?_⟩, fun _ => rfl⟩
      change start + fires * interval settings ≤ before.now + duration + interval settings
      omega
  | fire moment premature =>
      obtain ⟨⟨listed, reached⟩, rfl⟩ :=
        Option.ite_none_right_eq_some.mp stepped |>.imp_right Option.some.inj
      have nonempty := List.length_pos_of_mem listed
      have shorter := List.length_erase_of_mem listed
      have emptied : before.timers.erase moment = [] := List.eq_nil_of_length_eq_zero (by omega)
      cases premature with
      | true =>
          refine ⟨⟨?_, ?_, spaced⟩, fun lasting => by cases lasting⟩
          · change (before.timers.erase moment).length + before.refreshing ≤ 1
            omega
          · intro other member
            rw [emptied] at member
            cases member
      | false =>
          have passed : moment ≤ before.now := reached.resolve_left Bool.false_ne_true
          have planned := due moment listed
          refine ⟨⟨?_, ?_, ?_⟩, fun _ => ?_⟩
          · change (before.timers.erase moment).length + (before.refreshing + 1) ≤ 1
            omega
          · intro other member
            rw [emptied] at member
            cases member
          · change start + ((fires + 1 : Nat) : Int) * interval settings ≤
              before.now + interval settings
            rw [Nat.cast_succ, add_mul, one_mul]
            omega
          · change (before.timers.erase moment).length + (before.refreshing + 1) = _
            omega
  | refresh contents created =>
      obtain ⟨running, rfl⟩ :=
        Option.ite_none_right_eq_some.mp stepped |>.imp_right Option.some.inj
      have none : before.timers = [] := List.eq_nil_of_length_eq_zero (by omega)
      cases created with
      | true =>
          refine ⟨⟨?_, ?_, spaced⟩, fun _ => ?_⟩
          · change (_ :: before.timers).length + (before.refreshing - 1) ≤ 1
            rw [none, List.length_singleton]
            omega
          · intro other member
            change other ∈ (before.now + interval settings) :: before.timers at member
            rw [none, List.mem_singleton] at member
            rw [member]
            exact spaced
          · change (_ :: before.timers).length + (before.refreshing - 1) = _
            rw [none, List.length_singleton, List.length_nil]
            omega
      | false =>
          refine ⟨⟨?_, ?_, spaced⟩, fun lasting => by cases lasting⟩
          · change before.timers.length + (before.refreshing - 1) ≤ 1
            omega
          · intro other member
            change other ∈ before.timers at member
            rw [none] at member
            cases member
  | updateConfig contents =>
      cases stepped
      exact ⟨⟨single, due, spaced⟩, fun _ => rfl⟩
  | deleteConfig =>
      cases stepped
      exact ⟨⟨single, due, spaced⟩, fun _ => rfl⟩
  | evictHost host =>
      cases stepped
      exact ⟨⟨single, due, spaced⟩, fun _ => rfl⟩
  | evictId id =>
      cases stepped
      exact ⟨⟨single, due, spaced⟩, fun _ => rfl⟩

/-- Only ticks take time, and every timer that is added is due after the interval. -/
theorem timers_next (stepped : (machine settings worker).next before action = some after) :
    after.now = before.now + action.duration ∧
      ∀ due ∈ after.timers, due ∈ before.timers ∨ before.now + interval settings ≤ due := by
  cases action with
  | tick duration =>
      cases stepped
      exact ⟨rfl, fun due => .inl⟩
  | fire moment premature =>
      obtain ⟨_, rfl⟩ := Option.ite_none_right_eq_some.mp stepped |>.imp_right Option.some.inj
      exact ⟨(add_zero _).symm, fun due member => .inl (List.mem_of_mem_erase member)⟩
  | refresh contents created =>
      obtain ⟨_, rfl⟩ := Option.ite_none_right_eq_some.mp stepped |>.imp_right Option.some.inj
      cases created with
      | false => exact ⟨(add_zero _).symm, fun due => .inl⟩
      | true =>
          refine ⟨(add_zero _).symm, fun due member => ?_⟩
          rcases List.mem_cons.mp member with rfl | member
          · exact .inr (le_refl _)
          · exact .inl member
  | updateConfig _ | deleteConfig | evictHost _ | evictId _ =>
      cases stepped
      exact ⟨(add_zero _).symm, fun due => .inl⟩

/-- From a moment without timers on, no timer is due before the interval has passed. -/
theorem timers_run {actions : List (Action Value)} (none : before.timers = [])
    (executed : (machine settings worker).run before actions = some after) :
    after.now = before.now + elapsed actions ∧
      ∀ due ∈ after.timers, before.now + interval settings ≤ due := by
  let recorded (past : List (Action Value)) (state : BootLoader Value) : Prop :=
    state.now = before.now + elapsed past ∧
      ∀ due ∈ state.timers, before.now + interval settings ≤ due
  have initially : recorded [] before :=
    ⟨(add_zero _).symm, fun due member => absurd (none ▸ member) List.not_mem_nil⟩
  refine (Machine.run_records initially ?_ executed : recorded actions after)
  intro past state action next held stepped
  obtain ⟨passed, planned⟩ := held
  obtain ⟨later, added⟩ := timers_next stepped
  have counted : elapsed (past ++ [action]) = elapsed past + action.duration := by
    unfold elapsed
    rw [List.map_append, List.sum_append, List.map_singleton, List.sum_singleton]
  refine ⟨by rw [later, passed, counted, Nat.cast_add, add_assoc], fun due member => ?_⟩
  rcases added due member with before | since
  · exact planned due before
  · omega

/-- A reload that is started takes the only timer with it. -/
theorem timers_of_fire {due : Int} (single : before.timers.length + before.refreshing ≤ 1)
    (stepped : (machine settings worker).next before (.fire due false) = some after) :
    due ∈ before.timers ∧ due ≤ before.now ∧ after.timers = [] ∧ after.now = before.now := by
  obtain ⟨⟨listed, reached⟩, rfl⟩ :=
    Option.ite_none_right_eq_some.mp stepped |>.imp_right Option.some.inj
  have nonempty := List.length_pos_of_mem listed
  have shorter := List.length_erase_of_mem listed
  have emptied : before.timers.erase due = [] := List.eq_nil_of_length_eq_zero (by omega)
  exact ⟨listed, reached.resolve_left Bool.false_ne_true, emptied, rfl⟩

/-- Without a timer and a reload, none is ever started. -/
theorem idle_next (idle : before.timers = [] ∧ before.refreshing = 0)
    (stepped : (machine settings worker).next before action = some after) :
    (after.timers = [] ∧ after.refreshing = 0) ∧ action.reloads = false := by
  obtain ⟨none, still⟩ := idle
  cases action with
  | fire moment premature =>
      obtain ⟨⟨listed, _⟩, _⟩ := Option.ite_none_right_eq_some.mp stepped
      rw [none] at listed
      cases listed
  | refresh contents created =>
      obtain ⟨running, _⟩ := Option.ite_none_right_eq_some.mp stepped
      omega
  | tick _ | updateConfig _ | deleteConfig | evictHost _ | evictId _ =>
      cases stepped
      exact ⟨⟨none, still⟩, rfl⟩

theorem paced_initWorker (positive : 0 < interval settings)
    (configuration : ConfigurationStore Value) (created : Bool) :
    Paced settings start 0 (initWorker settings configuration start created) ∧
      ((initWorker settings configuration start created).timers.length +
        (initWorker settings configuration start created).refreshing =
          if created then 1 else 0) := by
  unfold initWorker
  rw [if_pos positive]
  cases created with
  | false =>
      refine ⟨⟨Nat.zero_le 1, ?_, ?_⟩, rfl⟩
      · intro due member
        cases member
      · change start + (0 : Nat) * interval settings ≤ start + interval settings
        rw [Nat.cast_zero, zero_mul]
        omega
  | true =>
      refine ⟨⟨le_refl 1, ?_, ?_⟩, rfl⟩
      · intro due member
        rw [List.mem_singleton.mp member, Nat.cast_zero, zero_mul]
        dsimp only
        split <;> omega
      · change start + (0 : Nat) * interval settings ≤ start + interval settings
        rw [Nat.cast_zero, zero_mul]
        omega

end Timers

/-- With a positive interval the reloads are paced. -/
theorem paced_run {settings : Settings Value} {configuration : ConfigurationStore Value}
    {start : Int} {created : Bool} {actions : List (Action Value)} {state : BootLoader Value}
    (positive : 0 < interval settings)
    (executed : (machine settings (initWorker settings configuration start created)).run
      (initWorker settings configuration start created) actions = some state) :
    Paced settings start (actions.countP Action.reloads) state ∧
      (created = true → (∀ action ∈ actions, action.ends = false) →
        state.timers.length + state.refreshing = 1) := by
  obtain ⟨paced, planned⟩ := @paced_initWorker _ settings start positive configuration created
  let recorded (past : List (Action Value)) (state : BootLoader Value) : Prop :=
    Paced settings start (past.countP Action.reloads) state ∧
      (created = true → (∀ action ∈ past, action.ends = false) →
        state.timers.length + state.refreshing = 1)
  have initially : recorded [] (initWorker settings configuration start created) :=
    ⟨paced, fun possible _ => planned.trans (if_pos possible)⟩
  refine (Machine.run_records initially ?_ executed : recorded actions state)
  intro past before action after held stepped
  obtain ⟨next, kept⟩ := held.1.next stepped
  refine ⟨?_, ?_⟩
  · rw [List.countP_append, List.countP_singleton]
    exact next
  · intro possible lasting
    rw [kept (lasting action (List.mem_append_right _ List.mem_cons_self))]
    exact held.2 possible fun action member => lasting action (List.mem_append_left _ member)

/-- Without one nothing is ever scheduled. -/
theorem idle_run {settings : Settings Value} {configuration : ConfigurationStore Value}
    {start : Int} {created : Bool} {actions : List (Action Value)} {state : BootLoader Value}
    (absent : ¬ 0 < interval settings)
    (executed : (machine settings (initWorker settings configuration start created)).run
      (initWorker settings configuration start created) actions = some state) :
    state.timers = [] ∧ state.refreshing = 0 ∧ actions.countP Action.reloads = 0 := by
  let recorded (past : List (Action Value)) (state : BootLoader Value) : Prop :=
    (state.timers = [] ∧ state.refreshing = 0) ∧ past.countP Action.reloads = 0
  have unscheduled : initWorker settings configuration start created =
      ⟨configuration, start, [], 0⟩ := if_neg absent
  have initially : recorded [] (initWorker settings configuration start created) := by
    unfold recorded
    rw [unscheduled]
    exact ⟨⟨rfl, rfl⟩, rfl⟩
  have held : recorded actions state := by
    refine Machine.run_records initially ?_ executed
    intro past before action after held stepped
    obtain ⟨next, kept⟩ := idle_next held.1 stepped
    refine ⟨next, ?_⟩
    rw [List.countP_append, List.countP_singleton, held.2, kept]
    rfl
  exact ⟨held.1.1, held.1.2, held.2⟩

/-- In every run of a worker at most one timer or reload exists, and enough time has passed for the
reloads. -/
theorem recurs_run {settings : Settings Value} {configuration : ConfigurationStore Value}
    {start : Int} {created : Bool} {actions : List (Action Value)} {state : BootLoader Value}
    (executed : (machine settings (initWorker settings configuration start created)).run
      (initWorker settings configuration start created) actions = some state) :
    state.timers.length + state.refreshing ≤ 1 ∧
      (0 < actions.countP Action.reloads → 0 < interval settings ∧
        ((actions.countP Action.reloads : Int) - 1) * interval settings ≤ state.now - start) ∧
      (0 < interval settings → created = true → (∀ action ∈ actions, action.ends = false) →
        state.timers.length + state.refreshing = 1) := by
  rcases lt_or_ge 0 (interval settings) with positive | absent
  · obtain ⟨⟨single, _, spaced⟩, alive⟩ := paced_run positive executed
    refine ⟨single, fun _ => ⟨positive, ?_⟩, fun _ => alive⟩
    rw [sub_mul, one_mul]
    omega
  · obtain ⟨none, still, never⟩ := idle_run (not_lt.mpr absent) executed
    refine ⟨?_, ?_, fun positive => absurd positive (not_lt.mpr absent)⟩
    · rw [none, still]
      exact Nat.zero_le 1
    · intro some
      omega

/-- In every run of a worker at most one timer or reload exists, and between the starts of any two
reloads at least the interval passes. When timers can be created and the worker does not exit,
there always is a timer or a reload, however many reloads fail. Without a positive interval nothing
is ever reloaded. -/
theorem reloads_recur (settings : Settings Value) (configuration : ConfigurationStore Value)
    (start : Int) (created : Bool) {actions : List (Action Value)} {state : BootLoader Value}
    (executed : (machine settings (initWorker settings configuration start created)).run
      (initWorker settings configuration start created) actions = some state) :
    state.timers.length + state.refreshing ≤ 1 ∧
      (∀ first due between later last,
        actions = first ++ .fire due false :: (between ++ .fire later false :: last) →
          interval settings ≤ elapsed between) ∧
      (0 < actions.countP Action.reloads → 0 < interval settings ∧
        ((actions.countP Action.reloads : Int) - 1) * interval settings ≤ state.now - start) ∧
      (0 < interval settings → created = true → (∀ action ∈ actions, action.ends = false) →
        state.timers.length + state.refreshing = 1) := by
  obtain ⟨single, counted, alive⟩ := recurs_run executed
  refine ⟨single, ?_, counted, alive⟩
  rintro first due between later last rfl
  rw [Machine.run_append] at executed
  obtain ⟨before, ran, executed⟩ := Option.bind_eq_some_iff.mp executed
  obtain ⟨fired, stepped, executed⟩ := Option.bind_eq_some_iff.mp executed
  rw [Machine.run_append] at executed
  obtain ⟨waited, rested, executed⟩ := Option.bind_eq_some_iff.mp executed
  obtain ⟨again, repeated, -⟩ := Option.bind_eq_some_iff.mp executed
  obtain ⟨-, -, none, -⟩ := timers_of_fire (recurs_run ran).1 stepped
  obtain ⟨passed, planned⟩ := timers_run none rested
  obtain ⟨⟨listed, reached⟩, -⟩ := Option.ite_none_right_eq_some.mp repeated
  have awaited := planned later listed
  have fallen : later ≤ waited.now := reached.resolve_left Bool.false_ne_true
  omega

/-- Two reloads, the first of which fails, with 70 seconds between them. -/
theorem reloads_recur_failed :
    let worker := initWorker minutely (ConfigurationStore.new false) 0 true
    let actions := [.fire 0 false, .refresh none true, .tick 70, .fire 60 false]
    ∃ state, (machine minutely worker).run worker actions = some state ∧
      state.timers.length + state.refreshing = 1 ∧
      interval minutely ≤ elapsed ([.refresh none true, .tick 70] : List (Action Unit)) := by
  intro worker actions
  have runs : ((machine minutely worker).run worker actions).isSome := by decide
  obtain ⟨state, executed⟩ := Option.isSome_iff_exists.mp runs
  obtain ⟨-, spaced, -, alive⟩ := reloads_recur _ _ _ _ executed
  refine ⟨state, executed, alive (by decide) rfl (by decide), ?_⟩
  exact spaced [] 0 [.refresh none true, .tick 70] 60 [] rfl

end BootLoader

namespace LazyLoader

open ConfigurationStore

variable {Value Thread : Type*} [DecidableEq Thread] [Fintype Thread] {ttl : Int}
  {pathRouting : Bool} {start : Int} {before after : LazyLoader Value Thread}

/-- Every load in lazy mode is added to the shared store, unless the time to live is zero. -/
def journalNext (ttl : Int) (journal : List (Configuration Value)) :
    Action Value Thread → List (Configuration Value)
  | .finish _ (some config) => if ttl = 0 then journal else config :: journal
  | _ => journal

/-- The action drops an entry of the store. -/
def Action.evicts : Action Value Thread → Bool
  | .evict _ => true
  | _ => false

/-- What an action does to the store: it drops an entry or nothing, or it adds a load. -/
theorem store_next {loads : List (Configuration Value)} {action : Action Value Thread}
    (stepped : (machine ttl pathRouting start).next before action = some after) :
    (after.store = before.store ∧ journalNext ttl loads action = loads) ∨
      (action.evicts = true ∧ journalNext ttl loads action = loads ∧
        ∃ host, after.store = before.store.evict host) ∨
      ∃ config, after.store = before.store.store before.now config (some ttl) ∧
        journalNext ttl loads action = config :: loads := by
  cases action with
  | rewrite thread host =>
      obtain ⟨_, stepped⟩ := Option.ite_none_right_eq_some.mp stepped
      split at stepped
      · cases stepped
        exact .inl ⟨rfl, rfl⟩
      · exact .inl ⟨(synchronize_spec stepped).1, rfl⟩
  | grant thread => exact .inl ⟨(synchronize_spec stepped).1, rfl⟩
  | timeout thread => exact .inl ⟨(synchronize_spec stepped).1, rfl⟩
  | finish thread contents =>
      have ended : after.store = before.configure ttl contents := (synchronize_spec stepped).1
      cases contents with
      | none => exact .inl ⟨ended, rfl⟩
      | some config =>
          by_cases uncached : ttl = 0
          · exact .inl ⟨ended.trans (if_pos uncached), if_pos uncached⟩
          · exact .inr (.inr ⟨config, ended.trans (if_neg uncached), if_neg uncached⟩)
  | tick duration =>
      cases stepped
      exact .inl ⟨rfl, rfl⟩
  | evict host =>
      cases stepped
      exact .inr (.inl ⟨rfl, rfl, host, rfl⟩)

/-- However requests and their loads interleave, a lookup in the shared store answers from the
newest load that knows the key, or finds nothing; without evictions a lookup that takes stale
entries does find what that load has. -/
theorem lookup_answers_from_journal {actions : List (Action Value Thread)}
    {state : LazyLoader Value Thread}
    (executed : (machine ttl pathRouting start).run (machine ttl pathRouting start).initial
      actions = some state) :
    state.store.Records (actions.foldl (journalNext ttl) []) ∧
      ((∀ action ∈ actions, action.evicts = false) →
        state.store.Retains (actions.foldl (journalNext ttl) [])) := by
  let recorded (past : List (Action Value Thread)) (state : LazyLoader Value Thread) : Prop :=
    state.store.Records (past.foldl (journalNext ttl) []) ∧
      ((∀ action ∈ past, action.evicts = false) →
        state.store.Retains (past.foldl (journalNext ttl) []))
  have initially : recorded [] (machine ttl pathRouting start).initial :=
    ⟨(retains_new pathRouting).records, fun _ => retains_new pathRouting⟩
  refine Machine.run_records initially ?_ executed
  intro past before action after held stepped
  obtain ⟨records, retains⟩ := held
  have earlier (keeps : ∀ other ∈ past ++ [action], other.evicts = false) :
      before.store.Retains (past.foldl (journalNext ttl) []) :=
    retains fun other member => keeps other (List.mem_append_left _ member)
  unfold recorded
  rw [List.foldl_append]
  change after.store.Records (journalNext ttl (past.foldl (journalNext ttl) []) action) ∧
    (_ → after.store.Retains (journalNext ttl (past.foldl (journalNext ttl) []) action))
  rcases store_next stepped with
    ⟨same, count⟩ | ⟨evicts, count, host, dropped⟩ | ⟨config, stored, count⟩
  · rw [same, count]
    exact ⟨records, earlier⟩
  · rw [dropped, count]
    refine ⟨records.evict host, ?_⟩
    intro keeps
    rw [keeps action (List.mem_append_right _ List.mem_cons_self)] at evicts
    cases evicts
  · rw [stored, count]
    exact ⟨records.store config, fun keeps => (earlier keeps).store config⟩

/-- Two loads, by requests for two hosts. -/
theorem lookup_answers_from_journal_two :
    let machine : Machine (LazyLoader Unit Bool) _ := machine 60 false 0
    let actions := [.rewrite true "a", .rewrite false "b", .finish true (some single),
      .finish false (some single)]
    ∃ state, machine.run machine.initial actions = some state ∧
      state.store.Records (actions.foldl (journalNext 60) []) ∧
      state.store.Retains (actions.foldl (journalNext 60) []) := by
  intro machine actions
  have runs : (machine.run machine.initial actions).isSome := by decide
  obtain ⟨state, executed⟩ := Option.isSome_iff_exists.mp runs
  obtain ⟨records, retains⟩ := lookup_answers_from_journal executed
  exact ⟨state, executed, records, retains (by decide)⟩

end LazyLoader

end Apicast
