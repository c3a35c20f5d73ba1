import Apicast.RateLimit.Policy
import Mathlib.Data.List.Induction

/-!
# The error settings of rate limit instances

`_M.new` merges the error settings of a configuration into the table of the
defaults, and every instance keeps a reference to this table. So the instances of
a worker all use the settings that the constructions so far have left there.
-/

namespace Apicast.RateLimit

section Settings

structure ErrorSettings where
  limitsExceeded : ErrorSetting
  configurationIssue : ErrorSetting
  deriving DecidableEq, Repr

def defaultErrorSettings : ErrorSettings where
  limitsExceeded := { statusCode := 429, errorHandling := .exit }
  configurationIssue := { statusCode := 500, errorHandling := .exit }

/-- The settings of one kind of error in a configuration. -/
structure ErrorConfig where
  statusCode : Option Nat
  errorHandling : Option ErrorHandling
  deriving DecidableEq, Repr

/-- The part of the configuration that is about errors. -/
structure PolicyConfig where
  limitsExceededError : Option ErrorConfig
  configurationError : Option ErrorConfig
  deriving DecidableEq, Repr

/-- Overwrite what the configuration gives. -/
def ErrorSetting.override (setting : ErrorSetting) : Option ErrorConfig → ErrorSetting
  | none => setting
  | some config =>
      { statusCode := config.statusCode.getD setting.statusCode
        errorHandling := config.errorHandling.getD setting.errorHandling }

def ErrorSettings.override (settings : ErrorSettings) (config : PolicyConfig) : ErrorSettings where
  limitsExceeded := settings.limitsExceeded.override config.limitsExceededError
  configurationIssue := settings.configurationIssue.override config.configurationError

/-- The settings that a configuration determines by itself: its own values where it gives
any, the defaults elsewhere. -/
def PolicyConfig.determined (config : PolicyConfig) : ErrorSettings :=
  defaultErrorSettings.override config

theorem ErrorSetting.override_idem (setting : ErrorSetting) (config : Option ErrorConfig) :
    (setting.override config).override config = setting.override config := by
  cases config with
  | none => rfl
  | some config =>
      obtain ⟨statusCode, errorHandling⟩ := config
      cases statusCode <;> cases errorHandling <;> rfl

/-- Overwriting twice with the same configuration is overwriting once. -/
theorem ErrorSettings.override_idem (settings : ErrorSettings) (config : PolicyConfig) :
    (settings.override config).override config = settings.override config := by
  unfold override
  rw [ErrorSetting.override_idem, ErrorSetting.override_idem]

end Settings

section Worker

/-- The tables of error settings of a worker, the first of which is the one of the defaults,
and the table that each instance refers to. -/
structure Worker where
  tables : List ErrorSettings
  instances : List Nat

/-- A worker that has loaded the module. -/
def Worker.loaded : Worker where
  tables := [defaultErrorSettings]
  instances := []

/-- `init_error_settings` writes to the table of the defaults and returns it. -/
def initErrorSettings (tables : List ErrorSettings) (config : PolicyConfig) :
    List ErrorSettings × Nat :=
  let errorSettings := 0
  (tables.modify errorSettings fun settings => settings.override config, errorSettings)

/-- `_M.new`, as far as it concerns the error settings. -/
def Worker.new (worker : Worker) (config : PolicyConfig) : Worker :=
  let (tables, errorSettings) := initErrorSettings worker.tables config
  { tables, instances := worker.instances ++ [errorSettings] }

/-- A worker that has created instances with the configurations, one after the other. -/
def Worker.create (configs : List PolicyConfig) : Worker := configs.foldl Worker.new loaded

/-- The settings that an instance reads when it reports an error. -/
def Worker.errorSettings (worker : Worker) (index : Nat) : Option ErrorSettings :=
  worker.instances[index]?.bind fun reference => worker.tables[reference]?

/-- At every moment each instance uses the settings of its own configuration. -/
def Isolated (configs : List PolicyConfig) : Prop :=
  ∀ created later, configs = created ++ later → ∀ index config, created[index]? = some config →
    (Worker.create created).errorSettings index = some config.determined

/-- What a sequence of constructions leaves in the table of the defaults. -/
def merged (configs : List PolicyConfig) : ErrorSettings :=
  configs.foldl ErrorSettings.override defaultErrorSettings

theorem create_append (configs : List PolicyConfig) (config : PolicyConfig) :
    Worker.create (configs ++ [config]) = (Worker.create configs).new config := by
  unfold Worker.create
  rw [List.foldl_append, List.foldl_cons, List.foldl_nil]

theorem merged_append (configs : List PolicyConfig) (config : PolicyConfig) :
    merged (configs ++ [config]) = (merged configs).override config := by
  unfold merged
  rw [List.foldl_append, List.foldl_cons, List.foldl_nil]

/-- There is one table, and all instances refer to it. -/
theorem create_eq (configs : List PolicyConfig) :
    Worker.create configs =
      { tables := [merged configs], instances := List.replicate configs.length 0 } := by
  induction configs using List.reverseRecOn with
  | nil => rfl
  | append_singleton configs config ih =>
      rw [create_append, merged_append, ih, List.length_append, List.length_singleton,
        List.replicate_succ']
      rfl

/-- Every instance uses what the constructions so far have left. -/
theorem errorSettings_create {configs : List PolicyConfig} {index : Nat} {config : PolicyConfig}
    (present : configs[index]? = some config) :
    (Worker.create configs).errorSettings index = some (merged configs) := by
  have created : index < configs.length := (List.getElem?_eq_some_iff.mp present).1
  unfold Worker.errorSettings
  rw [create_eq, List.getElem?_replicate, if_pos created]
  rfl

/-- Configurations that determine the same settings leave these settings. -/
theorem merged_eq_determined {configs : List PolicyConfig} {config : PolicyConfig}
    (same : ∀ other ∈ configs, other.determined = config.determined) (nonempty : configs ≠ []) :
    merged configs = config.determined := by
  induction configs using List.reverseRecOn with
  | nil => exact absurd rfl nonempty
  | append_singleton configs last ih =>
      have own : last.determined = config.determined := same last (by simp)
      rw [merged_append]
      by_cases first : configs = []
      · rw [first]
        exact own
      · have earlier := ih (fun other member => same other (List.mem_append_left _ member)) first
        rw [earlier, ← own]
        exact ErrorSettings.override_idem defaultErrorSettings last

/-- The error settings of the instances are isolated exactly when all configurations
determine the same settings. -/
theorem isolated_iff (configs : List PolicyConfig) :
    Isolated configs ↔
      ∀ config ∈ configs, ∀ other ∈ configs, config.determined = other.determined := by
  constructor
  · intro isolated
    have settles : ∀ config ∈ configs, config.determined = merged configs := by
      intro config member
      obtain ⟨index, present⟩ := List.getElem?_of_mem member
      have own := isolated configs [] (List.append_nil configs).symm index config present
      rw [errorSettings_create present] at own
      exact (Option.some.inj own).symm
    intro config member other otherMember
    rw [settles config member, settles other otherMember]
  · intro same created later split index config present
    have member : config ∈ created := List.mem_of_getElem? present
    rw [errorSettings_create present]
    apply congrArg some
    apply merged_eq_determined
    · intro other otherMember
      apply same
      · rw [split]
        exact List.mem_append_left later otherMember
      · rw [split]
        exact List.mem_append_left later member
    · exact List.ne_nil_of_mem member

/-- An instance that answers rejected requests with 503 makes the next one, which does not
configure any status, do the same. -/
theorem isolated_overridden :
    ¬ Isolated
      [{ limitsExceededError := some { statusCode := some 503, errorHandling := none }
         configurationError := none },
        { limitsExceededError := none, configurationError := none }] := by
  intro isolated
  have second := isolated _ [] (List.append_nil _).symm 1 _ rfl
  revert second
  decide

end Worker

end Apicast.RateLimit
