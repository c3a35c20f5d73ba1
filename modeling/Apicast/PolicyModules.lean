import Apicast.Foundation.DelimitedString
import Apicast.Sandbox
import Mathlib.Data.Set.Basic

/-!
# The modules of policies

`policy_loader.lua`: every policy is loaded by the `require` of a sandbox over its own directory,
with a table of loaded modules that is kept for its name, version and load paths. The key of the
table is one string, and all sandboxes share the modules that are loaded natively. When policy
configurations are validated, every load makes a new table over the module of the policy.
-/

namespace Apicast

open Foundation Inquiry Sandbox

namespace PolicyModules

variable {Object Schema : Type}

/-- What a policy is loaded by. -/
structure Policy where
  name : String
  version : Option String
  dir : Option (List String)
  deriving DecidableEq

/-- What is read of `apicast-policy.json`. -/
structure Manifest (Schema : Type) where
  version : Option String
  configuration : Option Schema

/-- The environment, the manifests in the cache and in directories, and what the sandboxes share. -/
structure PolicyLoader (Object Schema : Type) where
  outside : Surroundings Object
  manifestsCache : String → List (Manifest Schema)
  readManifest : String → Option (Manifest Schema)
  builtinPolicyLoadPath : String
  policyLoadPaths : List String
  /-- `policy_config_validation_is_enabled` -/
  policyConfigValidation : Bool
  /-- The type of an object that cannot be indexed. -/
  unindexed : Object → Option String

/-- `lua_load_path` -/
def luaLoadPath (loadPath : String) : String := loadPath ++ "/?.lua"

/-- What `load_manifest` returns: a load path, with the manifest or without one, or nothing when the
manifest is of another version. -/
inductive Loaded (Schema : Type)
  | manifest (loadPath : String) (configuration : Option Schema)
  | otherVersion
  | noManifest (loadPath : String)

/-- A failure of `load_path`; a missing path is not inserted. -/
def Loaded.failure? : Loaded Schema → Option String
  | .noManifest loadPath => some loadPath
  | _ => none

namespace PolicyLoader

variable (self : PolicyLoader Object Schema)

/-- `get_cached_manifest` -/
def getCachedManifest (name version : String) : Option (Manifest Schema) :=
  (self.manifestsCache name).find? fun manifest => manifest.version = some version

/-- `load_manifest` -/
def loadManifest (name version path : String) : Loaded Schema :=
  match (self.getCachedManifest name version).or (self.readManifest path) with
  | some manifest =>
      if manifest.version = some version then .manifest (luaLoadPath path) manifest.configuration
      else .otherVersion
  | none => .noManifest (luaLoadPath path)

/-- The directories that `load_path` looks into. -/
def directories (name version : String) (paths : Option (List String)) : List String :=
  (if version = "builtin" then [self.builtinPolicyLoadPath ++ "/" ++ name] else []) ++
    (paths.getD self.policyLoadPaths).map fun path => path ++ "/" ++ name ++ "/" ++ version

/-- The loops of `load_path`: the load path of the first manifest and its schema, or else the
failures. -/
def loadPathFrom (name version : String) :
    List String → List String → Except (List String) (String × Option Schema)
  | failures, [] => .error failures
  | failures, path :: paths =>
      match self.loadManifest name version path with
      | .manifest loadPath configuration => .ok (loadPath, configuration)
      | other => loadPathFrom name version (failures ++ other.failure?.toList) paths

/-- `_M:load_path` -/
def loadPath (name version : String) (paths : Option (List String)) :
    Except (List String) (String × Option Schema) :=
  self.loadPathFrom name version [] (self.directories name version paths)

/-- `load_path and { load_path } or invalid_paths` -/
def searched (policy : Policy) : List String :=
  match self.loadPath policy.name (policy.version.getD "builtin") policy.dir with
  | .ok (loadPath, _) => [loadPath]
  | .error invalidPaths => invalidPaths

/-- `policy_config_schema` -/
def policyConfigSchema (policy : Policy) : Option Schema :=
  match self.loadPath policy.name (policy.version.getD "builtin") policy.dir with
  | .ok (_, configuration) => configuration
  | .error _ => none

end PolicyLoader

/-- `cache_key` -/
def cacheKey (policy : Policy) : String :=
  Delimited.joinAll '-' [policy.name, policy.version.getD "builtin",
    (policy.dir.map (Delimited.joinAll ',')).getD ""]

/-- The modules that are loaded natively, `package_cache`, and how many tables were made over
modules. -/
structure PackageCache (Object : Type) where
  rootLoaded : String → Option (ModuleValue Object)
  packages : String → String → Option (ModuleValue Object)
  tables : Nat

/-- The loaded modules that a sandbox for a policy starts with. -/
def PackageCache.packagesOf (cache : PackageCache Object) (policy : Policy) : Packages Object :=
  ⟨cache.rootLoaded, cache.packages (cacheKey policy)⟩

/-- The tables that a sandbox has changed. -/
def PackageCache.keep (cache : PackageCache Object) (policy : Policy)
    (packages : Packages Object) : PackageCache Object :=
  { cache with
    rootLoaded := packages.rootLoaded
    packages := Function.update cache.packages (cacheKey policy) packages.loaded }

/-- What a load returns: the module of the policy, or a table of its own over the module, whose
`new` validates the configuration first. -/
inductive PolicyTable (Object Schema : Type)
  | module (policy : ModuleValue Object)
  | validator (table : Nat) (policy : ModuleValue Object) (policyConfigSchema : Option Schema)

/-- The module behind a table. -/
def PolicyTable.policy : PolicyTable Object Schema → ModuleValue Object
  | .module policy => policy
  | .validator _ policy _ => policy

/-- The type of a module that cannot be indexed. -/
def PolicyLoader.unindexedModule (loader : PolicyLoader Object Schema) :
    ModuleValue Object → Option String
  | .boolean _ => some "boolean"
  | .other object => loader.unindexed object

/-- `with_config_validator`: it reads `policy.new`, and makes a new table. -/
def withConfigValidator (loader : PolicyLoader Object Schema) (policy : ModuleValue Object)
    (policyConfigSchema : Option Schema) (cache : PackageCache Object) :
    Except String (PolicyTable Object Schema) × PackageCache Object :=
  match loader.unindexedModule policy with
  | some type => (.error ("attempt to index local 'policy' (a " ++ type ++ " value)"), cache)
  | none =>
      (.ok (.validator cache.tables policy policyConfigSchema),
        { cache with tables := cache.tables + 1 })

/-- What `_M:call` does with the module that it required. -/
def conclude (loader : PolicyLoader Object Schema) (policy : Policy) (cache : PackageCache Object) :
    Answer Object → Except String (PolicyTable Object Schema) × PackageCache Object
  | .error err => (.error err, cache)
  | .ok res =>
      if loader.policyConfigValidation then
        withConfigValidator loader res (loader.policyConfigSchema policy) cache
      else (.ok (.module res), cache)

/-- `_M:call` -/
def call (loader : PolicyLoader Object Schema) (fuel : Nat) (policy : Policy)
    (cache : PackageCache Object) :
    Option (Except String (PolicyTable Object Schema) × PackageCache Object) :=
  (require loader.outside (loader.searched policy) fuel true "init"
    (cache.packagesOf policy)).map fun answered =>
      conclude loader policy (cache.keep policy answered.2) answered.1

/-- Calls one after the other. -/
def machine (loader : PolicyLoader Object Schema) (cache : PackageCache Object) :
    Machine (PackageCache Object) (Nat × Policy) where
  initial := cache
  next cache called := (call loader called.1 called.2 cache).map Prod.snd

/-- Policies whose modules cannot get in the way of each other: native modules stay apart from the
code of every policy, and one key stands for one place. -/
structure Isolated (loader : PolicyLoader Object Schema) (policies : Set Policy) : Prop where
  apart : ∀ policy ∈ policies, Apart loader.outside (loader.searched policy)
  keys : ∀ policy ∈ policies, ∀ other ∈ policies, cacheKey policy = cacheKey other →
    loader.searched policy = loader.searched other

/-- Modules that are loaded natively before any policy: none of them has the name of code of a
policy. -/
def NativeOnly (loader : PolicyLoader Object Schema) (policies : Set Policy)
    (rootLoaded : String → Option (ModuleValue Object)) : Prop :=
  ∀ policy ∈ policies, ∀ modname mod, rootLoaded modname = some mod →
    (∃ err, findLoader loader.outside (loader.searched policy) modname = .error err) ∧
      loader.outside.rootRequire modname = .ok mod

/-- All loaded modules are what stands behind them. -/
structure Kept (loader : PolicyLoader Object Schema) (policies : Set Policy)
    (cache : PackageCache Object) : Prop where
  root : NativeOnly loader policies cache.rootLoaded
  packages : ∀ policy ∈ policies, ∀ modname mod,
    cache.packages (cacheKey policy) modname = some mod →
      ModuleMeans loader.outside (loader.searched policy) modname (.ok mod)

section Calls

variable {loader : PolicyLoader Object Schema} {policies : Set Policy} {policy other : Policy}
  {cache after initial : PackageCache Object}

/-- The sandbox of a policy starts with modules that are what stands behind them. -/
theorem Kept.sound (kept : Kept loader policies cache) (member : policy ∈ policies) :
    Sound loader.outside (loader.searched policy) (cache.packagesOf policy) where
  root modname mod stored := by
    obtain ⟨⟨err, absent⟩, required⟩ := kept.root policy member modname mod stored
    refine ⟨.ok (some mod), ?_, rfl⟩
    unfold plan
    rw [absent, required]
    exact .finish _
  sandbox := kept.packages policy member

/-- A native `require` keeps native modules away from the code of policies. -/
theorem NativeOnly.native (isolated : Isolated loader policies) {packages : Packages Object}
    (only : NativeOnly loader policies packages.rootLoaded) (modname : String) :
    NativeOnly loader policies (packages.native loader.outside modname).rootLoaded := by
  intro policy member
  have apart := isolated.apart policy member modname
  have each (entries : List (String × ModuleValue Object))
      (among : ∀ entry ∈ entries, entry ∈ loader.outside.rootLoads modname)
      {loaded : String → Option (ModuleValue Object)}
      (before : ∀ other mod, loaded other = some mod →
        (∃ err, findLoader loader.outside (loader.searched policy) other = .error err) ∧
          loader.outside.rootRequire other = .ok mod) :
      ∀ other mod, entries.foldl Packages.addLoaded loaded other = some mod →
        (∃ err, findLoader loader.outside (loader.searched policy) other = .error err) ∧
          loader.outside.rootRequire other = .ok mod := by
    induction entries generalizing loaded with
    | nil => exact before
    | cons entry entries ih =>
        apply ih fun other member => among other (List.mem_cons_of_mem _ member)
        intro other mod stored
        unfold Packages.addLoaded at stored
        by_cases same : other = entry.1
        · subst same
          rw [Function.update_self] at stored
          exact Option.some.inj stored ▸ apart entry (among entry List.mem_cons_self)
        · rw [Function.update_of_ne same] at stored
          exact before other mod stored
  exact each _ (fun _ member => member) (only policy member)

/-- Keeping the tables of a sandbox whose modules are what stands behind them. -/
theorem Kept.keep (isolated : Isolated loader policies) (kept : Kept loader policies cache)
    (member : policy ∈ policies) {packages : Packages Object}
    (sound : Sound loader.outside (loader.searched policy) packages)
    (only : NativeOnly loader policies packages.rootLoaded) :
    Kept loader policies (cache.keep policy packages) where
  root := only
  packages other otherMember modname mod stored := by
    change Function.update cache.packages (cacheKey policy) packages.loaded (cacheKey other)
      modname = some mod at stored
    by_cases same : cacheKey other = cacheKey policy
    · rw [same, Function.update_self] at stored
      rw [isolated.keys other otherMember policy member same]
      exact sound.sandbox modname mod stored
    · rw [Function.update_of_ne same] at stored
      exact kept.packages other otherMember modname mod stored

/-- A call is concluded with what the `require` of its sandbox returns. -/
theorem call_eq_some {fuel : Nat}
    {result : Except String (PolicyTable Object Schema) × PackageCache Object} :
    call loader fuel policy cache = some result ↔
      ∃ answer packages, require loader.outside (loader.searched policy) fuel true "init"
          (cache.packagesOf policy) = some (answer, packages) ∧
        conclude loader policy (cache.keep policy packages) answer = result := by
  constructor
  · intro called
    obtain ⟨⟨answer, packages⟩, required, same⟩ := Option.map_eq_some_iff.mp called
    exact ⟨answer, packages, required, same⟩
  · rintro ⟨answer, packages, required, same⟩
    exact Option.map_eq_some_iff.mpr ⟨(answer, packages), required, same⟩

/-- A conclusion changes nothing, or makes one table. -/
theorem conclude_cases (loader : PolicyLoader Object Schema) (policy : Policy)
    (cache : PackageCache Object) (answer : Answer Object) :
    (conclude loader policy cache answer).2 = cache ∨
      (conclude loader policy cache answer).2 = { cache with tables := cache.tables + 1 } := by
  cases answer with
  | error err => exact .inl rfl
  | ok res =>
      unfold conclude withConfigValidator
      dsimp only
      split
      · split
        · exact .inl rfl
        · exact .inr rfl
      · exact .inl rfl

/-- A conclusion leaves the loaded modules of every policy. -/
theorem packagesOf_conclude (answer : Answer Object) :
    (conclude loader other cache answer).2.packagesOf policy = cache.packagesOf policy := by
  rcases conclude_cases loader other cache answer with same | made
  · rw [same]
  · rw [made]
    rfl

theorem Kept.conclude (kept : Kept loader policies cache) (answer : Answer Object) :
    Kept loader policies (conclude loader policy cache answer).2 := by
  rcases conclude_cases loader policy cache answer with same | made
  · rw [same]
    exact kept
  · rw [made]
    exact ⟨kept.root, kept.packages⟩

theorem Kept.call (isolated : Isolated loader policies) (kept : Kept loader policies cache)
    (member : policy ∈ policies) {fuel : Nat}
    {result : Except String (PolicyTable Object Schema) × PackageCache Object}
    (called : call loader fuel policy cache = some result) : Kept loader policies result.2 := by
  obtain ⟨answer, packages, returned, rfl⟩ := call_eq_some.mp called
  apply Kept.conclude
  have apart := isolated.apart policy member
  have sound := kept.sound member
  rcases require_or_unchanged returned with plain | unchanged
  · exact kept.keep isolated member (sound.require apart plain).2
      (sound.rootLoaded apart (fun _ modname only => only.native isolated modname) kept.root plain)
  · have same : packages = cache.packagesOf policy := unchanged
    rw [same]
    exact kept.keep isolated member sound kept.root

/-- The tables that a sandbox has changed are those that the next one with the key starts with. -/
theorem packagesOf_keep (cache : PackageCache Object) {packages : Packages Object}
    (same : cacheKey policy = cacheKey other) :
    (cache.keep other packages).packagesOf policy = packages := by
  change (⟨packages.rootLoaded,
    Function.update cache.packages (cacheKey other) packages.loaded (cacheKey policy)⟩ :
      Packages Object) = packages
  rw [same, Function.update_self]

/-- A module that is loaded natively stays loaded in every `require`. -/
theorem isSome_rootLoaded {path : List String} {packages : Packages Object}
    (apart : Apart loader.outside path) (sound : Sound loader.outside path packages) {fuel : Nat}
    {exclusive : Bool} {name modname : String} {answered : Answer Object × Packages Object}
    (returned : require loader.outside path fuel exclusive name packages = some answered)
    (present : (packages.rootLoaded modname).isSome) :
    (answered.2.rootLoaded modname).isSome := by
  rcases require_or_unchanged returned with plain | unchanged
  · have natively (packages : Packages Object) (name : String)
        (loaded : (packages.rootLoaded modname).isSome) :
        ((packages.native loader.outside name).rootLoaded modname).isSome := by
      have alone : (⟨packages.rootLoaded, fun _ => none⟩ : Packages Object).Loads modname :=
        .inl loaded
      exact (@Packages.Loads.native _ _ _ name _ alone).resolve_right Bool.false_ne_true
    exact @Sound.rootLoaded _ _ _ _ _ apart sound
      (fun rootLoaded => (rootLoaded modname).isSome) natively present _ _ plain
  · rw [unchanged]
    exact present

/-- A module that a policy has loaded stays the module of the policy, whatever is called next. -/
theorem Kept.find_next (isolated : Isolated loader policies) (kept : Kept loader policies cache)
    (member : policy ∈ policies) (otherMember : other ∈ policies) {modname : String}
    {mod : ModuleValue Object} (found : (cache.packagesOf policy).find modname = some mod)
    {fuel : Nat} {result : Except String (PolicyTable Object Schema) × PackageCache Object}
    (called : PolicyModules.call loader fuel other cache = some result) :
    (result.2.packagesOf policy).find modname = some mod := by
  have later := kept.call isolated otherMember called
  obtain ⟨answer, packages, returned, rfl⟩ := call_eq_some.mp called
  rw [packagesOf_conclude]
  have laterSound := later.sound member
  rw [packagesOf_conclude] at laterSound
  have apart := isolated.apart other otherMember
  have sound := kept.sound otherMember
  by_cases same : cacheKey policy = cacheKey other
  · have here : cache.packagesOf policy = cache.packagesOf other := by
      unfold PackageCache.packagesOf
      rw [same]
    rw [packagesOf_keep cache same]
    rw [here] at found
    rcases require_or_unchanged returned with plain | unchanged
    · exact sound.persists apart found plain
    · have still : packages = cache.packagesOf other := unchanged
      rw [still]
      exact found
  · have untouched : ((cache.keep other packages).packagesOf policy).loaded =
        (cache.packagesOf policy).loaded := Function.update_of_ne same ..
    apply (kept.sound member).find_again laterSound ?_ found
    rintro (root | sandbox)
    · exact .inl (isSome_rootLoaded apart sound returned root)
    · exact .inr (untouched ▸ sandbox)

end Calls

end PolicyModules

end Apicast
