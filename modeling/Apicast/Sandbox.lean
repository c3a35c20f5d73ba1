import Apicast.Foundation.Inquiry
import Apicast.Foundation.TransitionSystem
import Mathlib.Logic.Function.Basic

/-!
# The sandbox

`resty/sandbox.lua`: a `require` of its own, which looks a module up among the modules that are
loaded globally and in the sandbox, runs the code that the sandbox finds for it, and falls back
to the native `require`. The code of a module requires other modules while it runs, and nothing
marks a module that is being loaded.
-/

namespace Apicast

open Foundation Inquiry

namespace Sandbox

variable {Object : Type}

/-- A value of `package.loaded` other than `nil`. -/
inductive ModuleValue (Object : Type)
  | boolean (value : Bool)
  | other (object : Object)
  deriving DecidableEq

/-- The value, unless it counts as false. -/
def ModuleValue.truthy? : ModuleValue Object → Option (ModuleValue Object)
  | .boolean false => none
  | value => some value

/-- What `require` returns or raises. -/
abbrev Answer (Object : Type) := Except String (ModuleValue Object)

/-- What the code of a module returns or raises; `nil` is none. -/
abbrev Returned (Object : Type) := Except String (Option (ModuleValue Object))

/-- The code of a module, as far as it calls `require`; it may catch errors. -/
abbrev Code (Object : Type) := Inquiry String (Answer Object) (Returned Object)

/-- `package.loaded` of the native environment and of the sandbox. -/
structure Packages (Object : Type) where
  rootLoaded : String → Option (ModuleValue Object)
  loaded : String → Option (ModuleValue Object)

/-- What is outside of the sandbox: `package.preload`, the files with their code or the error of
`loadfile`, and the native `require` with the modules that it leaves loaded. -/
structure Surroundings (Object : Type) where
  preload : String → Option (Code Object)
  loadfile : String → Option (Except String (Code Object))
  rootRequire : String → Answer Object
  rootLoads : String → List (String × ModuleValue Object)

/-- The file of a module for a template of the search path. -/
def fileName (template modname : String) : String :=
  let slashed := modname.toList.map fun c => if c = '.' then '/' else c
  String.ofList (template.toList.flatMap fun c => if c = '?' then slashed else [c])

/-- `package.searchpath`: the first file that exists, or the message that names all of them. -/
def searchpath (outside : Surroundings Object) (modname : String) :
    List String → Except String (Except String (Code Object))
  | [] => .error ""
  | template :: path =>
      match outside.loadfile (fileName template modname) with
      | some file => .ok file
      | none => (searchpath outside modname path).mapError fun err =>
          "\n\tno file '" ++ fileName template modname ++ "'" ++ err

/-- `find_loader`: the preloaded code, then the file that is found. -/
def findLoader (outside : Surroundings Object) (path : List String) (modname : String) :
    Except String (Code Object) :=
  match outside.preload modname with
  | some loader => .ok loader
  | none => (searchpath outside modname path).bind id

/-- `not_found` -/
def notFound (modname err : String) : Answer Object :=
  .error ("module '" ++ modname ++ "' not found:" ++ err)

namespace Packages

/-- `root_loaded[modname] or package.loaded[modname]` -/
def find (packages : Packages Object) (modname : String) : Option (ModuleValue Object) :=
  ((packages.rootLoaded modname).bind ModuleValue.truthy?).or
    ((packages.loaded modname).bind ModuleValue.truthy?)

/-- `package.loaded[modname] = mod` -/
def assign (packages : Packages Object) (modname : String) (mod : ModuleValue Object) :
    Packages Object :=
  { packages with loaded := Function.update packages.loaded modname (some mod) }

/-- What `require` does with the value of a loader. -/
def store (packages : Packages Object) (modname : String) :
    Returned Object → Answer Object × Packages Object
  | .error err => (.error err, packages)
  | .ok (some mod) => (.ok mod, packages.assign modname mod)
  | .ok none =>
      match (packages.loaded modname).bind ModuleValue.truthy? with
      | some mod => (.ok mod, packages)
      | none => (.ok (.boolean true), packages.assign modname (.boolean true))

/-- One more loaded module. -/
def addLoaded (loaded : String → Option (ModuleValue Object))
    (entry : String × ModuleValue Object) : String → Option (ModuleValue Object) :=
  Function.update loaded entry.1 (some entry.2)

/-- The modules that a native `require` leaves loaded. -/
def native (packages : Packages Object) (outside : Surroundings Object) (modname : String) :
    Packages Object :=
  { packages with rootLoaded := (outside.rootLoads modname).foldl addLoaded packages.rootLoaded }

end Packages

/-- `fallback`; the sandbox has no value for the module. -/
def fallback (outside : Surroundings Object) (modname : String) (packages : Packages Object) :
    Answer Object × Packages Object :=
  (packages.native outside modname).store modname ((outside.rootRequire modname).map some)

/-- The `require` of `gen_require`, as deep as the fuel allows. -/
def require (outside : Surroundings Object) (path : List String) :
    Nat → Bool → String → Packages Object → Option (Answer Object × Packages Object)
  | 0, _, _, _ => none
  | fuel + 1, exclusive, modname, packages =>
      match packages.find modname with
      | some mod => some (.ok mod, packages)
      | none =>
          match findLoader outside path modname with
          | .ok loader =>
              (loader.run (require outside path fuel false) packages).map fun ended =>
                ended.2.store modname ended.1
          | .error err =>
              if exclusive then some (notFound modname err, packages)
              else some (fallback outside modname packages)

section Meaning

variable (outside : Surroundings Object) (path : List String)

/-- What stands behind a module: the code that the sandbox finds for it, or the native
`require`. -/
def plan (modname : String) : Code Object :=
  match findLoader outside path modname with
  | .ok loader => loader
  | .error _ => .finish ((outside.rootRequire modname).map some)

/-- A module without a value is `true`. -/
def conclude (_ : String) (returned : Returned Object) : Answer Object :=
  returned.map fun mod => mod.getD (.boolean true)

/-- What a module is when its code is run from scratch, and so is that of every module it
requires. -/
def ModuleMeans : String → Answer Object → Prop := Means (plan outside path) conclude

/-- The loaded modules as a memory of answers. -/
def memory : Memory String (Answer Object) (Returned Object) (Packages Object) where
  lookup packages modname := (packages.find modname).map .ok
  record packages modname returned :=
    match findLoader outside path modname with
    | .ok _ => packages.store modname returned
    | .error _ => (packages.native outside modname).store modname returned

/-- Every loaded module is what stands behind it. -/
structure Sound (packages : Packages Object) : Prop where
  root : ∀ modname mod, packages.rootLoaded modname = some mod →
    ModuleMeans outside path modname (.ok mod)
  sandbox : ∀ modname mod, packages.loaded modname = some mod →
    ModuleMeans outside path modname (.ok mod)

/-- What the native `require` leaves loaded is what a native `require` of it returns, and never
takes the place of code of the sandbox. -/
def Apart : Prop :=
  ∀ modname, ∀ entry ∈ outside.rootLoads modname,
    (∃ err, findLoader outside path entry.1 = .error err) ∧
      outside.rootRequire entry.1 = .ok entry.2

end Meaning

section Require

variable {outside : Surroundings Object} {path : List String} {packages : Packages Object}
  {modname : String}

/-- The code of modules is run by a memory that follows plans. -/
theorem require_eq_solve (fuel : Nat) :
    require outside path fuel false = (memory outside path).solve (plan outside path) fuel := by
  induction fuel with
  | zero => rfl
  | succ fuel ih =>
      funext modname packages
      unfold require Memory.solve
      rw [← ih]
      dsimp only [memory, plan]
      cases packages.find modname with
      | some mod => rfl
      | none =>
          cases findLoader outside path modname with
          | ok loader => rfl
          | error err => rfl

theorem truthy?_eq_some {value mod : ModuleValue Object} (truthy : value.truthy? = some mod) :
    value = mod := by
  unfold ModuleValue.truthy? at truthy
  split at truthy
  · cases truthy
  · exact Option.some.inj truthy

/-- A module that is found is loaded. -/
theorem Packages.find_eq_some {mod : ModuleValue Object}
    (found : packages.find modname = some mod) :
    packages.rootLoaded modname = some mod ∨ packages.loaded modname = some mod := by
  rcases Option.or_eq_some_iff.mp found with first | ⟨_, second⟩
  · obtain ⟨value, stored, truthy⟩ := Option.bind_eq_some_iff.mp first
    exact .inl (truthy?_eq_some truthy ▸ stored)
  · obtain ⟨value, stored, truthy⟩ := Option.bind_eq_some_iff.mp second
    exact .inr (truthy?_eq_some truthy ▸ stored)

theorem Sound.find (sound : Sound outside path packages) {mod : ModuleValue Object}
    (found : packages.find modname = some mod) : ModuleMeans outside path modname (.ok mod) := by
  rcases Packages.find_eq_some found with root | loaded
  · exact sound.root modname mod root
  · exact sound.sandbox modname mod loaded

theorem Sound.assign (sound : Sound outside path packages) {mod : ModuleValue Object}
    (means : ModuleMeans outside path modname (.ok mod)) :
    Sound outside path (packages.assign modname mod) where
  root := sound.root
  sandbox other value stored := by
    change Function.update packages.loaded modname (some mod) other = some value at stored
    by_cases same : other = modname
    · subst same
      rw [Function.update_self] at stored
      exact Option.some.inj stored ▸ means
    · rw [Function.update_of_ne same] at stored
      exact sound.sandbox other value stored

/-- Storing what the code of a module comes to keeps every loaded module as it is meant. -/
theorem Sound.store (sound : Sound outside path packages) {returned : Returned Object}
    (means : ModuleMeans outside path modname (conclude modname returned)) :
    (packages.store modname returned).1 = conclude modname returned ∧
      Sound outside path (packages.store modname returned).2 := by
  cases returned with
  | error err => exact ⟨rfl, sound⟩
  | ok returned =>
      cases returned with
      | some mod => exact ⟨rfl, sound.assign means⟩
      | none =>
          unfold Packages.store
          dsimp only
          cases found : (packages.loaded modname).bind ModuleValue.truthy? with
          | none => exact ⟨rfl, sound.assign means⟩
          | some mod =>
              obtain ⟨value, stored, truthy⟩ := Option.bind_eq_some_iff.mp found
              have loaded := sound.sandbox modname value stored
              rw [truthy?_eq_some truthy] at loaded
              exact ⟨loaded.unique means, sound⟩

/-- A native `require` that stays apart loads nothing that is not meant. -/
theorem Sound.native (apart : Apart outside path) (sound : Sound outside path packages)
    (modname : String) : Sound outside path (packages.native outside modname) where
  root := by
    have each (entries : List (String × ModuleValue Object))
        (among : ∀ entry ∈ entries, entry ∈ outside.rootLoads modname)
        {loaded : String → Option (ModuleValue Object)}
        (before : ∀ other mod, loaded other = some mod →
          ModuleMeans outside path other (.ok mod)) :
        ∀ other mod, entries.foldl Packages.addLoaded loaded other = some mod →
          ModuleMeans outside path other (.ok mod) := by
      induction entries generalizing loaded with
      | nil => exact before
      | cons entry entries ih =>
          apply ih fun other member => among other (List.mem_cons_of_mem _ member)
          intro other mod stored
          unfold Packages.addLoaded at stored
          by_cases same : other = entry.1
          · subst same
            rw [Function.update_self] at stored
            obtain ⟨⟨err, absent⟩, required⟩ := apart modname entry (among entry List.mem_cons_self)
            refine ⟨.ok (some entry.2), ?_, congrArg _ (Option.some.inj stored)⟩
            unfold plan
            rw [absent, required]
            exact .finish _
          · rw [Function.update_of_ne same] at stored
            exact before other mod stored
    exact each (outside.rootLoads modname) (fun _ member => member) sound.root
  sandbox := sound.sandbox

/-- The loaded modules are remembered faithfully. -/
theorem faithful_memory (apart : Apart outside path) :
    (memory outside path).Faithful (plan outside path) conclude (Sound outside path) where
  lookup packages modname answer sound remembered := by
    obtain ⟨mod, found, rfl⟩ := Option.map_eq_some_iff.mp remembered
    exact sound.find found
  record packages modname returned sound yields := by
    have means : ModuleMeans outside path modname (conclude modname returned) :=
      ⟨returned, yields, rfl⟩
    dsimp only [memory]
    cases findLoader outside path modname with
    | ok loader => exact sound.store means
    | error err => exact (sound.native apart modname).store means

/-- A module that is loaded with a value counting as true is found, with this value. -/
theorem Sound.find_of_loaded (sound : Sound outside path packages) {mod : ModuleValue Object}
    (loaded : packages.rootLoaded modname = some mod ∨ packages.loaded modname = some mod)
    (truthy : mod.truthy? = some mod) : packages.find modname = some mod := by
  have means : ModuleMeans outside path modname (.ok mod) :=
    loaded.elim (sound.root modname mod) (sound.sandbox modname mod)
  have isSome : (packages.find modname).isSome := by
    unfold Packages.find
    rcases loaded with root | sandbox
    · rw [root, Option.bind_some, truthy]
      rfl
    · rw [sandbox, Option.bind_some, truthy]
      cases (packages.rootLoaded modname).bind ModuleValue.truthy? <;> rfl
  obtain ⟨found, same⟩ := Option.isSome_iff_exists.mp isSome
  rw [same, Except.ok.inj ((sound.find same).unique means)]

theorem truthy?_of_find {mod : ModuleValue Object} (found : packages.find modname = some mod) :
    mod.truthy? = some mod := by
  rcases Option.or_eq_some_iff.mp found with first | ⟨_, second⟩
  · obtain ⟨value, _, truthy⟩ := Option.bind_eq_some_iff.mp first
    exact truthy?_eq_some truthy ▸ truthy
  · obtain ⟨value, _, truthy⟩ := Option.bind_eq_some_iff.mp second
    exact truthy?_eq_some truthy ▸ truthy

/-- Some value is loaded for the module. -/
def Packages.Loads (packages : Packages Object) (modname : String) : Prop :=
  (packages.rootLoaded modname).isSome ∨ (packages.loaded modname).isSome

/-- A module that is found is found again, with the same value, as long as modules stay loaded and
are what stands behind them. -/
theorem Sound.find_again {after : Packages Object} {mod : ModuleValue Object}
    (sound : Sound outside path packages) (later : Sound outside path after)
    (stays : packages.Loads modname → after.Loads modname)
    (found : packages.find modname = some mod) : after.find modname = some mod := by
  have means := sound.find found
  have loads : packages.Loads modname := by
    rcases Packages.find_eq_some found with root | sandbox
    · exact .inl (root ▸ rfl)
    · exact .inr (sandbox ▸ rfl)
  have truthy := truthy?_of_find found
  rcases stays loads with root | sandbox
  · obtain ⟨value, stored⟩ := Option.isSome_iff_exists.mp root
    have same := Except.ok.inj ((later.root modname value stored).unique means)
    exact later.find_of_loaded (.inl (same ▸ stored)) truthy
  · obtain ⟨value, stored⟩ := Option.isSome_iff_exists.mp sandbox
    have same := Except.ok.inj ((later.sandbox modname value stored).unique means)
    exact later.find_of_loaded (.inr (same ▸ stored)) truthy

theorem Packages.Loads.assign {other : String} (loads : packages.Loads other)
    (mod : ModuleValue Object) : (packages.assign modname mod).Loads other := by
  rcases loads with root | sandbox
  · exact .inl root
  · right
    change (Function.update packages.loaded modname (some mod) other).isSome
    by_cases same : other = modname
    · subst same
      rw [Function.update_self]
      rfl
    · rw [Function.update_of_ne same]
      exact sandbox

theorem Packages.Loads.store {other : String} (loads : packages.Loads other)
    (returned : Returned Object) : (packages.store modname returned).2.Loads other := by
  cases returned with
  | error err => exact loads
  | ok returned =>
      cases returned with
      | some mod => exact loads.assign mod
      | none =>
          unfold Packages.store
          dsimp only
          cases (packages.loaded modname).bind ModuleValue.truthy? with
          | some mod => exact loads
          | none => exact loads.assign _

theorem Packages.Loads.native {other : String} (loads : packages.Loads other) :
    (packages.native outside modname).Loads other := by
  have each (entries : List (String × ModuleValue Object))
      {loaded : String → Option (ModuleValue Object)} (before : (loaded other).isSome) :
      (entries.foldl Packages.addLoaded loaded other).isSome := by
    induction entries generalizing loaded with
    | nil => exact before
    | cons entry entries ih =>
        apply ih
        unfold Packages.addLoaded
        by_cases same : other = entry.1
        · subst same
          rw [Function.update_self]
          rfl
        · rw [Function.update_of_ne same]
          exact before
  rcases loads with root | sandbox
  · exact .inl (each _ root)
  · exact .inr sandbox

/-- A `require` answers a module with what stands behind it, and keeps the loaded modules sound. -/
theorem Sound.require (apart : Apart outside path) (sound : Sound outside path packages)
    {fuel : Nat} {answered : Answer Object × Packages Object}
    (returned : require outside path fuel false modname packages = some answered) :
    ModuleMeans outside path modname answered.1 ∧ Sound outside path answered.2 := by
  rw [require_eq_solve] at returned
  exact (faithful_memory apart).sound sound returned

/-- A `require` ends exactly when its module has a meaning, and with it. -/
theorem Sound.require_iff (apart : Apart outside path) (sound : Sound outside path packages)
    {answer : Answer Object} :
    (∃ fuel after,
      Sandbox.require outside path fuel false modname packages = some (answer, after)) ↔
      ModuleMeans outside path modname answer := by
  simp only [require_eq_solve]
  exact (faithful_memory apart).solves_iff sound

/-- No `require` changes the value of a module that is found. -/
theorem Sound.persists (apart : Apart outside path) (sound : Sound outside path packages)
    {fuel : Nat} {other : String} {answered : Answer Object × Packages Object}
    {mod : ModuleValue Object} (found : packages.find other = some mod)
    (returned : Sandbox.require outside path fuel false modname packages = some answered) :
    answered.2.find other = some mod := by
  have keeps (state : Packages Object) (question : String) (result : Returned Object)
      (held : Sound outside path state)
      (yields : Yields (plan outside path) conclude (plan outside path question) result)
      (known : (memory outside path).lookup state other = some (.ok mod)) :
      (memory outside path).lookup ((memory outside path).record state question result).2 other =
        some (.ok mod) := by
    obtain ⟨value, before, same⟩ := Option.map_eq_some_iff.mp known
    cases same
    obtain ⟨_, after⟩ := (faithful_memory apart).record state question result held yields
    have stays (loads : state.Loads other) :
        ((memory outside path).record state question result).2.Loads other := by
      dsimp only [memory]
      cases findLoader outside path question with
      | ok loader => exact loads.store result
      | error err => exact loads.native.store result
    exact congrArg (Option.map Except.ok) (held.find_again after stays before)
  have remembered : (memory outside path).lookup packages other = some (.ok mod) :=
    congrArg (Option.map Except.ok) found
  rw [require_eq_solve] at returned
  obtain ⟨value, again, same⟩ := Option.map_eq_some_iff.mp
    ((faithful_memory apart).persists keeps sound remembered returned)
  cases same
  exact again

theorem Packages.rootLoaded_store (packages : Packages Object) (modname : String)
    (returned : Returned Object) :
    (packages.store modname returned).2.rootLoaded = packages.rootLoaded := by
  cases returned with
  | error err => rfl
  | ok returned =>
      cases returned with
      | some mod => rfl
      | none =>
          unfold Packages.store
          dsimp only
          cases (packages.loaded modname).bind ModuleValue.truthy? <;> rfl

/-- What every native `require` keeps true of the globally loaded modules holds after a `require`
in the sandbox. -/
theorem Sound.rootLoaded (apart : Apart outside path) (sound : Sound outside path packages)
    {holds : (String → Option (ModuleValue Object)) → Prop}
    (kept : ∀ (packages : Packages Object) modname, holds packages.rootLoaded →
      holds (packages.native outside modname).rootLoaded)
    (held : holds packages.rootLoaded) {fuel : Nat} {answered : Answer Object × Packages Object}
    (returned : Sandbox.require outside path fuel false modname packages = some answered) :
    holds answered.2.rootLoaded := by
  have faithful : (memory outside path).Faithful (plan outside path) conclude
      (fun packages => Sound outside path packages ∧ holds packages.rootLoaded) := by
    refine ⟨fun packages modname answer both =>
      (faithful_memory apart).lookup packages modname answer both.1, ?_⟩
    intro packages modname returned both yields
    obtain ⟨same, after⟩ :=
      (faithful_memory apart).record packages modname returned both.1 yields
    refine ⟨same, after, ?_⟩
    dsimp only [memory]
    cases findLoader outside path modname with
    | ok loader =>
        dsimp only
        rw [Packages.rootLoaded_store]
        exact both.2
    | error err =>
        dsimp only
        rw [Packages.rootLoaded_store]
        exact kept packages modname both.2
  rw [require_eq_solve] at returned
  exact (faithful.sound ⟨sound, held⟩ returned).2.2

/-- With the exclusive flag a `require` differs only for modules without code in the sandbox. -/
theorem require_exclusive {fuel : Nat} {loader : Code Object}
    (found : findLoader outside path modname = .ok loader) :
    Sandbox.require outside path fuel true modname packages =
      Sandbox.require outside path fuel false modname packages := by
  cases fuel with
  | zero => rfl
  | succ fuel =>
      unfold Sandbox.require
      rw [found]

/-- A `require` with the exclusive flag returns what one without it returns, or changes nothing. -/
theorem require_or_unchanged {fuel : Nat} {exclusive : Bool}
    {answered : Answer Object × Packages Object}
    (returned : Sandbox.require outside path fuel exclusive modname packages = some answered) :
    Sandbox.require outside path fuel false modname packages = some answered ∨
      answered.2 = packages := by
  cases exclusive with
  | false => exact .inl returned
  | true =>
      cases code : findLoader outside path modname with
      | ok loader => exact .inl (require_exclusive code ▸ returned)
      | error err =>
          right
          cases fuel with
          | zero => cases returned
          | succ fuel =>
              unfold Sandbox.require at returned
              rw [code] at returned
              cases known : packages.find modname with
              | some mod =>
                  rw [known] at returned
                  cases returned
                  rfl
              | none =>
                  rw [known] at returned
                  cases returned
                  rfl

end Require

/-- The calls of `require` in a sandbox. -/
structure Call where
  fuel : Nat
  exclusive : Bool
  modname : String

/-- Calls one after the other, from some loaded modules. -/
def machine (outside : Surroundings Object) (path : List String) (packages : Packages Object) :
    Machine (Packages Object) Call where
  initial := packages
  next packages call :=
    (require outside path call.fuel call.exclusive call.modname packages).map Prod.snd

section Runs

variable {outside : Surroundings Object} {path : List String}
  {initial before after : Packages Object}

theorem sound_next (apart : Apart outside path) {call : Call} (sound : Sound outside path before)
    (stepped : (machine outside path initial).next before call = some after) :
    Sound outside path after := by
  obtain ⟨answered, returned, rfl⟩ := Option.map_eq_some_iff.mp stepped
  rcases require_or_unchanged returned with plain | unchanged
  · exact (sound.require apart plain).2
  · exact unchanged ▸ sound

theorem find_next (apart : Apart outside path) {call : Call} (sound : Sound outside path before)
    {modname : String} {mod : ModuleValue Object} (found : before.find modname = some mod)
    (stepped : (machine outside path initial).next before call = some after) :
    after.find modname = some mod := by
  obtain ⟨answered, returned, rfl⟩ := Option.map_eq_some_iff.mp stepped
  rcases require_or_unchanged returned with plain | unchanged
  · exact sound.persists apart found plain
  · exact unchanged ▸ found

/-- A value that is stored is loaded, and is what was returned. -/
theorem loaded_of_store {packages : Packages Object} {modname : String}
    {returned : Returned Object} {mod : ModuleValue Object}
    (stored : packages.store modname returned = (.ok mod, after)) :
    after.loaded modname = some mod := by
  unfold Packages.store at stored
  cases returned with
  | error err => cases stored
  | ok returned =>
      cases returned with
      | some value =>
          cases stored
          exact Function.update_self ..
      | none =>
          dsimp only at stored
          cases known : (packages.loaded modname).bind ModuleValue.truthy? with
          | none =>
              rw [known] at stored
              cases stored
              exact Function.update_self ..
          | some value =>
              rw [known] at stored
              cases stored
              obtain ⟨loaded, present, truthy⟩ := Option.bind_eq_some_iff.mp known
              exact truthy?_eq_some truthy ▸ present

/-- A returned value that counts as true is found afterwards. -/
theorem find_of_returned (apart : Apart outside path) (sound : Sound outside path before)
    {fuel : Nat} {exclusive : Bool} {modname : String} {mod : ModuleValue Object}
    (truthy : mod.truthy? = some mod)
    (returned : require outside path fuel exclusive modname before = some (.ok mod, after)) :
    after.find modname = some mod := by
  have later : Sound outside path after := by
    rcases require_or_unchanged returned with plain | unchanged
    · exact (sound.require apart plain).2
    · have same : after = before := unchanged
      exact same ▸ sound
  cases fuel with
  | zero => cases returned
  | succ fuel =>
      unfold require at returned
      cases known : before.find modname with
      | some value =>
          rw [known] at returned
          cases returned
          exact known
      | none =>
          rw [known] at returned
          apply later.find_of_loaded (.inr ?_) truthy
          cases code : findLoader outside path modname with
          | ok loader =>
              rw [code] at returned
              obtain ⟨ended, _, stored⟩ := Option.map_eq_some_iff.mp returned
              exact loaded_of_store stored
          | error err =>
              rw [code] at returned
              cases exclusive with
              | true => cases returned
              | false => exact loaded_of_store (Option.some.inj returned)

/-- In every sequence of calls, however they nest, a `require` returns exactly what the code behind
the module makes it when everything is run from scratch, and does not end when that does not end;
and a value that counts as true is returned from then on, without code being run. -/
theorem require_in_run (apart : Apart outside path) (sound : Sound outside path initial)
    {calls : List Call} (executed : (machine outside path initial).run initial calls = some before)
    {modname : String} {exclusive : Bool}
    (code : exclusive = true → ∃ loader, findLoader outside path modname = .ok loader) :
    (∀ answer, (∃ fuel after,
        require outside path fuel exclusive modname before = some (answer, after)) ↔
      ModuleMeans outside path modname answer) ∧
    ∀ fuel mod more later, mod.truthy? = some mod →
      require outside path fuel exclusive modname before = some (.ok mod, after) →
      (machine outside path initial).run after more = some later →
      ∀ fuel, require outside path (fuel + 1) exclusive modname later = some (.ok mod, later) := by
  have kept : Sound outside path before := by
    let recorded (_ : List Call) (packages : Packages Object) : Prop := Sound outside path packages
    have initially : recorded [] initial := sound
    exact Machine.run_records initially (fun _ _ _ _ held stepped => sound_next apart held stepped)
      executed
  have plain (fuel : Nat) : require outside path fuel exclusive modname before =
      require outside path fuel false modname before := by
    cases exclusive with
    | false => rfl
    | true =>
        obtain ⟨loader, found⟩ := code rfl
        exact require_exclusive found
  refine ⟨fun answer => ?_, ?_⟩
  · simp only [plain]
    exact kept.require_iff apart
  · intro fuel mod more later truthy returned continued again
    have found := find_of_returned apart kept truthy returned
    have soundAfter : Sound outside path after := by
      rw [plain] at returned
      exact (kept.require apart returned).2
    let recorded (_ : List Call) (packages : Packages Object) : Prop :=
      Sound outside path packages ∧ packages.find modname = some mod
    have initially : recorded [] after := ⟨soundAfter, found⟩
    have ended : recorded more later :=
      Machine.run_records initially (fun _ _ _ _ held stepped =>
        ⟨sound_next apart held.1 stepped, find_next apart held.1 held.2 stepped⟩) continued
    unfold require
    rw [ended.2]

/-- A policy of two files, one of which needs a native module. -/
def twoFiles : Surroundings Nat where
  preload _ := none
  loadfile file :=
    if file = "p/init.lua" then
      some (.ok (.ask "helper" fun answer => .finish (answer.map fun _ => some (.other 1))))
    else if file = "p/helper.lua" then
      some (.ok (.ask "cjson" fun answer => .finish (answer.map fun _ => none)))
    else none
  rootRequire modname := if modname = "cjson" then .ok (.other 7) else .error modname
  rootLoads modname := if modname = "cjson" then [("cjson", .other 7)] else []

theorem apart_twoFiles : Apart twoFiles ["p/?.lua"] := by
  intro modname entry member
  by_cases native : modname = "cjson"
  · subst native
    obtain rfl := List.mem_singleton.mp member
    exact ⟨⟨_, rfl⟩, rfl⟩
  · change entry ∈ (if modname = "cjson" then _ else _) at member
    rw [if_neg native] at member
    cases member

/-- After a call that runs both files, the second one is what its code and the native module make
it, and is not run again. -/
theorem require_in_run_helper :
    ∃ packages, (machine twoFiles ["p/?.lua"] ⟨fun _ => none, fun _ => none⟩).run
        ⟨fun _ => none, fun _ => none⟩ [⟨4, true, "init"⟩] = some packages ∧
      ModuleMeans twoFiles ["p/?.lua"] "helper" (.ok (.boolean true)) ∧
      ∀ fuel, require twoFiles ["p/?.lua"] (fuel + 1) false "helper" packages =
        some (.ok (.boolean true), packages) := by
  have runs : ((machine twoFiles ["p/?.lua"] ⟨fun _ => none, fun _ => none⟩).run
      ⟨fun _ => none, fun _ => none⟩ [⟨4, true, "init"⟩]).isSome := by decide
  obtain ⟨packages, executed⟩ := Option.isSome_iff_exists.mp runs
  have sound : Sound twoFiles ["p/?.lua"] ⟨fun _ => none, fun _ => none⟩ :=
    ⟨(fun _ _ stored => by cases stored), (fun _ _ stored => by cases stored)⟩
  have later : (((machine twoFiles ["p/?.lua"] ⟨fun _ => none, fun _ => none⟩).run
      ⟨fun _ => none, fun _ => none⟩ [⟨4, true, "init"⟩]).bind fun packages =>
        packages.find "helper") = some (.boolean true) := by decide
  rw [executed, Option.bind_some] at later
  have returned : require twoFiles ["p/?.lua"] 1 false "helper" packages =
      some (.ok (.boolean true), packages) := by
    unfold require
    rw [later]
  obtain ⟨means, stays⟩ := @require_in_run _ _ _ _ packages packages apart_twoFiles sound _ executed
    "helper" false (fun flag => by cases flag)
  exact ⟨packages, executed, (means _).mp ⟨1, packages, returned⟩,
    stays 1 _ [] packages rfl returned rfl⟩

end Runs

end Sandbox

end Apicast
