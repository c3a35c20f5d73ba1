import Apicast.RateLimit.CountInc
import Apicast.RateLimit.Policy

/-!
# Isolation of counter keys

Type names and identifiers are joined by the delimiter that type names contain
themselves. A key can still be read from the left: a fixed window starts with a
number, a service with its identifier, and a global key with the first word of
its type.
-/

namespace Apicast.RateLimit

open Foundation

/-- A service identifier that cannot be confused with the words of a type name. -/
def PlainService (id : String) : Prop := Delimited.Free '_' id ∧ id ≠ "connections"

instance (id : String) : Decidable (PlainService id) :=
  inferInstanceAs (Decidable (Delimited.Free '_' id ∧ id ≠ "connections"))

namespace LimiterType

/-- The first word of a type name. -/
def word : LimiterType → String
  | connections => "connections"
  | leakyBucket => "leaky"
  | fixedWindow => "fixed"

/-- What follows the first word of a type name in a key. -/
def rest (type : LimiterType) (key : String) : String :=
  match type with
  | connections => key
  | leakyBucket => Delimited.join '_' "bucket" key
  | fixedWindow => Delimited.join '_' "window" key

theorem word_free (type : LimiterType) : Delimited.Free '_' type.word := by
  cases type <;> decide

theorem word_injective {type other : LimiterType} (same : type.word = other.word) :
    type = other := by
  revert same
  cases type <;> cases other <;> decide

/-- A typed key starts with the first word of its type. -/
theorem join_name (type : LimiterType) (key : String) :
    Delimited.join '_' type.name key = Delimited.join '_' type.word (type.rest key) := by
  cases type with
  | connections => rfl
  | leakyBucket =>
      have name : leakyBucket.name = Delimited.join '_' "leaky" "bucket" := by decide
      rw [name, Delimited.join_assoc]
      rfl
  | fixedWindow =>
      have name : fixedWindow.name = Delimited.join '_' "fixed" "window" := by decide
      rw [name, Delimited.join_assoc]
      rfl

/-- A typed key determines its type and the rendered name. -/
theorem join_name_inj {type other : LimiterType} {key remaining : String} :
    Delimited.join '_' type.name key = Delimited.join '_' other.name remaining ↔
      type = other ∧ key = remaining := by
  constructor
  · intro equal
    have words := equal
    rw [join_name, join_name] at words
    have same := word_injective ((Delimited.join_inj type.word_free other.word_free).mp words).1
    subst same
    exact ⟨rfl, Delimited.join_right_inj.mp equal⟩
  · rintro ⟨rfl, rfl⟩
    rfl

/-- A global key is not the key of a plain service. -/
theorem join_name_ne_service {type other : LimiterType} {id key remaining : String}
    (plain : PlainService id) :
    Delimited.join '_' type.name key ≠
      Delimited.join '_' id (Delimited.join '_' other.name remaining) := by
  intro equal
  rw [join_name, join_name, Delimited.join_inj type.word_free plain.1] at equal
  obtain ⟨word, rests⟩ := equal
  cases type with
  | connections => exact plain.2 word.symm
  | leakyBucket =>
      have words := ((Delimited.join_inj (by decide) other.word_free).mp rests).1
      revert words
      cases other <;> decide
  | fixedWindow =>
      have words := ((Delimited.join_inj (by decide) other.word_free).mp rests).1
      revert words
      cases other <;> decide

/-- A global key does not start with a number. -/
theorem word_ne_decimal (type : LimiterType) (number : Int) : type.word ≠ number.repr := by
  intro same
  have digits (letter : Char) (member : letter ∈ type.word.toList) :
      letter.isDigit ∨ letter = '-' := by
    rw [same] at member
    exact Delimited.mem_decimal member
  cases type with
  | connections => exact absurd (digits 'c' (by decide)) (by decide)
  | leakyBucket => exact absurd (digits 'l' (by decide)) (by decide)
  | fixedWindow => exact absurd (digits 'f' (by decide)) (by decide)

end LimiterType

/-- A limiter that counts a request. -/
structure Counting (Context : Type*) where
  type : LimiterType
  limiter : LimiterConfig
  context : Context
  time : Int

namespace Counting

variable {Context : Type*} (environment : RequestEnvironment Context)

def key (counting : Counting Context) : String :=
  counterKey environment counting.type counting.limiter counting.context counting.time

def name (counting : Counting Context) : String :=
  counting.limiter.render environment counting.context

/-- The start of the window of a fixed-window limiter. -/
def windowStart (counting : Counting Context) : Int :=
  (counting.limiter.prepare counting.type).windowStart counting.time

def IsGlobal (counting : Counting Context) : Prop := counting.limiter.key.scope = some .global

instance (counting : Counting Context) : Decidable counting.IsGlobal :=
  inferInstanceAs (Decidable (_ = _))

/-- What two limiters share when they count the same thing: type, scope, service
where the scope has one, rendered name, and window where the type has one. -/
structure Same (first second : Counting Context) : Prop where
  type : first.type = second.type
  scope : first.IsGlobal ↔ second.IsGlobal
  service : ¬ first.IsGlobal →
    environment.serviceId first.context = environment.serviceId second.context
  name : first.name environment = second.name environment
  window : first.type = .fixedWindow → first.windowStart = second.windowStart

/-- The key without the window start. -/
def scopedKey (counting : Counting Context) : String :=
  if counting.IsGlobal then
    Delimited.join '_' counting.type.name (counting.name environment)
  else
    Delimited.join '_' (environment.serviceId counting.context)
      (Delimited.join '_' counting.type.name (counting.name environment))

theorem scopedKey_eq (counting : Counting Context) :
    counting.scopedKey environment =
      if counting.IsGlobal then
        Delimited.join '_' counting.type.name (counting.name environment)
      else
        Delimited.join '_' (environment.serviceId counting.context)
          (Delimited.join '_' counting.type.name (counting.name environment)) := rfl

theorem key_eq (counting : Counting Context) :
    counting.key environment =
      if counting.type = .fixedWindow then
        Delimited.join '_' counting.windowStart.repr (counting.scopedKey environment)
      else counting.scopedKey environment := rfl

variable {environment} {first second : Counting Context}

/-- The identifier of the service is plain where the key contains it. -/
def Plain (environment : RequestEnvironment Context) (counting : Counting Context) : Prop :=
  ¬ counting.IsGlobal → PlainService (environment.serviceId counting.context)

instance (counting : Counting Context) : Decidable (counting.Plain environment) :=
  inferInstanceAs (Decidable (_ → _))

/-- The key without the window start determines all it is built from. -/
theorem scopedKey_inj (firstPlain : first.Plain environment)
    (secondPlain : second.Plain environment) :
    first.scopedKey environment = second.scopedKey environment ↔
      first.type = second.type ∧ (first.IsGlobal ↔ second.IsGlobal) ∧
        (¬ first.IsGlobal →
          environment.serviceId first.context = environment.serviceId second.context) ∧
        first.name environment = second.name environment := by
  rw [scopedKey_eq, scopedKey_eq]
  by_cases firstGlobal : first.IsGlobal
  · by_cases secondGlobal : second.IsGlobal
    · simp only [firstGlobal, secondGlobal, ↓reduceIte, LimiterType.join_name_inj,
        not_true_eq_false,
        false_implies, true_and]
    · simp only [firstGlobal, secondGlobal, ↓reduceIte, iff_false, not_true_eq_false, false_and,
        and_false]
      exact LimiterType.join_name_ne_service (secondPlain secondGlobal)
  · by_cases secondGlobal : second.IsGlobal
    · simp only [firstGlobal, secondGlobal, ↓reduceIte, iff_true, false_and, and_false, iff_false]
      exact (LimiterType.join_name_ne_service (firstPlain firstGlobal)).symm
    · simp only [firstGlobal, secondGlobal, ↓reduceIte, not_false_eq_true, true_implies, true_and,
        Delimited.join_inj (firstPlain firstGlobal).1 (secondPlain secondGlobal).1,
        LimiterType.join_name_inj]
      tauto

/-- A key with a window start is not a key without one. -/
theorem windowed_ne_scopedKey (firstPlain : first.Plain environment)
    (secondPlain : second.Plain environment) (different : first.type ≠ second.type) (start : Int) :
    Delimited.join '_' start.repr (first.scopedKey environment) ≠
      second.scopedKey environment := by
  intro equal
  have number : Delimited.Free '_' start.repr :=
    Delimited.free_decimal start (by decide) (by decide)
  rw [scopedKey_eq environment second] at equal
  by_cases secondGlobal : second.IsGlobal
  · rw [if_pos secondGlobal, LimiterType.join_name,
      Delimited.join_inj number second.type.word_free] at equal
    exact second.type.word_ne_decimal start equal.1.symm
  · rw [if_neg secondGlobal, Delimited.join_inj number (secondPlain secondGlobal).1] at equal
    have rests := equal.2
    rw [scopedKey_eq] at rests
    by_cases firstGlobal : first.IsGlobal
    · rw [if_pos firstGlobal, LimiterType.join_name_inj] at rests
      exact different rests.1
    · rw [if_neg firstGlobal] at rests
      exact LimiterType.join_name_ne_service (firstPlain firstGlobal) rests.symm

/-- Two limiters use one key exactly when they count the same thing. -/
theorem key_inj (firstPlain : first.Plain environment) (secondPlain : second.Plain environment) :
    first.key environment = second.key environment ↔ Same environment first second := by
  have bases := scopedKey_inj firstPlain secondPlain
  have number (start : Int) : Delimited.Free '_' start.repr :=
    Delimited.free_decimal start (by decide) (by decide)
  rw [key_eq, key_eq]
  by_cases firstFixed : first.type = .fixedWindow
  · by_cases secondFixed : second.type = .fixedWindow
    · rw [if_pos firstFixed, if_pos secondFixed, Delimited.join_inj (number _) (number _), bases]
      constructor
      · rintro ⟨starts, type, scope, service, name⟩
        exact ⟨type, scope, service, name, fun _ => Delimited.decimal_injective starts⟩
      · rintro ⟨type, scope, service, name, window⟩
        exact ⟨by rw [window firstFixed], type, scope, service, name⟩
    · have different : first.type ≠ second.type := fun same => secondFixed (same ▸ firstFixed)
      rw [if_pos firstFixed, if_neg secondFixed]
      exact iff_of_false (windowed_ne_scopedKey firstPlain secondPlain different _)
        fun same => different same.type
  · by_cases secondFixed : second.type = .fixedWindow
    · have different : second.type ≠ first.type := fun same => firstFixed (same ▸ secondFixed)
      rw [if_neg firstFixed, if_pos secondFixed]
      exact iff_of_false (windowed_ne_scopedKey secondPlain firstPlain different _).symm
        fun same => different same.type.symm
    · rw [if_neg firstFixed, if_neg secondFixed, bases]
      constructor
      · rintro ⟨type, scope, service, name⟩
        exact ⟨type, scope, service, name, fun fixed => absurd fixed firstFixed⟩
      · rintro ⟨type, scope, service, name, _⟩
        exact ⟨type, scope, service, name⟩

end Counting

/-- An operation of a limiter on the counter store: it reads and writes one key. -/
structure CounterOperation (Value : Type) where
  perform : SharedDict String Value → String → SharedDict String Value
  frame : ∀ dict {key other}, other ≠ key → (perform dict key).get other = dict.get other

/-- The `incoming` of a fixed-window limiter. -/
def CountLimiter.operation (self : CountLimiter) (commit : Bool) : CounterOperation Int where
  perform dict key := (self.incoming dict key commit).1
  frame _ := self.get_incoming_of_ne

/-- The operation of a connection limiter: `incoming` adds one, `leaving` takes it back. -/
def CounterStore.operation (store : CounterStore) (value : Int) (init : Option Int) :
    CounterOperation Int where
  perform dict key := (store.incr dict key value init).1
  frame _ := store.get_incr_of_ne

/-- A run of limiters that count one request each. -/
def countAll {Context : Type*} {Value : Type} (environment : RequestEnvironment Context)
    (dict : SharedDict String Value) (requests : List (CounterOperation Value × Counting Context)) :
    SharedDict String Value :=
  requests.foldl (fun dict request => request.1.perform dict (request.2.key environment)) dict

section Isolation

variable {Context : Type*} {environment : RequestEnvironment Context}

/-- A counter is left alone by limiters that use other keys. -/
theorem countAll_get {Value : Type} (dict : SharedDict String Value) {key : String}
    {requests : List (CounterOperation Value × Counting Context)}
    (different : ∀ request ∈ requests, key ≠ request.2.key environment) :
    (countAll environment dict requests).get key = dict.get key := by
  induction requests generalizing dict with
  | nil => rfl
  | cons request requests ih =>
      have rest := ih (request.1.perform dict (request.2.key environment))
        fun later member => different later (List.mem_cons_of_mem _ member)
      have first := request.1.frame dict (different request List.mem_cons_self)
      exact rest.trans first

/-- A limiter that counts a request of a service at a time. -/
def Counting.literal (type : LimiterType) (scope : Scope) (name : String) (window : Option Int)
    (service : String) (time : Int) : Counting String :=
  { type, limiter := ⟨⟨name, none, some scope⟩, none, window⟩, context := service, time }

/-- Two limiters of one service that differ in their window length count in one
counter where their windows start together, and a global limiter counts in that
of a service called `connections`. -/
theorem counterKey_shared :
    let minute := Counting.literal .fixedWindow .service "requests" (some 60) "7" 120
    let twoMinutes := Counting.literal .fixedWindow .service "requests" (some 120) "7" 120
    let everywhere := Counting.literal .connections .global "connections_x" none "7" 0
    let service := Counting.literal .connections .service "x" none "connections" 0
    minute.limiter.window ≠ twoMinutes.limiter.window ∧
      minute.key .literal = twoMinutes.key .literal ∧
      ((CountLimiter.operation ⟨.sharedMemory, 10⟩ true).perform ∅ (twoMinutes.key .literal)).get
        (minute.key .literal) = some 1 ∧
      everywhere.limiter.key ≠ service.limiter.key ∧
      everywhere.key .literal = service.key .literal := by
  decide

/-- Two limiters use one key exactly when they agree in type, scope, service, rendered
name and window, and no number of requests counted against limiters that differ in one
of these changes the counter of a limiter. -/
theorem counters_isolated (environment : RequestEnvironment Context) (first : Counting Context)
    (plain : first.Plain environment) :
    (∀ second : Counting Context, second.Plain environment →
      (first.key environment = second.key environment ↔
        Counting.Same environment first second)) ∧
    ∀ {Value : Type} (dict : SharedDict String Value)
      (requests : List (CounterOperation Value × Counting Context)),
      (∀ request ∈ requests, request.2.Plain environment ∧
        ¬ Counting.Same environment first request.2) →
      (countAll environment dict requests).get (first.key environment) =
        dict.get (first.key environment) := by
  refine ⟨fun second secondPlain => Counting.key_inj plain secondPlain, ?_⟩
  intro Value dict requests others
  apply countAll_get
  intro request member
  obtain ⟨requestPlain, different⟩ := others request member
  exact fun same => different ((Counting.key_inj plain requestPlain).mp same)

/-- The next window of a limiter, and a limiter of another service, count elsewhere. -/
theorem counters_isolated_requests :
    let first := Counting.literal .fixedWindow .service "requests" (some 60) "7" 100
    let later := Counting.literal .fixedWindow .service "requests" (some 60) "7" 125
    let other := Counting.literal .fixedWindow .service "requests" (some 60) "8" 100
    first.key .literal ≠ later.key .literal ∧
      (countAll .literal (∅ : SharedDict String Int)
        [(CountLimiter.operation ⟨.redis, 3⟩ true, later),
          (CountLimiter.operation ⟨.redis, 3⟩ true, other)]).get (first.key .literal) = none := by
  intro first later other
  have plain : first.Plain .literal := by decide
  obtain ⟨keys, kept⟩ := counters_isolated .literal first plain
  have nextWindow : ¬ Counting.Same .literal first later := fun same =>
    absurd (same.window rfl) (by decide)
  have otherService : ¬ Counting.Same .literal first other := fun same =>
    absurd (same.service (by decide)) (by decide)
  refine ⟨fun equal => nextWindow ((keys later (by decide)).mp equal), ?_⟩
  apply kept
  intro request member
  rcases List.mem_pair.mp member with rfl | rfl
  · exact ⟨by decide, nextWindow⟩
  · exact ⟨by decide, otherService⟩

end Isolation

end Apicast.RateLimit
