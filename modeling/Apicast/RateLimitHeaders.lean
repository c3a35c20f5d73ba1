import Apicast.UsageFormat

/-!
# Rate limit headers

`policy/rate_limit_headers`. The limits that the backend answers with are cached
and counted down while requests are served without asking it. The key of an entry
is made of the usage of the request, so the requests of all applications and
services with the same usage share one entry.
-/

namespace Apicast.RateLimitHeaders

open Foundation

/-- Reading and writing numbers, and `string.format("%i", number)`. -/
structure Numerals (Number : Type*) where
  tonumber : String → Option Number
  tostring : Number → String
  truncate : Number → Number

/-- The headers of an answer of the backend. -/
structure LimitHeaders where
  limitMaxValue : Option String
  limitRemaining : Option String
  limitReset : Option String
  deriving DecidableEq, Repr

/-- The headers added to a response. -/
structure RateLimit (Number : Type*) where
  limit : Number
  remaining : Number
  reset : Number
  deriving DecidableEq, Repr

section Entries

variable {Number : Type*} [Zero Number] [One Number] [Add Number] [Sub Number] [LE Number]
  [DecidableLE Number] (numerals : Numerals Number)

/-- An entry while it is in use: two counters and the time at which the limits are reset. -/
structure Entry (Number : Type*) where
  limit : Number
  remaining : Number
  limitTime : Number

/-- A missing value counts as zero. -/
def numberOr (text : Option String) : Option Number :=
  match text with
  | none => some 0
  | some text => numerals.tonumber text

/-- `cache_entry.new`, which raises an error when the time until the reset is no number. -/
def Entry.new (max remaining reset : Option String) (now : Number) : Option (Entry Number) :=
  (numberOr numerals reset).map fun delta =>
    { limit := (numberOr numerals max).getD 0
      remaining := (numberOr numerals remaining).getD 0
      limitTime := now + delta }

def Entry.initEmpty (now : Number) : Entry Number where
  limit := 0
  remaining := 0
  limitTime := now + now

def Entry.decrement (entry : Entry Number) : Entry Number :=
  { entry with remaining := entry.remaining - 1 }

def Entry.remainingSecsPositive (entry : Entry Number) (now : Number) : Number :=
  let result := entry.limitTime - now
  if 0 ≤ result then numerals.truncate result else 0

def Entry.export (entry : Entry Number) (now : Number) : String :=
  numerals.tostring entry.limit ++ "#" ++ numerals.tostring entry.remaining ++ "#" ++
    numerals.tostring (entry.remainingSecsPositive numerals now)

def Entry.import (data : String) (now : Number) : Option (Entry Number) :=
  let fields := (data.toList.splitOn '#').map String.ofList
  Entry.new numerals fields[0]? fields[1]? fields[2]? now

/-- `add_headers(info:dump_data())`, which adds nothing when there is nothing to reset. -/
def Entry.addHeaders (entry : Entry Number) (now : Number) : Option (RateLimit Number) :=
  let reset := entry.remainingSecsPositive numerals now
  if reset ≤ 0 then none
  else
    some
      { limit := if 0 ≤ entry.limit then entry.limit else 0
        remaining := if 0 ≤ entry.remaining then entry.remaining else 0
        reset }

end Entries

section Cache

variable {Number : Type*} [Zero Number] [One Number] [Add Number] [Sub Number] [LE Number]
  [DecidableLE Number] (numerals : Numerals Number)

/-- The shared dictionary with the exported entries. -/
abbrev Cache := SharedDict String String

def getKey (usage : Usage) : String := "rate_limit_headers" ++ "::" ++ usage.encodedFormat

def decrementUsageMetric (cache : Cache) (usage : Option Usage) (now : Number) :
    Cache × Option (Entry Number) :=
  match usage with
  | none => (cache, some (Entry.initEmpty now))
  | some usage =>
      match cache.get (getKey usage) with
      | none => (cache, some (Entry.initEmpty now))
      | some raw =>
          match Entry.import numerals raw now with
          | none => (cache, none)
          | some data =>
              let data := data.decrement
              (cache.set (getKey usage) (data.export numerals now), some data)

def resetOrCreateUsageMetric (cache : Cache) (usage : Usage) (headers : LimitHeaders)
    (now : Number) : Option (Cache × Entry Number) :=
  (Entry.new numerals headers.limitMaxValue headers.limitRemaining headers.limitReset now).map
    fun data => (cache.set (getKey usage) (data.export numerals now), data)

end Cache

section Histories

/-- What happens to the cache: a request, for which the backend may have been asked in the
access phase, or an answer of the backend to a report after the request. -/
inductive Event (Application Number : Type*)
  | request (application : Application) (usage : Option Usage) (answer : Option LimitHeaders)
      (accessTime contentTime : Number)
  | report (application : Application) (usage : Usage) (answer : LimitHeaders) (time : Number)

variable {Application Number : Type*}

def Event.application : Event Application Number → Application
  | .request application _ _ _ _ => application
  | .report application _ _ _ => application

variable [Zero Number] [One Number] [Add Number] [Sub Number] [LE Number] [DecidableLE Number]
  (numerals : Numerals Number)

/-- The handler of an answer of the backend: its entry goes to the cache and, in the access
phase, to the context. -/
def accessPhase (cache : Cache) (usage : Option Usage) (answer : Option LimitHeaders)
    (now : Number) : Cache × Option (Entry Number) :=
  match usage, answer with
  | some usage, some headers =>
      match resetOrCreateUsageMetric numerals cache usage headers now with
      | some (cache, data) => (cache, some data)
      | none => (cache, none)
  | _, _ => (cache, none)

/-- The content phase of a request: without an entry in the context the cached one is used. -/
def contentPhase (cache : Cache) (usage : Option Usage) (rateLimitInfo : Option (Entry Number))
    (now : Number) : Cache × Option (RateLimit Number) :=
  match rateLimitInfo with
  | some info => (cache, info.addHeaders numerals now)
  | none =>
      let (cache, data) := decrementUsageMetric numerals cache usage now
      (cache, data.bind (·.addHeaders numerals now))

/-- The effect of an event on the cache. -/
def Event.cacheAfter (cache : Cache) : Event Application Number → Cache
  | .request _ usage answer accessTime contentTime =>
      let (cache, info) := accessPhase numerals cache usage answer accessTime
      (contentPhase numerals cache usage info contentTime).1
  | .report _ usage answer time => (accessPhase numerals cache usage answer time).1

/-- The headers added in an event. -/
def Event.headers (cache : Cache) : Event Application Number → Option (RateLimit Number)
  | .request _ usage answer accessTime contentTime =>
      let (cache, info) := accessPhase numerals cache usage answer accessTime
      (contentPhase numerals cache usage info contentTime).2
  | .report _ _ _ _ => none

/-- The headers that the events of one application add in a history. -/
def headersOf [DecidableEq Application] (application : Application) (cache : Cache) :
    List (Event Application Number) → List (Option (RateLimit Number))
  | [] => []
  | event :: events =>
      let rest := headersOf application (event.cacheAfter numerals cache) events
      if event.application = application then event.headers numerals cache :: rest else rest

end Histories

section Isolation

variable {Application Number : Type*} [Zero Number] [One Number] [Add Number] [Sub Number]
  [LE Number] [DecidableLE Number] (numerals : Numerals Number)

/-- The answer makes an entry, whatever the cache holds. -/
def answers (usage : Option Usage) (answer : Option LimitHeaders) : Option String :=
  match usage, answer with
  | some usage, some headers =>
      if (numberOr numerals headers.limitReset).isSome then some (getKey usage) else none
  | _, _ => none

/-- The key whose entry an event replaces. -/
def Event.writes : Event Application Number → Option String
  | .request _ usage answer _ _ => answers numerals usage answer
  | .report _ usage answer _ => answers numerals (some usage) (some answer)

/-- The key whose entry an event counts down. -/
def Event.reads : Event Application Number → Option String
  | .request _ usage answer _ _ =>
      if (answers numerals usage answer).isSome then none else usage.map getKey
  | .report _ _ _ _ => none

/-- No other application has touched an entry, since the application itself last replaced it,
when the application counts it down. The keys that are given have been touched before. -/
def Undisturbed [DecidableEq Application] (application : Application) :
    List String → List (Event Application Number) → Prop
  | _, [] => True
  | touched, event :: events =>
      if event.application = application then
        (∀ key ∈ event.reads numerals, key ∉ touched) ∧
          Undisturbed application
            (touched.filter fun key => event.writes numerals ≠ some key) events
      else
        Undisturbed application
          ((event.writes numerals).toList ++ (event.reads numerals).toList ++ touched) events

instance decidableUndisturbed [DecidableEq Application] (application : Application)
    (touched : List String) (events : List (Event Application Number)) :
    Decidable (Undisturbed numerals application touched events) :=
  match events with
  | [] => .isTrue trivial
  | event :: events =>
      have := decidableUndisturbed application
        (touched.filter fun key => event.writes numerals ≠ some key) events
      have := decidableUndisturbed application
        ((event.writes numerals).toList ++ (event.reads numerals).toList ++ touched) events
      inferInstanceAs (Decidable (if event.application = application then
        (∀ key ∈ event.reads numerals, key ∉ touched) ∧
          Undisturbed numerals application
            (touched.filter fun key => event.writes numerals ≠ some key) events
        else
          Undisturbed numerals application
            ((event.writes numerals).toList ++ (event.reads numerals).toList ++ touched) events))

variable {numerals}

omit [One Number] in
theorem accessPhase_of_answers {usage : Option Usage} {answer : Option LimitHeaders}
    {key : String} (answered : answers numerals usage answer = some key) (now : Number) :
    ∃ value data, ∀ cache,
      accessPhase numerals cache usage answer now = (cache.set key value, some data) := by
  cases usage with
  | none => cases answered
  | some usage =>
      cases answer with
      | none => cases answered
      | some headers =>
          obtain ⟨numeric, same⟩ := Option.ite_none_right_eq_some.mp answered
          obtain ⟨delta, reset⟩ := Option.isSome_iff_exists.mp numeric
          cases same
          obtain ⟨data, made⟩ : ∃ data, Entry.new numerals headers.limitMaxValue
              headers.limitRemaining headers.limitReset now = some data := by
            unfold Entry.new
            rw [reset]
            exact ⟨_, rfl⟩
          refine ⟨data.export numerals now, data, fun cache => ?_⟩
          simp only [accessPhase, resetOrCreateUsageMetric, made, Option.map_some]

omit [One Number] in
theorem accessPhase_of_not_answers {usage : Option Usage} {answer : Option LimitHeaders}
    (unanswered : answers numerals usage answer = none) (now : Number) (cache : Cache) :
    accessPhase numerals cache usage answer now = (cache, none) := by
  cases usage with
  | none => rfl
  | some usage =>
      cases answer with
      | none => rfl
      | some headers =>
          have numeric : ¬ (numberOr numerals headers.limitReset).isSome := fun numeric =>
            nomatch (if_pos numeric).symm.trans unanswered
          simp only [accessPhase, resetOrCreateUsageMetric, Entry.new,
            Option.not_isSome_iff_eq_none.mp numeric, Option.map_none]

section Decrement

variable {cache other : Cache} {usage : Option Usage}

theorem decrement_get_of_ne {key : String} (different : usage.map getKey ≠ some key)
    (now : Number) : (decrementUsageMetric numerals cache usage now).1.get key = cache.get key := by
  cases usage with
  | none => rfl
  | some usage =>
      have ne : key ≠ getKey usage := fun same => different (congrArg some same.symm)
      unfold decrementUsageMetric
      dsimp only
      split
      · rfl
      · split
        · rfl
        · exact SharedDict.get_set_of_ne _ _ ne

/-- Counting down an entry depends on this entry only. -/
theorem decrement_congr (now : Number)
    (same : ∀ key ∈ usage.map getKey, cache.get key = other.get key) :
    (decrementUsageMetric numerals cache usage now).2 =
        (decrementUsageMetric numerals other usage now).2 ∧
      ∀ key ∈ usage.map getKey, (decrementUsageMetric numerals cache usage now).1.get key =
        (decrementUsageMetric numerals other usage now).1.get key := by
  cases usage with
  | none => exact ⟨rfl, nofun⟩
  | some usage =>
      have entry := same (getKey usage) rfl
      unfold decrementUsageMetric
      dsimp only
      rw [entry]
      cases present : other.get (getKey usage) with
      | none => exact ⟨rfl, same⟩
      | some raw =>
          dsimp only
          cases Entry.import numerals raw now with
          | none => exact ⟨rfl, same⟩
          | some data =>
              refine ⟨rfl, fun key listed => ?_⟩
              cases listed
              rw [SharedDict.get_set_self, SharedDict.get_set_self]

end Decrement

/-- A request or a report whose answer makes an entry only replaces this entry. -/
theorem Event.of_writes {event : Event Application Number} {written : String}
    (writes : event.writes numerals = some written) :
    ∃ value headers, ∀ cache, event.cacheAfter numerals cache = cache.set written value ∧
      event.headers numerals cache = headers := by
  cases event with
  | request application usage answer accessTime contentTime =>
      obtain ⟨value, data, phase⟩ := accessPhase_of_answers writes accessTime
      refine ⟨value, data.addHeaders numerals contentTime, fun cache => ?_⟩
      unfold cacheAfter headers
      dsimp only
      rw [phase]
      exact ⟨rfl, rfl⟩
  | report application usage answer time =>
      have answered : answers numerals (some usage) (some answer) = some written := writes
      obtain ⟨value, data, phase⟩ := accessPhase_of_answers answered time
      refine ⟨value, none, fun cache => ⟨?_, rfl⟩⟩
      unfold cacheAfter
      dsimp only
      rw [phase]

/-- Any other request counts an entry down. -/
theorem Event.of_not_writes (application : Application) {usage : Option Usage}
    {answer : Option LimitHeaders} (unanswered : answers numerals usage answer = none)
    (accessTime contentTime : Number) (cache : Cache) :
    let event : Event Application Number := .request application usage answer accessTime contentTime
    event.reads numerals = usage.map getKey ∧
      event.cacheAfter numerals cache =
        (decrementUsageMetric numerals cache usage contentTime).1 ∧
      event.headers numerals cache =
        (decrementUsageMetric numerals cache usage contentTime).2.bind
          (·.addHeaders numerals contentTime) := by
  have phase := accessPhase_of_not_answers unanswered accessTime cache
  refine ⟨?_, ?_, ?_⟩
  · unfold reads
    dsimp only
    rw [unanswered]
    rfl
  · unfold cacheAfter
    dsimp only
    rw [phase]
    rfl
  · unfold headers
    dsimp only
    rw [phase]
    rfl

/-- An event leaves the entries that it neither replaces nor counts down. -/
theorem Event.get_cacheAfter_of_untouched (event : Event Application Number) (cache : Cache)
    {key : String} (unwritten : event.writes numerals ≠ some key)
    (unread : event.reads numerals ≠ some key) :
    (event.cacheAfter numerals cache).get key = cache.get key := by
  cases writes : event.writes numerals with
  | some written =>
      obtain ⟨value, headers, effect⟩ := of_writes writes
      rw [writes] at unwritten
      rw [(effect cache).1]
      exact SharedDict.get_set_of_ne _ _ fun same => unwritten (congrArg some same.symm)
  | none =>
      cases event with
      | request application usage answer accessTime contentTime =>
          obtain ⟨reads, after, _⟩ :=
            of_not_writes application writes accessTime contentTime cache
          rw [reads] at unread
          rw [after]
          exact decrement_get_of_ne unread contentTime
      | report application usage answer time =>
          have unanswered : answers numerals (some usage) (some answer) = none := writes
          have phase := accessPhase_of_not_answers unanswered time cache
          unfold cacheAfter
          dsimp only
          rw [phase]

/-- What an event does to an entry depends on this entry only, and on nothing when the event
replaces it. -/
theorem Event.get_cacheAfter (event : Event Application Number) (cache other : Cache)
    (key : String)
    (same : event.writes numerals ≠ some key → cache.get key = other.get key) :
    (event.cacheAfter numerals cache).get key = (event.cacheAfter numerals other).get key := by
  cases writes : event.writes numerals with
  | some written =>
      obtain ⟨value, headers, effect⟩ := of_writes writes
      rw [(effect cache).1, (effect other).1, SharedDict.get_set, SharedDict.get_set]
      by_cases own : key = written
      · rw [if_pos own, if_pos own]
      · rw [if_neg own, if_neg own]
        apply same
        rw [writes]
        exact fun equal => own (Option.some.inj equal).symm
  | none =>
      have unwritten : event.writes numerals ≠ some key := by
        rw [writes]
        nofun
      by_cases counted : event.reads numerals = some key
      · cases event with
        | request application usage answer accessTime contentTime =>
            obtain ⟨reads, after, _⟩ :=
              of_not_writes application writes accessTime contentTime cache
            obtain ⟨_, otherAfter, _⟩ :=
              of_not_writes application writes accessTime contentTime other
            rw [reads] at counted
            rw [after, otherAfter]
            refine (decrement_congr contentTime ?_).2 key counted
            intro entry listed
            obtain rfl := Option.some.inj (counted.symm.trans listed)
            exact same unwritten
        | report application usage answer time => cases counted
      · rw [event.get_cacheAfter_of_untouched cache unwritten counted,
          event.get_cacheAfter_of_untouched other unwritten counted]
        exact same unwritten

/-- The headers of an event depend on the entry it counts down only. -/
theorem Event.headers_eq (event : Event Application Number) {cache other : Cache}
    (same : ∀ key ∈ event.reads numerals, cache.get key = other.get key) :
    event.headers numerals cache = event.headers numerals other := by
  cases writes : event.writes numerals with
  | some written =>
      obtain ⟨value, headers, effect⟩ := of_writes writes
      rw [(effect cache).2, (effect other).2]
  | none =>
      cases event with
      | request application usage answer accessTime contentTime =>
          obtain ⟨reads, _, headers⟩ :=
            of_not_writes application writes accessTime contentTime cache
          obtain ⟨_, _, otherHeaders⟩ :=
            of_not_writes application writes accessTime contentTime other
          rw [reads] at same
          rw [headers, otherHeaders, (decrement_congr contentTime same).1]
      | report application usage answer time => rfl

variable [DecidableEq Application]

/-- An undisturbed application adds the headers it would add alone. -/
theorem headersOf_filter (application : Application) (touched : List String)
    (events : List (Event Application Number)) (cache alone : Cache)
    (undisturbed : Undisturbed numerals application touched events)
    (same : ∀ key, key ∉ touched → cache.get key = alone.get key) :
    headersOf numerals application cache events =
      headersOf numerals application alone
        (events.filter fun event => event.application = application) := by
  induction events generalizing touched cache alone with
  | nil => rfl
  | cons event events ih =>
      by_cases own : event.application = application
      · obtain ⟨unread, later⟩ := (if_pos own).mp undisturbed
        have rest := ih _ (event.cacheAfter numerals cache) (event.cacheAfter numerals alone) later
          (by
            intro key untouched
            apply event.get_cacheAfter
            intro unwritten
            apply same
            intro listed
            exact untouched (List.mem_filter.mpr ⟨listed, decide_eq_true unwritten⟩))
        have added : event.headers numerals cache = event.headers numerals alone :=
          event.headers_eq fun key listed => same key (unread key listed)
        rw [List.filter_cons, if_pos (decide_eq_true own)]
        unfold headersOf
        rw [if_pos own, if_pos own, rest, added]
      · have later := (if_neg own).mp undisturbed
        rw [List.filter_cons, if_neg (by rwa [decide_eq_true_eq])]
        have first : headersOf numerals application cache (event :: events) =
            headersOf numerals application (event.cacheAfter numerals cache) events := if_neg own
        rw [first]
        apply ih _ _ _ later
        intro key untouched
        rw [List.mem_append, List.mem_append, not_or, not_or] at untouched
        rw [event.get_cacheAfter_of_untouched cache
          (fun writes => untouched.1.1 (Option.mem_toList.mpr writes))
          (fun reads => untouched.1.2 (Option.mem_toList.mpr reads))]
        exact same key untouched.2

/-- Histories in which the application has the same events add the same headers to its
responses. -/
def HeadersIsolated (numerals : Numerals Number) (application : Application)
    (first second : List (Event Application Number)) : Prop :=
  (first.filter fun event => event.application = application) =
      second.filter (fun event => event.application = application) →
    headersOf numerals application ∅ first = headersOf numerals application ∅ second

/-- The headers of an application are isolated from the others in all histories in which no
other application touches an entry between two uses by the application. -/
theorem headers_isolated (application : Application)
    (first second : List (Event Application Number))
    (firstUndisturbed : Undisturbed numerals application [] first)
    (secondUndisturbed : Undisturbed numerals application [] second) :
    HeadersIsolated numerals application first second := by
  intro same
  rw [headersOf_filter application [] first ∅ ∅ firstUndisturbed fun _ _ => rfl,
    headersOf_filter application [] second ∅ ∅ secondUndisturbed fun _ _ => rfl, same]

/-- Decimal numerals of integers. -/
def decimal : Numerals Int where
  tonumber text :=
    match text.toList with
    | '-' :: digits => (natural digits).map fun value => -(value : Int)
    | digits => (natural digits).map fun value => (value : Int)
  tostring number := number.repr
  truncate number := number
where
  natural (digits : List Char) : Option Nat :=
    if digits ≠ [] ∧ digits.all Char.isDigit then some (Nat.ofDigitChars 10 digits 0) else none

/-- One hit of a user of a service, for which the backend may have been asked. -/
private def hit (user : String) (answer : Option LimitHeaders) :
    Event (String × String) Int :=
  .request ("service", user) (some (Usage.new.add "hits" 1)) answer 1000 1000

/-- The second hit of alice shows what is left of the limits of bob. -/
theorem headers_shared :
    ¬ HeadersIsolated decimal ("service", "alice")
      [hit "alice" (some ⟨some "10", some "9", some "60"⟩), hit "alice" none]
      [hit "alice" (some ⟨some "10", some "9", some "60"⟩),
        hit "bob" (some ⟨some "100", some "99", some "60"⟩), hit "alice" none] := by
  intro isolated
  have shown := isolated rfl
  revert shown
  decide

/-- When the backend is asked again for alice after the hit of bob, her headers are hers. -/
theorem headers_isolated_refreshed :
    HeadersIsolated decimal ("service", "alice")
      [hit "alice" (some ⟨some "10", some "9", some "60"⟩), hit "alice" none]
      [hit "bob" (some ⟨some "100", some "99", some "60"⟩),
        hit "alice" (some ⟨some "10", some "9", some "60"⟩), hit "alice" none] := by
  apply headers_isolated
  · decide
  · decide

end Isolation

end Apicast.RateLimitHeaders
