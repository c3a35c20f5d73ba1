import Mathlib.Algebra.Order.Ring.Rat
import Mathlib.Tactic.Linarith
import Apicast.Foundation.FallibleLoop
import Apicast.Http.CacheStore

/-!
# The age of stored responses

What the store takes for the age of a response leaves out its `Age` header, and a response that
selects a stored one leaves the times of it as they were. The age is right nevertheless as long as
the date of the response is early enough to show it.
-/

namespace Apicast.CacheStore

open Foundation

section Ages

variable {ageValue dateValue responseTime requestTime now : ℚ}

/-- The age counts from the date, or from the request less the age that was received, whichever is
earlier. -/
theorem ageFrom_eq (order : requestTime ≤ responseTime) (positive : 0 ≤ ageValue) :
    ageFrom ageValue dateValue responseTime requestTime now =
      now - min dateValue (requestTime - ageValue) := by
  unfold ageFrom
  dsimp only
  rcases le_total dateValue (requestTime - ageValue) with early | late
  · rw [min_eq_left early, max_eq_left (le_max_of_le_right (by linarith)),
      max_eq_right (by linarith)]
    linarith
  · rw [min_eq_right late, max_eq_right (max_le (by linarith) (by linarith))]
    linarith

end Ages

section Properties

variable (lib : Library) (shared : Bool) {Thread : Type*} [DecidableEq Thread]

/-- The date of a response, if it has one that is well formed. -/
def dateValue (headers : Headers) : Option ℚ := (headers "Date").bind lib.parseHttpTime

/-- The age of a stored response, as the specification defines it: with the age that was received,
and counted from its last validation. -/
def specifiedAge (stored : Entry) (validation : Validation) (now : ℚ) : Option ℚ :=
  (dateValue lib stored.headers).map fun date =>
    ageFrom validation.age date validation.responseTime validation.requestTime now

/-- The lifetime of a stored response exceeds its age. -/
def younger (stored : Entry) (validation : Validation) (now : ℚ) : Bool :=
  match freshnessLifetime lib shared stored.headers, specifiedAge lib stored validation now with
  | .ok (some lifetime), some age => age < lifetime
  | _, _ => false

/-- The stored response that is served to a request without the backend. -/
def servedFromStore (store : Store) (now : ℚ) (request : Request) : Option Nat :=
  match get lib shared store now request with
  | .ok (.hit id, _) => some id
  | _ => none

/-- What is expected of the store: at any later time, what it serves without the backend is younger
than its lifetime, and what a response has selected is served as long as it is. -/
structure Accurate (state : State Thread) : Prop where
  served : ∀ now request id, state.now ≤ now →
    servedFromStore lib shared state.store now request = some id →
      ∃ stored, state.store.entries id = some stored ∧
        younger lib shared stored (state.validations id) now = true
  again : ∀ now request id stored, state.now ≤ now → reuseStoredResponse lib request →
    state.store.find (requestCacheKey request) = some (id, stored) →
      (state.validations id).selected → younger lib shared stored (state.validations id) now →
        servedFromStore lib shared state.store now request = some id

/-- A response that is stored has no age, or its date is at least as early as the age says. -/
def ShowsAge (request : Request) (time : ℚ) (response : Response) : Prop :=
  stores lib shared request response → ∀ date ∈ dateValue lib response.headers,
    ageValue lib response.headers = 0 ∨ date ≤ time - ageValue lib response.headers

/-- The date that a stored response has after another one selects it. -/
def selectedDate (stored : Entry) (response : Response) : Option ℚ :=
  (stored.headers "Date").bind fun date =>
    lib.parseHttpTime ((response.headers "Date").getD date)

/-- A response that selects a stored one leaves it with a date that is not later than the request
that it was made of, nor than the own request less the age. Or both requests come to the same. -/
def ShowsSelected (stored : Entry) (time : ℚ) (response : Response) : Prop :=
  selects stored response → ∀ date ∈ selectedDate lib stored response,
    (date ≤ stored.requestTime ∧ date ≤ time - ageValue lib response.headers) ∨
      stored.requestTime = time - ageValue lib response.headers

/-- What is assumed of the response to a request at the backend. -/
def ShowsPending (state : State Thread) (response : Response) : Pending → Prop
  | .fetching request time => ShowsAge lib shared request time response
  | .revalidating id request time =>
      (response.status = 304 → ∀ stored ∈ state.store.entries id,
        ShowsSelected lib stored time response) ∧
      (response.status ≠ 304 → ShowsAge lib shared request time response)

def Shows (state : State Thread) : Action Thread → Prop
  | .arrive thread _ (some response) => ∀ pending ∈ state.pending thread,
      ShowsPending lib shared state response pending
  | _ => True

instance (request : Request) (time : ℚ) (response : Response) :
    Decidable (ShowsAge lib shared request time response) :=
  inferInstanceAs (Decidable (_ → ∀ date ∈ dateValue lib response.headers, _ ∨ _))

instance (stored : Entry) (time : ℚ) (response : Response) :
    Decidable (ShowsSelected lib stored time response) :=
  inferInstanceAs (Decidable (_ → ∀ date ∈ selectedDate lib stored response, _ ∨ _))

instance (state : State Thread) (response : Response) (pending : Pending) :
    Decidable (ShowsPending lib shared state response pending) :=
  match pending with
  | .fetching _ _ => inferInstanceAs (Decidable (ShowsAge ..))
  | .revalidating id _ _ =>
      inferInstanceAs (Decidable ((_ → ∀ stored ∈ state.store.entries id, _) ∧ (_ → _)))

instance (state : State Thread) (action : Action Thread) :
    Decidable (Shows lib shared state action) :=
  match action with
  | .arrive thread _ (some _) =>
      inferInstanceAs (Decidable (∀ pending ∈ state.pending thread, _))
  | .arrive _ _ none | .send _ _ _ | .evict _ => inferInstanceAs (Decidable True)

end Properties

section Invariant

variable {lib : Library} {shared : Bool} {stored : Entry} {validation : Validation}

/-- The age of a stored response is the same by its own times and by its last validation. -/
structure Tracks (lib : Library) (stored : Entry) (validation : Validation) : Prop where
  order : stored.requestTime ≤ stored.responseTime
  validated : validation.requestTime ≤ validation.responseTime
  positive : 0 ≤ validation.age
  same : ∀ date ∈ dateValue lib stored.headers,
    min date stored.requestTime = min date (validation.requestTime - validation.age)

theorem ageValue_nonneg (headers : Headers) : 0 ≤ ageValue lib headers := by
  unfold ageValue
  cases (headers "Age").bind lib.tonumber with
  | none => exact le_rfl
  | some age => exact le_max_left 0 age

/-- The store computes the age that is specified. -/
theorem Tracks.currentAge (tracks : Tracks lib stored validation) {now age : ℚ} :
    currentAge lib stored now = .ok age ↔ specifiedAge lib stored validation now = some age := by
  have same := tracks.same
  unfold CacheStore.currentAge specifiedAge dateOf
  unfold dateValue at same ⊢
  cases header : stored.headers "Date" with
  | none => exact iff_of_false nofun nofun
  | some text =>
      rw [header] at same
      cases parsed : lib.parseHttpTime text with
      | none =>
          simp only [Option.bind_some, parsed, Option.map_none, reduceCtorEq, iff_false]
          nofun
      | some date =>
          have equal : ageFrom 0 date stored.responseTime stored.requestTime now =
              ageFrom validation.age date validation.responseTime validation.requestTime now := by
            rw [ageFrom_eq tracks.order le_rfl, ageFrom_eq tracks.validated tracks.positive,
              sub_zero, same date parsed]
          simp only [Option.bind_some, parsed, Option.map_some, Option.some.injEq, ← equal]
          change Except.ok (ageFrom 0 date stored.responseTime stored.requestTime now) = _ ↔ _
          rw [Except.ok.injEq]

/-- A response is fresh to the store when it is younger than its lifetime. -/
theorem Tracks.fresh_iff (tracks : Tracks lib stored validation) {now : ℚ} :
    (∃ age, freshResponse lib shared stored now = .ok (true, age)) ↔
      younger lib shared stored validation now = true := by
  unfold freshResponse younger
  simp only [FallibleLoop.bind_eq_ok, tracks.currentAge]
  constructor
  · rintro ⟨age, _, aged, lifetime, lives, compared⟩
    rw [lives, aged]
    cases lifetime with
    | none => cases compared
    | some lifetime => exact congrArg Prod.fst (Except.ok.inj compared)
  · intro young
    split at young
    · next lifetime age lives aged =>
        refine ⟨age, age, aged, some lifetime, lives, ?_⟩
        dsimp only
        rw [young]
    · cases young

/-- A request is served from the store exactly when it may be, and the response is fresh. -/
theorem servedFromStore_eq_some {store : Store} {now : ℚ} {request : Request} {id : Nat} :
    servedFromStore lib shared store now request = some id ↔
      reuseStoredResponse lib request = true ∧ ∃ stored,
        store.find (requestCacheKey request) = some (id, stored) ∧ ∃ age,
          freshResponse lib shared stored now = .ok (true, age) := by
  unfold servedFromStore get
  cases reuseStoredResponse lib request with
  | false => simp
  | true =>
      cases store.find (requestCacheKey request) with
      | none => simp
      | some found =>
          obtain ⟨other, stored⟩ := found
          cases answered : freshResponse lib shared stored now with
          | error error => simp [answered, bind, Except.bind]
          | ok result =>
              obtain ⟨isFresh, age⟩ := result
              cases isFresh with
              | false => simp [answered, bind, Except.bind]
              | true => simp [answered, bind, Except.bind]

end Invariant

section Steps

variable {lib : Library} {shared : Bool} {Thread : Type*} [DecidableEq Thread]

theorem find_eq_some {store : Store} {key : String} {id : Nat} {stored : Entry}
    (found : store.find key = some (id, stored)) : store.entries id = some stored := by
  obtain ⟨other, -, present⟩ := Option.bind_eq_some_iff.mp found
  obtain ⟨entry, present, same⟩ := Option.map_eq_some_iff.mp present
  cases same
  exact present

/-- The ages of all stored responses are the same by their own times and by their validations. -/
def Tracking (lib : Library) (store : Store) (validations : Nat → Validation) : Prop :=
  ∀ id stored, store.entries id = some stored → Tracks lib stored (validations id)

def Pending.time : Pending → ℚ
  | revalidating _ _ time | fetching _ time => time

/-- What holds of the store between two steps. -/
structure Tracked (lib : Library) (state : State Thread) : Prop where
  sent : ∀ thread pending, state.pending thread = some pending → pending.time ≤ state.now
  tracking : Tracking lib state.store state.validations

variable {store : Store} {validations : Nat → Validation} {state : State Thread} {thread : Thread}

/-- A stored response that is replaced is tracked like the others. -/
theorem Tracking.update (tracking : Tracking lib store validations) {id : Nat} {stored : Entry}
    {validation : Validation} (tracks : Tracks lib stored validation) {cache : String → Option Nat}
    {created : Nat} :
    Tracking lib ⟨cache, Function.update store.entries id (some stored), created⟩
      (Function.update validations id validation) := by
  intro other entry present
  change Function.update store.entries id (some stored) other = some entry at present
  by_cases same : other = id
  · subst same
    rw [Function.update_self] at present ⊢
    cases present
    exact tracks
  · rw [Function.update_of_ne same] at present ⊢
    exact tracking other entry present

theorem dateValue_update {headers : Headers} {name : String} {value : Option String}
    (other : "Date" ≠ name) :
    dateValue lib (Function.update headers name value) = dateValue lib headers := by
  unfold dateValue
  rw [Function.update_of_ne other]

/-- A header other than the date says nothing about the age. -/
theorem Tracking.setHeader (tracking : Tracking lib store validations) (id : Nat) {name : String}
    (value : String) (other : "Date" ≠ name) :
    Tracking lib (store.setHeader id name value) validations := by
  cases present : store.entries id with
  | none =>
      unfold Store.setHeader
      rw [present, Option.map_none, ← present, Function.update_eq_self]
      exact tracking
  | some stored =>
      have tracks := tracking id stored present
      have kept : Tracks lib
          { stored with headers := Function.update stored.headers name (some value) }
          (validations id) := by
        refine ⟨tracks.order, tracks.validated, tracks.positive, fun date member => ?_⟩
        exact tracks.same date (dateValue_update other ▸ member)
      unfold Store.setHeader
      rw [present, Option.map_some, ← Function.update_eq_self id validations]
      exact tracking.update kept

theorem tracking_get (tracking : Tracking lib store validations) {now : ℚ} {request : Request}
    {found : Found} {after : Store}
    (got : get lib shared store now request = .ok (found, after)) :
    Tracking lib after validations := by
  unfold get at got
  split at got
  · cases got
    exact tracking
  · split at got
    · cases got
      exact tracking
    · obtain ⟨⟨fresh, age⟩, -, got⟩ := FallibleLoop.bind_eq_ok.mp got
      cases fresh with
      | true =>
          cases got
          exact (tracking.setHeader _ _ (by decide)).setHeader _ _ (by decide)
      | false =>
          cases got
          split
          · exact (tracking.setHeader _ _ (by decide)).setHeader _ _ (by decide)
          · exact tracking.setHeader _ _ (by decide)

omit [DecidableEq Thread] in
/-- The tracked ages are what is expected of the store. -/
theorem Tracked.accurate (tracked : Tracked lib state) : Accurate lib shared state where
  served := by
    intro now request id _ hit
    obtain ⟨-, stored, found, fresh⟩ := servedFromStore_eq_some.mp hit
    have present := find_eq_some found
    exact ⟨stored, present, (tracked.tracking id stored present).fresh_iff.mp fresh⟩
  again := by
    intro now request id stored _ reuse found _ young
    exact servedFromStore_eq_some.mpr ⟨reuse, stored, found,
      (tracked.tracking id stored (find_eq_some found)).fresh_iff.mpr young⟩

theorem Tracked.finish (tracked : Tracked lib state) {result : Except String Sent} :
    Tracked lib (state.finish thread result) := by
  refine ⟨fun other pending waits => ?_, tracked.tracking⟩
  change Function.update state.pending thread none other = some pending at waits
  by_cases same : other = thread
  · subst same
    rw [Function.update_self] at waits
    cases waits
  · rw [Function.update_of_ne same] at waits
    exact tracked.sent other pending waits

theorem Tracked.await (tracked : Tracked lib state) {pending : Pending}
    (sent : pending.time ≤ state.now) : Tracked lib (state.await thread pending) := by
  refine ⟨fun other before waits => ?_, tracked.tracking⟩
  change Function.update state.pending thread (some pending) other = some before at waits
  by_cases same : other = thread
  · subst same
    rw [Function.update_self] at waits
    cases waits
    exact sent
  · rw [Function.update_of_ne same] at waits
    exact tracked.sent other before waits

theorem Tracked.begin (tracked : Tracked lib state) (request : Request) :
    Tracked lib (begin lib shared state thread request) := by
  unfold CacheStore.begin
  cases got : get lib shared state.store state.now request with
  | error error => exact tracked.finish
  | ok result =>
      obtain ⟨found, store⟩ := result
      have moved : Tracked lib { state with store } :=
        ⟨tracked.sent, tracking_get tracked.tracking got⟩
      cases found with
      | hit id => exact moved.finish
      | nothing error => exact moved.await le_rfl
      | mustRevalidate id =>
          dsimp only
          split
          · exact tracked
          · have marked : Tracked lib { state with
                store := store.setHeader id "X-Cache-Status" "UPDATING" } :=
              ⟨tracked.sent, moved.tracking.setHeader _ _ (by decide)⟩
            exact marked.await le_rfl

omit [DecidableEq Thread] in
/-- A response that shows its age is tracked when it is stored. -/
theorem Tracked.save (tracked : Tracked lib state) {request : Request} {time : ℚ}
    {response : Response} (sent : time ≤ state.now)
    (shows : ShowsAge lib shared request time response) :
    Tracked lib (state.save lib shared request time response) := by
  unfold State.save CacheStore.set
  cases stored : stores lib shared request response with
  | false => exact ⟨tracked.sent, tracked.tracking⟩
  | true =>
      refine ⟨tracked.sent, tracked.tracking.update ?_⟩
      refine ⟨sent, sent, ageValue_nonneg _, fun date member => ?_⟩
      change date ∈ dateValue lib (Function.update response.headers _ _) at member
      rw [dateValue_update (by decide)] at member
      change min date time = min date (time - ageValue lib response.headers)
      rcases shows stored date member with none | early
      · rw [none, sub_zero]
      · have positive : 0 ≤ ageValue lib response.headers := ageValue_nonneg _
        rw [min_eq_left early, min_eq_left (early.trans (sub_le_self _ positive))]

theorem dateValue_freshen {stored : Entry} {response : Response}
    (selected : selects stored response = true) :
    dateValue lib (freshenStoredResponse stored response).headers =
      selectedDate lib stored response := by
  unfold dateValue selectedDate freshenStoredResponse
  rw [selected, if_pos rfl]
  dsimp only
  rw [Function.update_of_ne (by decide)]
  cases stored.headers "Date" with
  | none => rfl
  | some before => cases response.headers "Date" <;> rfl

omit [DecidableEq Thread] in
/-- A response that selects a stored one is tracked when it shows the age of it. -/
theorem Tracked.freshen (tracked : Tracked lib state) {id : Nat} {stored : Entry} {time : ℚ}
    {response : Response} (present : state.store.entries id = some stored) (sent : time ≤ state.now)
    (shows : ShowsSelected lib stored time response) :
    Tracked lib (state.freshen lib id stored time response) := by
  have tracks := tracked.tracking id stored present
  unfold State.freshen
  cases selected : selects stored response with
  | false =>
      have same : freshenStoredResponse stored response = stored := by
        unfold freshenStoredResponse
        rw [selected]
        rfl
      rw [same, ← present, Function.update_eq_self]
      exact tracked
  | true =>
      refine ⟨tracked.sent, tracked.tracking.update ?_⟩
      have times : (freshenStoredResponse stored response).requestTime = stored.requestTime ∧
          (freshenStoredResponse stored response).responseTime = stored.responseTime := by
        unfold freshenStoredResponse
        rw [selected]
        exact ⟨rfl, rfl⟩
      refine ⟨?_, sent, ageValue_nonneg _, fun date member => ?_⟩
      · rw [times.1, times.2]
        exact tracks.order
      · rw [times.1]
        change _ = min date (time - ageValue lib response.headers)
        rw [dateValue_freshen selected] at member
        rcases shows selected date member with ⟨before, early⟩ | same
        · rw [min_eq_left before, min_eq_left early]
        · rw [same]

theorem Tracked.resume (tracked : Tracked lib state) {reply : Option Response}
    {pending : Pending} (sent : pending.time ≤ state.now)
    (shows : ∀ response ∈ reply, ShowsPending lib shared state response pending) :
    Tracked lib (resume lib shared state thread reply pending) := by
  cases pending with
  | fetching request time =>
      cases reply with
      | none => exact tracked.finish
      | some response => exact (tracked.save sent (shows response rfl)).finish
  | revalidating id request time =>
      unfold CacheStore.resume
      dsimp only
      split
      · next response stored present =>
          obtain ⟨selected, replaced⟩ := shows response rfl
          split
          · next unmodified =>
              have shown := selected unmodified stored present
              exact (tracked.freshen present sent shown).finish
          · next modified =>
              split
              · exact tracked.finish
              · exact (tracked.save sent (replaced modified)).finish
      · exact tracked.finish

/-- Every step whose response shows its age keeps the ages tracked. -/
theorem Tracked.next {action : Action Thread} {after : State Thread} (tracked : Tracked lib state)
    (shows : Shows lib shared state action)
    (stepped : next lib shared state action = some after) : Tracked lib after := by
  have later {now : ℚ} (order : state.now ≤ now) : Tracked lib { state with now } :=
    ⟨fun thread pending waits => (tracked.sent thread pending waits).trans order, tracked.tracking⟩
  cases action with
  | send thread now request =>
      obtain ⟨⟨order, -⟩, equal⟩ := Option.ite_none_right_eq_some.mp stepped
      cases equal
      exact (later order).begin request
  | arrive thread now response =>
      obtain ⟨order, resumed⟩ := Option.ite_none_right_eq_some.mp stepped
      obtain ⟨pending, waits, rfl⟩ := Option.map_eq_some_iff.mp resumed
      refine (later order).resume ((tracked.sent thread pending waits).trans order) ?_
      rintro response ⟨⟩
      exact shows pending waits
  | evict key =>
      cases stepped
      exact ⟨tracked.sent, tracked.tracking⟩

/-- In every run whose responses show their ages, the store is accurate in all states. -/
theorem accurate_of_shows (lib : Library) (shared : Bool) (now : ℚ) {state : State Thread}
    (reached : (machine lib shared now).ReachableWithin (Shows lib shared) state) :
    Accurate lib shared state := by
  have invariant : (machine lib shared now : Machine (State Thread) _).InvariantWithin
      (Shows lib shared) (Tracked lib) := by
    refine ⟨⟨nofun, nofun⟩, fun _ _ _ tracked shows stepped => ?_⟩
    exact tracked.next shows stepped
  exact (invariant.of_reachable reached).accurate

end Steps

section Examples

/-- The libraries, on the headers below. -/
def library : Library where
  tonumber text := if text = "50" then some 50 else if text = "60" then some 60 else none
  parseHttpTime text :=
    if text = "Thu, 01 Jan 1970 00:00:00 GMT" then some 0
    else if text = "Thu, 01 Jan 1970 00:01:40 GMT" then some 100
    else none
  splitDirectives header := [header]
  splitDirective directive :=
    if directive = "max-age=60" then some ("max-age", some "60") else some (directive, none)

def request : Request where
  method := "GET"
  url := "https://www.example.com/"
  version := 11 / 10
  headers := fun _ => none

/-- A response of a date and an age that may be used for a minute. -/
def aged (status : Nat) (date : String) (age : Option String) : Response where
  status := status
  headers := fun name =>
    if name = "Date" then some date
    else if name = "Age" then age
    else if name = "Cache-Control" then some "max-age=60"
    else none
  body := ""

/-- The response was on its way for fifty seconds, which its date shows. -/
theorem accurate_shown : ∃ state : State Unit,
    (machine library false 150).run (machine library false 150).initial
        [.send () 150 request, .arrive () 150 (some (aged 200 "Thu, 01 Jan 1970 00:01:40 GMT"
          (some "50"))), .send () 155 request] = some state ∧
      Accurate library false state := by
  have executes : ((machine library false 150).runWithin (Shows library false)
      (machine library false 150).initial [.send () 150 request,
        .arrive () 150 (some (aged 200 "Thu, 01 Jan 1970 00:01:40 GMT" (some "50"))),
        .send () 155 request]).isSome := by decide +kernel
  obtain ⟨state, executed⟩ := Option.isSome_iff_exists.mp executes
  exact ⟨state, Machine.run_of_runWithin executed,
    accurate_of_shows library false 150 (.run .initial executed)⟩

/-- What a run of one thread leaves, from a time on. -/
def after (now : ℚ) (actions : List (Action Unit)) : Option (State Unit) :=
  (machine library false now).run (machine library false now).initial actions

/-- A response that is fifty seconds old when it is received is served for a minute more, and one
that is selected after its lifetime is not served again. -/
theorem not_accurate_received : (∃ state, after 100 [.send () 100 request,
      .arrive () 100 (some (aged 200 "Thu, 01 Jan 1970 00:01:40 GMT" (some "50")))] = some state ∧
        ¬Accurate library false state) ∧
    ∃ state, after 0 [.send () 0 request,
      .arrive () 0 (some (aged 200 "Thu, 01 Jan 1970 00:00:00 GMT" none)), .send () 100 request,
      .arrive () 100 (some (aged 304 "Thu, 01 Jan 1970 00:01:40 GMT" none))] = some state ∧
        ¬Accurate library false state := by
  constructor
  · have ran : (after 100 [.send () 100 request,
        .arrive () 100 (some (aged 200 "Thu, 01 Jan 1970 00:01:40 GMT" (some "50")))]).any
          fun state => decide (state.now ≤ 120 ∧
            servedFromStore library false state.store 120 request = some 0 ∧
              ∀ stored ∈ state.store.entries 0,
                younger library false stored (state.validations 0) 120 = false) := by
      decide +kernel
    obtain ⟨state, executed, old⟩ := (Option.any_eq_true _ _).mp ran
    obtain ⟨later, served, old⟩ := of_decide_eq_true old
    refine ⟨state, executed, fun accurate => ?_⟩
    obtain ⟨stored, present, young⟩ := accurate.served 120 request 0 later served
    exact Bool.false_ne_true ((old stored present).symm.trans young)
  · have ran : (after 0 [.send () 0 request,
        .arrive () 0 (some (aged 200 "Thu, 01 Jan 1970 00:00:00 GMT" none)),
        .send () 100 request,
        .arrive () 100 (some (aged 304 "Thu, 01 Jan 1970 00:01:40 GMT" none))]).any
          fun state => decide (state.now ≤ 110 ∧
            servedFromStore library false state.store 110 request = none ∧
              ∃ found ∈ state.store.find (requestCacheKey request),
                (state.validations found.1).selected = true ∧
                  younger library false found.2 (state.validations found.1) 110 = true) := by
      decide +kernel
    obtain ⟨state, executed, young⟩ := (Option.any_eq_true _ _).mp ran
    obtain ⟨later, refused, ⟨id, stored⟩, found, selected, young⟩ := of_decide_eq_true young
    refine ⟨state, executed, fun accurate => ?_⟩
    have reuse : reuseStoredResponse library request := by decide +kernel
    have served := accurate.again 110 request id stored later reuse found selected young
    exact nomatch refused.symm.trans served

end Examples

end Apicast.CacheStore
