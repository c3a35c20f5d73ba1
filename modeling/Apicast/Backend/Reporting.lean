import Apicast.Backend.CachedKey
import Apicast.Backend.Decisions
import Apicast.Foundation.TransitionSystem

/-!
# Authorizing and reporting requests

A request is reported to the backend by the call that authorizes it, or, when its authorization
was cached, by a call after the request is over. Which of the two it is goes through a variable of
the request, `cached_key`, that every phase and every error sets, also the errors by which other
policies end a request. The phases are those of the APIcast policy (`policy/apicast/apicast.lua`)
and of `proxy.lua`; requests share the cache of the authorizations and the executor of the reports.
-/

namespace Apicast

open Foundation

namespace Reporting

open Proxy

/-- What a request brings along and what other policies decide about it. -/
structure Incoming where
  /-- What the authorization depends on, unless no service was found. -/
  auth : Option AuthRequest
  /-- `transform_credentials` returns an error. -/
  oauthFails : Bool
  skipApicastAccess : Bool
  cacheIsDisabled : Bool
  /-- `context.ttl` -/
  ttl : Option Int

inductive Stage
  | arrived
  | rewritten
  /-- The access phase waits for the backend. -/
  | asking (cachedKey : String)
  /-- The access phase of APIcast is over, and the request goes on. -/
  | passed
  /-- The request is over, and its post action is to come. -/
  | ended
  /-- The report waits for its timer. -/
  | posted (cachedKey : String)
  | reporting (cachedKey : String) (inTimer : Bool)
  | closed
  /-- No timer was created for the report. -/
  | lost
  deriving DecidableEq

/-- One request, and the calls of the backend that were made for it. -/
structure Progress where
  stage : Stage
  /-- `ngx.var.cached_key` -/
  cachedKey : Option String
  /-- `context[self].run_post_action` -/
  runPostAction : Bool
  /-- The calls in the access phase. -/
  asked : Nat
  /-- The calls in the post action. -/
  reported : Nat
  /-- `authorize` let the request through. -/
  authorized : Bool
  /-- Another policy ended the request and cleared the variable. -/
  cleared : Bool

/-- A request before its first phase. -/
def Progress.arrive : Progress := ⟨.arrived, some "", false, 0, 0, false, false⟩

/-- The errors of `errors.lua`, which end the request. -/
def Progress.exit (progress : Progress) : Progress :=
  { progress with cachedKey := none, stage := .ended }

/-- The request is over. Other policies end requests by `errors.lua` too, or as `oauth_mtls.lua`
does, which clears the variable. -/
def Progress.finish (progress : Progress) (clears : Bool) : Progress :=
  if clears then { progress.exit with cleared := true } else { progress with stage := .ended }

/-- `apicast.lua` and `proxy.lua`, `_M:rewrite` -/
def rewrite (incoming : Incoming) (progress : Progress) : Progress :=
  match incoming.auth with
  | none => { progress with stage := .rewritten }
  | some auth =>
      match auth.rewriteKey with
      | none => progress.exit
      | some key =>
          if incoming.oauthFails then { progress with cachedKey := some key }.exit
          else { progress with cachedKey := some key, stage := .rewritten }

/-- `proxy.lua`, `_M:authorize` up to the call of the backend. -/
def authorize (incoming : Incoming) (auth : AuthRequest) (cache : AuthorizationCache)
    (progress : Progress) : Option Progress :=
  progress.cachedKey.map fun rewritten =>
    match auth.authorizeKey rewritten with
    | none => progress.exit
    | some key =>
        if (cache.get key).map (·.status) = some 200 ∧ incoming.cacheIsDisabled = false then
          { progress with cachedKey := some key, stage := .passed, authorized := true }
        else { progress with cachedKey := none, stage := .asking key, asked := progress.asked + 1 }

/-- `apicast.lua` and `proxy.lua`, `_M:access` -/
def access (incoming : Incoming) (cache : AuthorizationCache) (progress : Progress) :
    Option Progress :=
  if incoming.skipApicastAccess then some { progress with stage := .passed }
  else
    let entered := { progress with runPostAction := true }
    match incoming.auth with
    -- without a service there is no usage, and `authorize` returns at once
    | none => some { entered with stage := .passed }
    | some auth => authorize incoming auth cache entered

/-- The end of `_M:authorize`. -/
def settle (decision : Decision) (progress : Progress) : Progress :=
  if decision.authorized then { progress with stage := .passed, authorized := true }
  else progress.exit

/-- The executor of the reports: `immediate_executor`, or a pool with a number of free timers
whose fallback is `caller_runs`. -/
abbrev Executor := Option Nat

/-- `executor:post` -/
def post (executor : Executor) (cachedKey : String) (created : Bool) (progress : Progress) :
    Executor × Progress :=
  match executor with
  | some (free + 1) =>
      (some free, { progress with stage := if created then .posted cachedKey else .lost })
  | other => (other, { progress with
      stage := .reporting cachedKey false, reported := progress.reported + 1 })

/-- `apicast.lua` and `proxy.lua`, `_M:post_action` -/
def postAction (executor : Executor) (created : Bool) (progress : Progress) :
    Executor × Progress :=
  let skipped := { progress with stage := .closed }
  if progress.runPostAction then
    match progress.cachedKey with
    | none => (executor, skipped)
    | some key =>
        if key = "null" ∨ key = "" then (executor, skipped)
        else post executor key created progress
  else (executor, skipped)

/-- A worker: its requests, the cache and the executor. -/
structure Worker (Request : Type*) where
  requests : Request → Progress
  cache : AuthorizationCache
  executor : Executor

inductive Action (Request : Type*)
  | rewrite (request : Request)
  | access (request : Request)
  /-- The backend answers the call of the access phase. -/
  | answer (request : Request) (response : BackendResponse)
  /-- The request ends: it is served, the client goes away, or another policy exits, which may
  clear the variable. -/
  | finish (request : Request) (clears : Bool)
  | postAction (request : Request) (created : Bool)
  | fire (request : Request)
  /-- The backend answers the call of the post action. -/
  | report (request : Request) (response : BackendResponse)
  /-- An entry of the cache expires or is written by something else. -/
  | others (cache : AuthorizationCache)

section Machine

variable {Request : Type*} [DecidableEq Request] (tonumber : String → Option Rat)
  (handler : Option String → CacheHandler) (incoming : Request → Incoming)

/-- A request moves on. -/
def Worker.move (worker : Worker Request) (request : Request) (progress : Progress) :
    Worker Request :=
  { worker with requests := Function.update worker.requests request progress }

/-- One phase of a request; the handler of the cache reads `ngx.var.cached_key`, which a timer does
not have. -/
def next (worker : Worker Request) : Action Request → Option (Worker Request)
  | .rewrite request =>
      let progress := worker.requests request
      match progress.stage with
      | .arrived => some (worker.move request (rewrite (incoming request) progress))
      | _ => none
  | .access request =>
      let progress := worker.requests request
      match progress.stage with
      | .rewritten => (access (incoming request) worker.cache progress).map (worker.move request)
      | _ => none
  | .answer request response =>
      let progress := worker.requests request
      match progress.stage with
      | .asking key =>
          let handled := handleBackendResponse tonumber (handler progress.cachedKey) worker.cache
            key response (incoming request).ttl
          some ({ worker with cache := handled.1 }.move request (settle handled.2 progress))
      | _ => none
  | .finish request clears =>
      let progress := worker.requests request
      match progress.stage with
      | .arrived | .rewritten | .asking _ | .passed =>
          some (worker.move request (progress.finish clears))
      | _ => none
  | .postAction request created =>
      let progress := worker.requests request
      match progress.stage with
      | .ended =>
          let posted := postAction worker.executor created progress
          some ({ worker with executor := posted.1 }.move request posted.2)
      | _ => none
  | .fire request =>
      let progress := worker.requests request
      match progress.stage with
      | .posted key => some (worker.move request { progress with
          stage := .reporting key true, reported := progress.reported + 1 })
      | _ => none
  | .report request response =>
      let progress := worker.requests request
      match progress.stage with
      | .reporting key inTimer =>
          let var := if inTimer then none else progress.cachedKey
          let handled := handleBackendResponse tonumber (handler var) worker.cache key response none
          let executor := if inTimer then worker.executor.map (· + 1) else worker.executor
          some ({ worker with cache := handled.1, executor }.move request
            { progress with stage := .closed })
      | _ => none
  | .others cache => some { worker with cache }

/-- All requests are still to come. -/
def machine (cache : AuthorizationCache) (executor : Executor) :
    Machine (Worker Request) (Action Request) where
  initial := ⟨fun _ => .arrive, cache, executor⟩
  next := next tonumber handler incoming

end Machine

/-- A request that was let through on a cached authorization, and is still to be reported. -/
def Owed (progress : Progress) : Prop :=
  progress.asked = 0 ∧ ∃ key, progress.cachedKey = some key ∧ key ≠ "null" ∧ key ≠ ""

/-- What the post action makes of the request: it reports what is owed and nothing else. -/
structure Due (progress : Progress) : Prop where
  unreported : progress.reported = 0
  atMostOnce : progress.asked ≤ 1
  owed : progress.authorized = true → progress.runPostAction = true ∧
    (progress.asked = 1 ∧ progress.cachedKey = none ∨ Owed progress ∨ progress.cleared = true)
  unset : progress.cleared = true → progress.cachedKey = none
  settled : progress.authorized = false → progress.runPostAction = false ∨
    progress.cachedKey = none ∨ progress.cachedKey = some ""

/-- A request on which no call was made and nothing was decided. -/
structure Untouched (progress : Progress) : Prop where
  unasked : progress.asked = 0
  unreported : progress.reported = 0
  undecided : progress.authorized = false
  uncleared : progress.cleared = false

/-- Where a request stands with its calls, stage by stage. -/
def Accounted (incoming : Incoming) (progress : Progress) : Prop :=
  match progress.stage with
  | .arrived => Untouched progress ∧ progress.runPostAction = false ∧ progress.cachedKey = some ""
  | .rewritten => Untouched progress ∧ progress.runPostAction = false ∧
      (incoming.auth = none → progress.cachedKey = some "")
  | .asking _ => progress.asked = 1 ∧ progress.reported = 0 ∧ progress.authorized = false ∧
      progress.cachedKey = none ∧ progress.runPostAction = true
  | .passed | .ended => Due progress
  | .posted _ | .lost => progress.asked = 0 ∧ progress.reported = 0 ∧
      progress.authorized = true ∧ progress.cleared = false
  | .reporting _ _ => progress.asked = 0 ∧ progress.reported = 1 ∧
      progress.authorized = true ∧ progress.cleared = false
  | .closed => progress.asked + progress.reported ≤ 1 ∧
      (progress.authorized = true →
        (progress.asked + progress.reported = 1 ↔ progress.asked = 1 ∨ progress.cleared = false)) ∧
      (progress.reported = 1 → progress.authorized = true)

section Steps

variable {incoming : Incoming} {progress : Progress} {cache : AuthorizationCache}

theorem Untouched.due (untouched : Untouched progress)
    (quiet : progress.runPostAction = false ∨ progress.cachedKey = none ∨
      progress.cachedKey = some "") : Due progress where
  unreported := untouched.unreported
  atMostOnce := untouched.unasked ▸ Nat.zero_le 1
  owed authorized := absurd (authorized.symm.trans untouched.undecided) Bool.noConfusion
  unset cleared := absurd (cleared.symm.trans untouched.uncleared) Bool.noConfusion
  settled _ := quiet

theorem Untouched.moved (untouched : Untouched progress) (stage : Stage)
    (cachedKey : Option String) (runPostAction : Bool) :
    Untouched { progress with stage, cachedKey, runPostAction } :=
  ⟨untouched.unasked, untouched.unreported, untouched.undecided, untouched.uncleared⟩

/-- A key with a colon in it is not taken for a missing one. -/
theorem authorizeKey_ne {auth : AuthRequest} {rewritten key : String}
    (keyed : auth.authorizeKey rewritten = some key) : key ≠ "null" ∧ key ≠ "" := by
  have colon : ':' ∈ key.toList := by
    unfold AuthRequest.authorizeKey at keyed
    dsimp only at keyed
    split at keyed
    · cases keyed
    · split at keyed <;> cases keyed <;>
        simp only [String.toList_append, List.mem_append] <;> simp
  constructor
  · rintro rfl
    exact absurd colon (by decide)
  · rintro rfl
    exact absurd colon (by decide)

/-- The rewrite phase keeps the accounts. -/
theorem accounted_rewrite (arrived : progress.stage = .arrived)
    (accounted : Accounted incoming progress) :
    Accounted incoming (rewrite incoming progress) := by
  unfold Accounted at accounted
  rw [arrived] at accounted
  obtain ⟨untouched, quiet, unset⟩ := accounted
  unfold rewrite
  cases found : incoming.auth with
  | none => exact ⟨untouched.moved _ _ _, quiet, fun _ => unset⟩
  | some auth =>
      dsimp only
      cases auth.rewriteKey with
      | none => exact (untouched.moved _ _ _).due (.inl quiet)
      | some key =>
          dsimp only
          split
          · exact (untouched.moved _ _ _).due (.inl quiet)
          · exact ⟨untouched.moved _ _ _, quiet, fun absent => by
              rw [found] at absent
              cases absent⟩

/-- So does the access phase, which lets a request through on a cached authorization only with the
key set. -/
theorem accounted_access {after : Progress} (rewritten : progress.stage = .rewritten)
    (accounted : Accounted incoming progress)
    (accessed : access incoming cache progress = some after) : Accounted incoming after := by
  unfold Accounted at accounted
  rw [rewritten] at accounted
  obtain ⟨untouched, quiet, unset⟩ := accounted
  unfold access at accessed
  split at accessed
  · cases accessed
    exact (untouched.moved _ _ _).due (.inl quiet)
  · cases found : incoming.auth with
    | none =>
        rw [found] at accessed
        cases accessed
        exact (untouched.moved _ _ _).due (.inr (.inr (unset found)))
    | some auth =>
        rw [found] at accessed
        obtain ⟨key, _, authorized⟩ := Option.map_eq_some_iff.mp accessed
        subst authorized
        cases keyed : auth.authorizeKey key with
        | none => exact (untouched.moved _ _ _).due (.inr (.inl rfl))
        | some cachedKey =>
            dsimp only
            split
            · have named := authorizeKey_ne keyed
              exact ⟨untouched.unreported, untouched.unasked ▸ Nat.zero_le 1,
                fun _ => ⟨rfl, .inr (.inl ⟨untouched.unasked, cachedKey, rfl, named⟩)⟩,
                fun cleared => absurd (cleared.symm.trans untouched.uncleared) Bool.noConfusion,
                fun refused => by cases refused⟩
            · exact ⟨congrArg (· + 1) untouched.unasked, untouched.unreported,
                untouched.undecided, rfl, rfl⟩

/-- So does the decision on the answer of a backend that was asked. -/
theorem accounted_settle {key : String} (asking : progress.stage = .asking key)
    (accounted : Accounted incoming progress) (decision : Decision) :
    Accounted incoming (settle decision progress) := by
  unfold Accounted at accounted
  rw [asking] at accounted
  obtain ⟨asked, unreported, undecided, unset, runs⟩ := accounted
  unfold settle
  split
  · exact ⟨unreported, asked ▸ Nat.le_refl 1, fun _ => ⟨runs, .inl ⟨asked, unset⟩⟩,
      fun _ => unset, fun refused => by cases refused⟩
  · exact ⟨unreported, asked ▸ Nat.le_refl 1,
      fun authorized => absurd (authorized.symm.trans undecided) Bool.noConfusion,
      fun _ => rfl, fun _ => .inr (.inl rfl)⟩

/-- A request that ends is still to be reported, unless its variable is cleared. -/
theorem Due.finish (due : Due progress) (clears : Bool) : Due (progress.finish clears) := by
  cases clears with
  | false => exact ⟨due.unreported, due.atMostOnce, due.owed, due.unset, due.settled⟩
  | true =>
      exact ⟨due.unreported, due.atMostOnce,
        fun authorized => ⟨(due.owed authorized).1, .inr (.inr rfl)⟩,
        fun _ => rfl, fun _ => .inr (.inl rfl)⟩

/-- A request that is cut off is still accounted for. -/
theorem accounted_finish (accounted : Accounted incoming progress)
    (alive : progress.stage = .arrived ∨ progress.stage = .rewritten ∨
      (∃ key, progress.stage = .asking key) ∨ progress.stage = .passed) (clears : Bool) :
    Accounted incoming (progress.finish clears) := by
  have due : Due progress := by
    unfold Accounted at accounted
    rcases alive with arrived | rewritten | ⟨key, asking⟩ | passed
    · rw [arrived] at accounted
      obtain ⟨untouched, quiet, _⟩ := accounted
      exact untouched.due (.inl quiet)
    · rw [rewritten] at accounted
      obtain ⟨untouched, quiet, _⟩ := accounted
      exact untouched.due (.inl quiet)
    · rw [asking] at accounted
      obtain ⟨asked, unreported, undecided, unset, _⟩ := accounted
      exact ⟨unreported, asked ▸ Nat.le_refl 1,
        fun authorized => absurd (authorized.symm.trans undecided) Bool.noConfusion,
        fun _ => unset, fun _ => .inr (.inl unset)⟩
    · rw [passed] at accounted
      exact accounted
  cases clears with
  | false => exact due.finish false
  | true => exact due.finish true

/-- A post action that reports nothing closes the accounts of a request that owes nothing. -/
theorem Due.accounted_closed (incoming : Incoming) (due : Due progress)
    (asked : progress.authorized = true → progress.cleared = false → progress.asked = 1) :
    Accounted incoming { progress with stage := .closed } := by
  refine ⟨?_, ?_, ?_⟩
  · change progress.asked + progress.reported ≤ 1
    rw [due.unreported]
    exact due.atMostOnce
  · intro authorized
    change progress.asked + progress.reported = 1 ↔ progress.asked = 1 ∨ progress.cleared = false
    rw [due.unreported]
    exact ⟨.inl, fun counted => counted.elim id (asked authorized)⟩
  · intro reported
    exact absurd (due.unreported.symm.trans reported) Nat.zero_ne_one

/-- Without a key nothing is owed: the backend was asked for the authorization. -/
theorem Due.asked_of_missing (due : Due progress)
    (missing : ∀ key, progress.cachedKey = some key → key = "null" ∨ key = "")
    (authorized : progress.authorized = true) (uncleared : progress.cleared = false) :
    progress.asked = 1 := by
  rcases (due.owed authorized).2 with ⟨asked, _⟩ | ⟨_, key, present, named⟩ | cleared
  · exact asked
  · exact absurd (missing key present) (not_or.mpr named)
  · rw [uncleared] at cleared
    cases cleared

/-- With a key the report is owed. -/
theorem Due.owed_of_key (due : Due progress) (runs : progress.runPostAction = true) {key : String}
    (found : progress.cachedKey = some key) (present : ¬(key = "null" ∨ key = "")) :
    progress.asked = 0 ∧ progress.authorized = true ∧ progress.cleared = false := by
  have authorized : progress.authorized = true := by
    by_contra refused
    rcases due.settled (Bool.eq_false_iff.mpr refused) with quiet | none | empty
    · rw [runs] at quiet
      cases quiet
    · rw [found] at none
      cases none
    · rw [found] at empty
      exact present (.inr (Option.some.inj empty))
  have uncleared : progress.cleared = false := by
    by_contra cleared
    have unset := due.unset (Bool.not_eq_false _ ▸ cleared)
    rw [found] at unset
    cases unset
  refine ⟨?_, authorized, uncleared⟩
  rcases (due.owed authorized).2 with ⟨_, none⟩ | ⟨unasked, _⟩ | cleared
  · rw [found] at none
    cases none
  · exact unasked
  · rw [uncleared] at cleared
    cases cleared

/-- The post action reports what is owed, or loses it with the timer. -/
theorem accounted_postAction {executor : Executor} {created : Bool}
    (ended : progress.stage = .ended) (accounted : Accounted incoming progress) :
    Accounted incoming (postAction executor created progress).2 := by
  unfold Accounted at accounted
  rw [ended] at accounted
  have due : Due progress := accounted
  unfold postAction
  dsimp only
  split
  · rename_i runs
    cases found : progress.cachedKey with
    | none =>
        apply due.accounted_closed incoming
        exact due.asked_of_missing fun key present => by
          rw [found] at present
          cases present
    | some key =>
        dsimp only
        split
        · rename_i missing
          apply due.accounted_closed incoming
          exact due.asked_of_missing fun other present => by
            rw [found] at present
            cases present
            exact missing
        · rename_i present
          obtain ⟨unasked, authorized, uncleared⟩ := due.owed_of_key runs found present
          unfold post
          split
          · cases created with
            | true => exact ⟨unasked, due.unreported, authorized, uncleared⟩
            | false => exact ⟨unasked, due.unreported, authorized, uncleared⟩
          · exact ⟨unasked, congrArg (· + 1) due.unreported, authorized, uncleared⟩
  · rename_i quiet
    apply due.accounted_closed incoming
    intro authorized _
    exact absurd (due.owed authorized).1 quiet

/-- A request that is accounted for costs at most one call, and exactly one when it was let through
and is over, unless the authorization was cached and the variable was cleared. -/
theorem Accounted.once (accounted : Accounted incoming progress) :
    progress.asked + progress.reported ≤ 1 ∧
      (progress.reported = 1 → progress.authorized = true) ∧
      (progress.stage = .closed → progress.authorized = true →
        (progress.asked + progress.reported = 1 ↔
          progress.asked = 1 ∨ progress.cleared = false)) := by
  have before (unreported : progress.reported = 0) (few : progress.asked ≤ 1)
      (unfinished : progress.stage ≠ .closed) :
      progress.asked + progress.reported ≤ 1 ∧
        (progress.reported = 1 → progress.authorized = true) ∧
        (progress.stage = .closed → progress.authorized = true →
          (progress.asked + progress.reported = 1 ↔
            progress.asked = 1 ∨ progress.cleared = false)) := by
    rw [unreported]
    exact ⟨few, fun never => absurd never Nat.zero_ne_one,
      fun finished => absurd finished unfinished⟩
  unfold Accounted at accounted
  cases stage : progress.stage with
  | arrived =>
      rw [stage] at accounted before
      exact before accounted.1.2 (accounted.1.1 ▸ Nat.zero_le 1) Stage.noConfusion
  | rewritten =>
      rw [stage] at accounted before
      exact before accounted.1.2 (accounted.1.1 ▸ Nat.zero_le 1) Stage.noConfusion
  | asking key =>
      rw [stage] at accounted before
      exact before accounted.2.1 accounted.1.le Stage.noConfusion
  | passed =>
      rw [stage] at accounted before
      exact before accounted.1 accounted.2 Stage.noConfusion
  | ended =>
      rw [stage] at accounted before
      exact before accounted.1 accounted.2 Stage.noConfusion
  | posted key =>
      rw [stage] at accounted before
      exact before accounted.2.1 (accounted.1 ▸ Nat.zero_le 1) Stage.noConfusion
  | lost =>
      rw [stage] at accounted before
      exact before accounted.2.1 (accounted.1 ▸ Nat.zero_le 1) Stage.noConfusion
  | reporting key inTimer =>
      rw [stage] at accounted
      obtain ⟨unasked, reported, authorized, _⟩ := accounted
      rw [unasked, reported]
      exact ⟨Nat.le_refl 1, fun _ => authorized, fun finished => Stage.noConfusion finished⟩
  | closed =>
      rw [stage] at accounted
      exact ⟨accounted.1, accounted.2.2, fun _ => accounted.2.1⟩

end Steps

section Runs

variable {Request : Type*} [DecidableEq Request] {tonumber : String → Option Rat}
  {handler : Option String → CacheHandler} {incoming : Request → Incoming}
  {before after : Worker Request} {action : Action Request}

/-- The request that an action is about. -/
def Action.about : Action Request → Option Request
  | .rewrite request | .access request | .answer request _ | .finish request _ => some request
  | .postAction request _ | .fire request | .report request _ => some request
  | .others _ => none

/-- What an action makes of the request that it is about. -/
inductive Moves (incoming : Request → Incoming) (before : Worker Request) (request : Request) :
    Action Request → Progress → Prop
  | rewrite (arrived : (before.requests request).stage = .arrived) :
      Moves incoming before request (.rewrite request)
        (Reporting.rewrite (incoming request) (before.requests request))
  | access {progress : Progress} (rewritten : (before.requests request).stage = .rewritten)
      (accessed : Reporting.access (incoming request) before.cache (before.requests request) =
        some progress) :
      Moves incoming before request (.access request) progress
  | answer {key : String} (asking : (before.requests request).stage = .asking key)
      (response : BackendResponse) (decision : Decision) :
      Moves incoming before request (.answer request response)
        (settle decision (before.requests request))
  | finish (alive : (before.requests request).stage = .arrived ∨
        (before.requests request).stage = .rewritten ∨
        (∃ key, (before.requests request).stage = .asking key) ∨
        (before.requests request).stage = .passed) (clears : Bool) :
      Moves incoming before request (.finish request clears)
        ((before.requests request).finish clears)
  | postAction (ended : (before.requests request).stage = .ended) (created : Bool) :
      Moves incoming before request (.postAction request created)
        (Reporting.postAction before.executor created (before.requests request)).2
  | fire {key : String} (posted : (before.requests request).stage = .posted key) :
      Moves incoming before request (.fire request) { before.requests request with
        stage := .reporting key true, reported := (before.requests request).reported + 1 }
  | report {key : String} {inTimer : Bool}
      (reporting : (before.requests request).stage = .reporting key inTimer)
      (response : BackendResponse) :
      Moves incoming before request (.report request response)
        { before.requests request with stage := .closed }

/-- The immediate executor stays as it is. -/
theorem postAction_immediate (created : Bool) (progress : Progress) :
    (postAction none created progress).1 = none := by
  unfold postAction
  dsimp only
  split
  · split
    · rfl
    · split <;> rfl
  · rfl

/-- When one request moves, the others are as they were. -/
theorem Moves.cases {moved : Request} {progress : Progress}
    (moves : Moves incoming before moved action progress) (about : action.about = some moved)
    (request : Request) :
    (Function.update before.requests moved progress request = before.requests request ∧
        action.about ≠ some request) ∨
      Moves incoming before request action
        (Function.update before.requests moved progress request) := by
  by_cases same : request = moved
  · subst same
    rw [Function.update_self]
    exact .inr moves
  · rw [Function.update_of_ne same, about]
    exact .inl ⟨rfl, fun other => same (Option.some.inj other).symm⟩

/-- What a step can do: the request that the action is about moves, and the immediate executor stays
as it is. -/
theorem next_cases (stepped : next tonumber handler incoming before action = some after) :
    (before.executor = none → after.executor = none) ∧ ∀ request,
      (after.requests request = before.requests request ∧ action.about ≠ some request) ∨
        Moves incoming before request action (after.requests request) := by
  cases action with
  | rewrite moved =>
      unfold Reporting.next at stepped
      dsimp only at stepped
      split at stepped <;> cases stepped
      exact ⟨id, Moves.cases (.rewrite ‹_›) rfl⟩
  | access moved =>
      unfold Reporting.next at stepped
      dsimp only at stepped
      split at stepped
      · obtain ⟨progress, accessed, rfl⟩ := Option.map_eq_some_iff.mp stepped
        exact ⟨id, Moves.cases (.access ‹_› accessed) rfl⟩
      · cases stepped
  | answer moved response =>
      unfold Reporting.next at stepped
      dsimp only at stepped
      split at stepped <;> cases stepped
      exact ⟨id, Moves.cases (.answer ‹_› response _) rfl⟩
  | finish moved clears =>
      unfold Reporting.next at stepped
      dsimp only at stepped
      split at stepped <;> cases stepped
      · exact ⟨id, Moves.cases (.finish (.inl ‹_›) clears) rfl⟩
      · exact ⟨id, Moves.cases (.finish (.inr (.inl ‹_›)) clears) rfl⟩
      · exact ⟨id, Moves.cases (.finish (.inr (.inr (.inl ⟨_, ‹_›⟩))) clears) rfl⟩
      · exact ⟨id, Moves.cases (.finish (.inr (.inr (.inr ‹_›))) clears) rfl⟩
  | postAction moved created =>
      unfold Reporting.next at stepped
      dsimp only at stepped
      split at stepped <;> cases stepped
      refine ⟨fun immediate => ?_, Moves.cases (.postAction ‹_› created) rfl⟩
      change (postAction before.executor created (before.requests moved)).1 = none
      rw [immediate]
      exact postAction_immediate created _
  | fire moved =>
      unfold Reporting.next at stepped
      dsimp only at stepped
      split at stepped <;> cases stepped
      exact ⟨id, Moves.cases (.fire ‹_›) rfl⟩
  | report moved response =>
      unfold Reporting.next at stepped
      dsimp only at stepped
      split at stepped <;> cases stepped
      rename_i key inTimer reporting
      refine ⟨fun immediate => ?_, Moves.cases (.report reporting response) rfl⟩
      change (if inTimer then before.executor.map (· + 1) else before.executor) = none
      rw [immediate]
      exact ite_self _
  | others cache =>
      cases stepped
      exact ⟨id, fun request => .inl ⟨rfl, nofun⟩⟩

/-- All requests of a worker are accounted for. -/
def AllAccounted (incoming : Request → Incoming) (worker : Worker Request) : Prop :=
  ∀ request, Accounted (incoming request) (worker.requests request)

omit [DecidableEq Request] in
/-- A request that moves stays accounted for. -/
theorem Moves.accounted {request : Request} {progress : Progress}
    (moves : Moves incoming before request action progress)
    (accounted : Accounted (incoming request) (before.requests request)) :
    Accounted (incoming request) progress := by
  cases moves with
  | rewrite arrived => exact accounted_rewrite arrived accounted
  | access rewritten accessed => exact accounted_access rewritten accounted accessed
  | answer asking response decision => exact accounted_settle asking accounted decision
  | finish alive clears => exact accounted_finish accounted alive clears
  | postAction ended created => exact accounted_postAction ended accounted
  | fire posted =>
      unfold Accounted at accounted
      rw [posted] at accounted
      obtain ⟨unasked, unreported, authorized, uncleared⟩ := accounted
      exact ⟨unasked, congrArg (· + 1) unreported, authorized, uncleared⟩
  | report reporting response =>
      unfold Accounted at accounted
      rw [reporting] at accounted
      obtain ⟨unasked, reported, authorized, uncleared⟩ := accounted
      have once : (before.requests request).asked + (before.requests request).reported = 1 := by
        rw [unasked, reported]
      exact ⟨once.le, fun _ => iff_of_true once (.inr uncleared), fun _ => authorized⟩

/-- Every step of the worker keeps the accounts of all requests. -/
theorem AllAccounted.next (all : AllAccounted incoming before)
    (stepped : next tonumber handler incoming before action = some after) :
    AllAccounted incoming after := by
  intro request
  rcases (next_cases stepped).2 request with ⟨same, _⟩ | moves
  · rw [same]
    exact all request
  · exact moves.accounted (all request)

/-- Only a post action can leave a request without a timer for its report. -/
theorem stage_rewrite_ne_lost (incoming : Incoming) (progress : Progress) :
    (rewrite incoming progress).stage ≠ .lost := by
  unfold rewrite
  split
  · exact Stage.noConfusion
  · split
    · exact Stage.noConfusion
    · split <;> exact Stage.noConfusion

theorem stage_access_ne_lost {incoming : Incoming} {cache : AuthorizationCache}
    {progress accessedProgress : Progress}
    (accessed : access incoming cache progress = some accessedProgress) :
    accessedProgress.stage ≠ .lost := by
  unfold access at accessed
  split at accessed
  · cases accessed
    exact Stage.noConfusion
  · dsimp only at accessed
    split at accessed
    · cases accessed
      exact Stage.noConfusion
    · obtain ⟨key, _, rfl⟩ := Option.map_eq_some_iff.mp accessed
      split
      · exact Stage.noConfusion
      · split <;> exact Stage.noConfusion

theorem stage_settle_ne_lost (decision : Decision) (progress : Progress) :
    (settle decision progress).stage ≠ .lost := by
  unfold settle
  split <;> exact Stage.noConfusion

/-- Only a timer that is not created loses a report. -/
theorem postAction_lost {executor : Executor} {created : Bool} {progress : Progress}
    (lost : (postAction executor created progress).2.stage = .lost) :
    executor ≠ none ∧ created = false := by
  unfold postAction at lost
  dsimp only at lost
  split at lost
  · split at lost
    · cases lost
    · split at lost
      · cases lost
      · unfold post at lost
        split at lost
        · cases created with
          | true => cases lost
          | false => exact ⟨Option.some_ne_none _, rfl⟩
        · cases lost
  · cases lost

omit [DecidableEq Request] in
/-- A request that moves is lost only by a post action whose timer was not created. -/
theorem Moves.lost {request : Request} {progress : Progress}
    (moves : Moves incoming before request action progress) (lost : progress.stage = .lost) :
    before.executor ≠ none ∧ action = .postAction request false := by
  cases moves with
  | rewrite arrived => exact absurd lost (stage_rewrite_ne_lost _ _)
  | access rewritten accessed => exact absurd lost (stage_access_ne_lost accessed)
  | answer asking response decision => exact absurd lost (stage_settle_ne_lost _ _)
  | finish alive clears => cases clears <;> cases lost
  | postAction ended created =>
      obtain ⟨pooled, rfl⟩ := postAction_lost lost
      exact ⟨pooled, rfl⟩
  | fire posted => cases lost
  | report reporting response => cases lost

/-- A report is lost only when its timer was not created. -/
theorem lost_next {request : Request}
    (stepped : next tonumber handler incoming before action = some after)
    (lost : (after.requests request).stage = .lost) :
    (before.requests request).stage = .lost ∨
      before.executor ≠ none ∧ action = .postAction request false := by
  rcases (next_cases stepped).2 request with ⟨same, _⟩ | moves
  · exact .inl (same ▸ lost)
  · exact .inr (moves.lost lost)

theorem cleared_rewrite (incoming : Incoming) (progress : Progress) :
    (rewrite incoming progress).cleared = progress.cleared := by
  unfold rewrite
  split
  · rfl
  · split
    · rfl
    · split <;> rfl

theorem cleared_access {incoming : Incoming} {cache : AuthorizationCache}
    {progress accessedProgress : Progress}
    (accessed : access incoming cache progress = some accessedProgress) :
    accessedProgress.cleared = progress.cleared := by
  unfold access at accessed
  split at accessed
  · cases accessed
    rfl
  · dsimp only at accessed
    split at accessed
    · cases accessed
      rfl
    · obtain ⟨key, _, rfl⟩ := Option.map_eq_some_iff.mp accessed
      split
      · rfl
      · split <;> rfl

theorem cleared_settle (decision : Decision) (progress : Progress) :
    (settle decision progress).cleared = progress.cleared := by
  unfold settle
  split <;> rfl

theorem cleared_postAction (executor : Executor) (created : Bool) (progress : Progress) :
    (postAction executor created progress).2.cleared = progress.cleared := by
  unfold postAction
  dsimp only
  split
  · split
    · rfl
    · split
      · rfl
      · unfold post
        split <;> rfl
  · rfl

theorem cleared_finish (clears : Bool) (progress : Progress) :
    (progress.finish clears).cleared = (progress.cleared || clears) := by
  cases clears with
  | false => exact (Bool.or_false _).symm
  | true => exact (Bool.or_true _).symm

omit [DecidableEq Request] in
/-- A request that moves is cleared when it was, or when another policy's exit does it. -/
theorem Moves.cleared {request : Request} {progress : Progress}
    (moves : Moves incoming before request action progress) :
    progress.cleared = true ↔
      (before.requests request).cleared = true ∨ action = .finish request true := by
  have kept {action : Action Request} {progress : Progress}
      (same : progress.cleared = (before.requests request).cleared)
      (different : action ≠ .finish request true) :
      progress.cleared = true ↔
        (before.requests request).cleared = true ∨ action = .finish request true := by
    rw [same, or_iff_left different]
  cases moves with
  | rewrite arrived => exact kept (cleared_rewrite _ _) nofun
  | access rewritten accessed => exact kept (cleared_access accessed) nofun
  | answer asking response decision => exact kept (cleared_settle _ _) nofun
  | finish alive clears =>
      rw [cleared_finish, Bool.or_eq_true]
      exact or_congr_right ⟨fun same => by rw [same], fun same => (Action.finish.inj same).2⟩
  | postAction ended created => exact kept (cleared_postAction _ _ _) nofun
  | fire posted => exact kept rfl nofun
  | report reporting response => exact kept rfl nofun

/-- Only another policy's exit clears the variable for good. -/
theorem cleared_next {request : Request}
    (stepped : next tonumber handler incoming before action = some after) :
    (after.requests request).cleared = true ↔
      (before.requests request).cleared = true ∨ action = .finish request true := by
  rcases (next_cases stepped).2 request with ⟨same, elsewhere⟩ | moves
  · rw [same, or_iff_left]
    rintro rfl
    exact elsewhere rfl
  · exact moves.cleared

/-- In every interleaving of requests, whatever the cache holds and the backend answers, a request
costs at most one call of the backend, and the post action only reports requests that were let
through. A request that was let through is reported exactly once, by its authorization or
afterwards, unless it was authorized from the cache and another policy's exit cleared its key, or no
timer could be created for the report. -/
theorem reported_once {cache : AuthorizationCache} {executor : Executor}
    {actions : List (Action Request)} {worker : Worker Request}
    (executed : (machine tonumber handler incoming cache executor).run
      (machine tonumber handler incoming cache executor).initial actions = some worker)
    (request : Request) :
    (worker.requests request).asked + (worker.requests request).reported ≤ 1 ∧
      ((worker.requests request).reported = 1 → (worker.requests request).authorized = true) ∧
      ((worker.requests request).stage = .closed → (worker.requests request).authorized = true →
        ((worker.requests request).asked + (worker.requests request).reported = 1 ↔
          (worker.requests request).asked = 1 ∨ .finish request true ∉ actions)) ∧
      ((worker.requests request).stage = .lost →
        executor ≠ none ∧ .postAction request false ∈ actions) := by
  let recorded (past : List (Action Request)) (worker : Worker Request) : Prop :=
    AllAccounted incoming worker ∧ (executor = none → worker.executor = none) ∧
      ((worker.requests request).cleared = true ↔ .finish request true ∈ past) ∧
      ((worker.requests request).stage = .lost →
        executor ≠ none ∧ .postAction request false ∈ past)
  have initially : recorded [] (machine tonumber handler incoming cache executor).initial :=
    ⟨fun _ => ⟨⟨rfl, rfl, rfl, rfl⟩, rfl, rfl⟩, id, iff_of_false Bool.noConfusion List.not_mem_nil,
      fun lost => Stage.noConfusion lost⟩
  have held : recorded actions worker := by
    refine Machine.run_records initially ?_ executed
    rintro past before action after ⟨all, immediate, cleared, lost⟩ stepped
    refine ⟨all.next stepped, fun absent => (next_cases stepped).1 (immediate absent), ?_,
      fun now => ?_⟩
    · rw [cleared_next stepped, cleared, List.mem_append, List.mem_singleton, eq_comm]
    · rcases lost_next stepped now with earlier | ⟨pooled, rfl⟩
      · exact ⟨(lost earlier).1, List.mem_append_left _ (lost earlier).2⟩
      · exact ⟨fun absent => pooled (immediate absent),
          List.mem_append_right _ List.mem_cons_self⟩
  obtain ⟨all, _, cleared, lost⟩ := held
  obtain ⟨few, decided, once⟩ := (all request).once
  rw [← Bool.not_eq_true, cleared] at once
  exact ⟨few, decided, once, lost⟩

/-- A request with a user key, for one hit. -/
def oneHit : Incoming where
  auth := some ⟨"1", .userKey (some "key"), Usage.new.add "hits" 1, []⟩
  oauthFails := false
  skipApicastAccess := false
  cacheIsDisabled := false
  ttl := none

/-- Three requests, one after the other: the first is reported by its authorization, the second
after it was served, and the third, which another policy cuts off, not at all. -/
theorem reported_once_cached :
    let machine :=
      machine (fun _ => none) BackendCacheHandler.strict (fun _ : Fin 3 => oneHit) ∅ none
    let actions := [.rewrite 0, .access 0, .answer 0 ⟨some 200, none⟩, .finish 0 false,
      .postAction 0 true, .rewrite 1, .access 1, .finish 1 false, .postAction 1 true,
      .report 1 ⟨some 200, none⟩, .rewrite 2, .access 2, .finish 2 true, .postAction 2 true]
    ∃ worker, machine.run machine.initial actions = some worker ∧
      (worker.requests 0).asked + (worker.requests 0).reported = 1 ∧
      (worker.requests 1).asked + (worker.requests 1).reported = 1 ∧
      ¬(worker.requests 2).asked + (worker.requests 2).reported = 1 := by
  intro machine actions
  have runs : (machine.run machine.initial actions).any (fun worker =>
      (List.finRange 3).all fun request => (worker.requests request).stage = .closed &&
        (worker.requests request).authorized) = true := by decide
  have asked : (machine.run machine.initial actions).any (fun worker =>
      (worker.requests 0).asked = 1 && (worker.requests 2).asked = 0) = true := by decide
  cases executed : machine.run machine.initial actions with
  | none =>
      rw [executed] at runs
      cases runs
  | some worker =>
      rw [executed] at runs asked
      have closed (request : Fin 3) : (worker.requests request).stage = .closed ∧
          (worker.requests request).authorized = true := by
        have all := List.all_eq_true.mp runs request (List.mem_finRange request)
        simpa using all
      have calls : (worker.requests 0).asked = 1 ∧ (worker.requests 2).asked = 0 := by
        simpa using asked
      refine ⟨worker, rfl, ?_, ?_, ?_⟩
      · exact ((reported_once executed 0).2.2.1 (closed 0).1 (closed 0).2).mpr (.inl calls.1)
      · refine ((reported_once executed 1).2.2.1 (closed 1).1 (closed 1).2).mpr (.inr ?_)
        simp [actions]
      · rw [(reported_once executed 2).2.2.1 (closed 2).1 (closed 2).2, calls.2]
        simp [actions]

end Runs

end Reporting

end Apicast
