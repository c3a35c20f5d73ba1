import Apicast.FreshAnswers
import Apicast.Synchronization

/-!
# The lock of a resolved name

`resty/resolver.lua`: a call of `get_servers` takes the permit of its name, if it is there, and
gives it back behind the lookup. Light threads give up control only while they wait for the DNS, so
what a lookup does between two queries is one step. A lookup that raises an error leaves
`get_servers` before the permit is given back.
-/

namespace Apicast

open Foundation ResolverCache

/-- A resolver, with `upstream.get_primary_peers` as the hosts and the ports of the peers. -/
structure Resolver (Cache : Type*) where
  lru : LruCache Cache
  qtype : Nat
  search : List String
  primaryPeers : String → Option (List (String × Option Nat))

namespace Resolver

section Names

def isDigits (group : List Char) : Bool :=
  1 ≤ group.length && group.length ≤ 3 && group.all Char.isDigit

/-- `is_ip`. The pattern allows a line break at the end. -/
def isIp (address : String) : Bool :=
  let name := address.toList
  let line := if name.getLast? = some '\n' then name.dropLast else name
  let groups := line.splitOn '.'
  groups.length = 4 && groups.all isDigits

def isFqdn (name : String) : Bool := name.toList.contains '.'

/-- `search_list` -/
def searchList (search : List String) (qname : String) : List String :=
  if qname.toList.getLast? = some '.' then [String.ofList qname.toList.dropLast]
  else search.map fun domain => qname ++ "." ++ domain

def newAnswer (address : String) (port : Option Nat) : Answer where
  name := none
  address := some address
  cname := none
  type := none
  ttl := -1
  port := port

/-- The key of the lock of a name. -/
def lockKey (qname : String) : String := "qname:" ++ qname ++ ":qtype:A"

end Names

section Lookup

/-- Answers and an error, where an error that is raised stands for both. -/
abbrev Reply := Except String (Option Answers × Option String)

/-- How far a lookup is: it ended, or it waits for the answer to a query. -/
inductive Lookup
  | ended (result : Reply)
  | asking (query : String) (rest : List String)

variable {Cache : Type*} (self : Resolver Cache)

/-- `resolve_upstream` -/
def resolveUpstream (qname : String) : Option Answers :=
  (self.primaryPeers qname).map fun peers =>
    { answers := peers.map fun peer => newAnswer peer.1 peer.2, errcode := none, addresses := none }

/-- The loop of `search_dns`, which has the error of the last query when no answer is valid. -/
def ask (err : Option String) : List String → Lookup
  | [] => .ended (.ok (none, err))
  | query :: rest => .asking query rest

/-- `_M.lookup` until its first query, with the cache it leaves. It follows canonical names in the
cache down to a depth, and has no result when they go deeper. -/
def lookup (depth : Nat) (cache : Cache) (qname : String) (stale : Bool) :
    Option (Lookup × Cache) :=
  if isIp qname then
    some (.ended (.ok (some ⟨[newAnswer qname none], none, none⟩, none)), cache)
  else
    match get self.lru stale depth cache (cacheKey qname self.qtype) with
    | .error .unfinished => none
    | .error (.stopped error) => some (.ended (.error error), cache)
    | .ok (answers, cache) =>
        if validAnswers answers then some (.ended (.ok (some answers, none)), cache)
        else if !isFqdn qname && (resolveUpstream self qname).any validAnswers then
          some (.ended (.ok (resolveUpstream self qname, none)), cache)
        else some (ask none (searchList self.search qname), cache)

/-- `_M.lookup` from the answer to a query on, until the next query. -/
def resume (cache : Cache) (qname : String) (rest : List String) : Reply → Lookup × Cache
  | .error error => (.ended (.error error), cache)
  | .ok (answers, err) =>
      match answers.filter validAnswers with
      | none => (ask err rest, cache)
      | some answers =>
          match save self.lru cache qname self.qtype answers.answers with
          | none => (.ended (.error "index is nil"), cache)
          | some (cache, _) => (.ended (.ok (some answers, err)), cache)

/-- What `get_servers` makes of the result of its lookup. -/
def serversOf (port : Option Nat) :
    Option Answers × Option String → Option (List Server) × Option String
  | (_, some err) => (some [], some err)
  | (none, none) => (some [], some "no answers")
  | (some answers, none) => (some (convertAnswers answers.answers port), none)

end Lookup

section Calls

/-- A call of `get_servers` that waits for the answer to a query. -/
structure Call where
  qname : String
  port : Option Nat
  query : String
  rest : List String

structure State (Cache Thread : Type*) where
  cache : Cache
  /-- A thread executes in here while its call has the permit. -/
  locks : Synchronization String Thread
  calls : Thread → Option Call
  /-- What the last call of a thread returned or raised. -/
  results : Thread → Option (Except String (Option (List Server) × Option String))

inductive Action (Cache Thread : Type*)
  /-- A call, whose lookup follows canonical names in the cache down to a depth. -/
  | getServers (thread : Thread) (qname : Option String) (port : Option Nat) (depth : Nat)
  /-- What `dns:query` returns or raises. -/
  | reply (thread : Thread) (reply : Reply)
  /-- Entries of the cache expire, are evicted or are set by others. -/
  | change (cache : Cache)

variable {Cache Thread : Type*} [DecidableEq Thread] [Fintype Thread]

/-- `sema:wait(0)` -/
def tryWait (locks : Synchronization String Thread) (thread : Thread) (key : String) (sema : Nat) :
    Synchronization String Thread :=
  if (¬∃ other, (locks.threads other).WaitsOn sema) ∧ 0 < locks.resources sema then
    locks.enter thread key sema
  else locks

namespace State

variable (state : State Cache Thread) (thread : Thread)

/-- The thread has the permit of a name. -/
def Holds : Prop := ∃ key, (state.locks.threads thread).Executes key

instance : Decidable (state.Holds thread) :=
  match place : state.locks.threads thread with
  | .idle => .isFalse fun ⟨_, executes⟩ => by rw [place] at executes; exact executes
  | .waiting _ _ => .isFalse fun ⟨_, executes⟩ => by rw [place] at executes; exact executes
  | .executing key _ => .isTrue ⟨key, by rw [place]; rfl⟩

def tryLock (qname : String) : State Cache Thread :=
  let (locks, sema) := state.locks.acquire 1 (lockKey qname)
  { state with locks := tryWait locks thread (lockKey qname) sema }

/-- The end of a call. An error leaves it before `release` and `post`. -/
def finish (port : Option Nat) (result : Reply) : State Cache Thread :=
  { state with
    locks :=
      match state.locks.threads thread, result with
      | .executing key sema, .ok _ => ((state.locks.release key).post sema).move thread .idle
      | _, _ => state.locks.move thread .idle
    calls := Function.update state.calls thread none
    results := Function.update state.results thread (some (result.map (serversOf port))) }

def proceed (qname : String) (port : Option Nat) : Lookup × Cache → State Cache Thread
  | (.ended result, cache) => { state with cache }.finish thread port result
  | (.asking query rest, cache) =>
      { state with
        cache
        calls := Function.update state.calls thread (some ⟨qname, port, query, rest⟩) }

end State

variable (self : Resolver Cache)

def next (state : State Cache Thread) : Action Cache Thread → Option (State Cache Thread)
  | .getServers thread qname port depth =>
      if (state.calls thread).isSome then none
      else
        match qname with
        | none => some { state with
            results := Function.update state.results thread
              (some (.ok (none, some "query missing"))) }
        | some qname =>
            let state := state.tryLock thread qname
            (lookup self depth state.cache qname (!decide (state.Holds thread))).map
              (state.proceed thread qname port)
  | .reply thread reply =>
      (state.calls thread).map fun call =>
        state.proceed thread call.qname call.port
          (resume self state.cache call.qname call.rest reply)
  | .change cache => some { state with cache }

/-- Calls of `get_servers` by any threads, from any cache. -/
def machine (cache : Cache) : Machine (State Cache Thread) (Action Cache Thread) where
  initial :=
    { cache
      locks := (Synchronization.machine 1).initial
      calls := fun _ => none
      results := fun _ => none }
  next := next self

end Calls

section Permits

variable {Cache Thread : Type*} [DecidableEq Thread] [Fintype Thread]

/-- What is expected of the locks: the permit of each is free or held by one call in progress, and
a new call takes it unless a call for the same name has it. -/
structure GivesBack (state : State Cache Thread) : Prop where
  inProgress : ∀ thread key, (state.locks.threads thread).Executes key →
    ∃ call, state.calls thread = some call ∧ lockKey call.qname = key
  permits : ∀ sema < state.locks.created, state.locks.resources sema + state.locks.held sema = 1
  available : ∀ thread qname, state.calls thread = none →
    (∀ other, ¬(state.locks.threads other).Executes (lockKey qname)) →
      (state.tryLock thread qname).Holds thread

/-- The states between two steps. -/
structure Settled (state : State Cache Thread) : Prop where
  sound : state.locks.Sound 1
  inProgress : ∀ thread key, (state.locks.threads thread).Executes key →
    ∃ call, state.calls thread = some call ∧ lockKey call.qname = key
  unqueued : ∀ thread sema, ¬(state.locks.threads thread).WaitsOn sema

/-- The state while a thread is at work for a name, maybe with its permit. -/
structure Working (state : State Cache Thread) (thread : Thread) (qname : String) : Prop where
  sound : state.locks.Sound 1
  inProgress : ∀ other key, other ≠ thread → (state.locks.threads other).Executes key →
    ∃ call, state.calls other = some call ∧ lockKey call.qname = key
  own : ∀ key, (state.locks.threads thread).Executes key → key = lockKey qname
  unqueued : ∀ thread sema, ¬(state.locks.threads thread).WaitsOn sema

variable {state : State Cache Thread} {thread : Thread} {qname : String} {port : Option Nat}

omit [DecidableEq Thread] [Fintype Thread] in
/-- A thread that is not queued is in no lock, or it executes. -/
theorem idle_or_executing (unqueued : ∀ sema, ¬(state.locks.threads thread).WaitsOn sema) :
    state.locks.threads thread = .idle ∨ ∃ key sema,
      state.locks.threads thread = .executing key sema := by
  cases place : state.locks.threads thread with
  | idle => exact .inl rfl
  | waiting key sema =>
      rw [place] at unqueued
      exact absurd rfl (unqueued sema)
  | executing key sema => exact .inr ⟨key, sema, rfl⟩

omit [DecidableEq Thread] [Fintype Thread] in
theorem executes_iff {key : String} : (state.locks.threads thread).Executes key ↔
    ∃ sema, state.locks.threads thread = .executing key sema := by
  cases state.locks.threads thread with
  | idle | waiting other sema => exact iff_of_false id nofun
  | executing other sema =>
      constructor
      · rintro rfl
        exact ⟨sema, rfl⟩
      · rintro ⟨_, ⟨⟩⟩
        rfl

omit [Fintype Thread] in
theorem threads_finish {result : Reply} : (state.finish thread port result).locks.threads =
    Function.update state.locks.threads thread .idle := by
  unfold State.finish
  dsimp only
  split <;> rfl

/-- The end of a call gives its permit back, unless it raises an error. -/
theorem Working.finish (working : Working state thread qname) {result : Reply}
    (returned : state.Holds thread → ∃ found, result = .ok found) :
    Settled (state.finish thread port result) := by
  have elsewhere {other : Thread} {place : LightThread String}
      (found : (state.finish thread port result).locks.threads other = place)
      (place_ne : place ≠ .idle) : other ≠ thread ∧ state.locks.threads other = place := by
    rw [threads_finish] at found
    by_cases same : other = thread
    · subst same
      rw [Function.update_self] at found
      exact absurd found.symm place_ne
    · rw [Function.update_of_ne same] at found
      exact ⟨same, found⟩
  refine ⟨?_, ?_, ?_⟩
  · rcases idle_or_executing (working.unqueued thread) with idle | ⟨key, sema, executing⟩
    · have unchanged : (state.finish thread port result).locks = state.locks.move thread .idle := by
        unfold State.finish
        rw [idle]
      have still : state.locks.move thread .idle = state.locks := by
        unfold Synchronization.move
        rw [← idle, Function.update_eq_self]
      rw [unchanged, still]
      exact working.sound
    · obtain ⟨found, rfl⟩ := returned ⟨key, executes_iff.mpr ⟨sema, executing⟩⟩
      have released : (state.finish thread port (.ok found)).locks =
          ((state.locks.release key).post sema).move thread .idle := by
        unfold State.finish
        rw [executing]
      rw [released]
      exact (working.sound.finish executing).1
  · intro other key executes
    obtain ⟨sema, executing⟩ := executes_iff.mp executes
    obtain ⟨different, before⟩ := elsewhere executing nofun
    obtain ⟨call, calling, named⟩ :=
      working.inProgress other key different (executes_iff.mpr ⟨sema, before⟩)
    exact ⟨call, (Function.update_of_ne different ..).trans calling, named⟩
  · intro other sema waits
    cases place : (state.finish thread port result).locks.threads other with
    | idle | executing key sema =>
        rw [place] at waits
        exact waits
    | waiting key sema' =>
        obtain ⟨-, before⟩ := elsewhere place nofun
        rw [place] at waits
        exact working.unqueued other sema (before ▸ waits)

/-- A call with the permit that ends with an error takes it away. -/
theorem Working.leaks (working : Working state thread qname) {error : String}
    (holds : state.Holds thread) : ¬GivesBack (state.finish thread port (.error error)) := by
  intro gives
  obtain ⟨key, executes⟩ := holds
  obtain ⟨sema, executing⟩ := executes_iff.mp executes
  have known : sema < state.locks.created :=
    working.sound.created key sema (.inr ⟨thread, by rw [executing]; exact ⟨rfl, rfl⟩⟩)
  have left : (state.finish thread port (.error error)).locks = state.locks.move thread .idle := by
    unfold State.finish
    rw [executing]
  have after := gives.permits sema (left ▸ known)
  have before := working.sound.permits sema known
  have moved : (state.locks.move thread .idle).held sema +
        (if (state.locks.threads thread).Holds sema then 1 else 0) =
      state.locks.held sema + if (LightThread.idle : LightThread String).Holds sema then 1 else 0 :=
    ThreadPool.count_update state.locks.threads thread .idle
  rw [executing, if_pos ((LightThread.holds_executing ..).mpr rfl),
    if_neg (LightThread.holds_idle sema)] at moved
  rw [left] at after
  change state.locks.resources sema + _ = 1 at after
  omega

/-- A thread goes to work when only its own place may have changed. -/
theorem Settled.working (settled : Settled state) {after : State Cache Thread}
    {place : LightThread String} (sound : after.locks.Sound 1) (calls : after.calls = state.calls)
    (threads : after.locks.threads = Function.update state.locks.threads thread place)
    (own : ∀ key, place.Executes key → key = lockKey qname)
    (unqueued : ∀ sema, ¬place.WaitsOn sema) : Working after thread qname := by
  refine ⟨sound, ?_, ?_, ?_⟩
  · intro other key different executes
    rw [threads, Function.update_of_ne different] at executes
    rw [calls]
    exact settled.inProgress other key executes
  · rw [threads, Function.update_self]
    exact own
  · intro other sema
    rw [threads]
    by_cases same : other = thread
    · subst same
      rw [Function.update_self]
      exact unqueued sema
    · rw [Function.update_of_ne same]
      exact settled.unqueued other sema

/-- A thread that is in no call takes the permit of a name, unless another one has it. -/
theorem Settled.tryLock (settled : Settled state) (free : state.calls thread = none)
    (qname : String) : Working (state.tryLock thread qname) thread qname ∧
      ((∀ other, ¬(state.locks.threads other).Executes (lockKey qname)) →
        (state.tryLock thread qname).Holds thread) := by
  have idle : state.locks.threads thread = .idle := by
    rcases idle_or_executing (settled.unqueued thread) with idle | ⟨key, sema, executing⟩
    · exact idle
    · obtain ⟨call, calling, -⟩ :=
        settled.inProgress thread key (executes_iff.mpr ⟨sema, executing⟩)
      rw [free] at calling
      cases calling
  obtain ⟨sound, uses, same, -⟩ := settled.sound.acquire (lockKey qname)
  have locks : (state.tryLock thread qname).locks = tryWait
      (state.locks.acquire 1 (lockKey qname)).1 thread (lockKey qname)
      (state.locks.acquire 1 (lockKey qname)).2 := rfl
  generalize (state.locks.acquire 1 (lockKey qname)).1 = acquired,
    (state.locks.acquire 1 (lockKey qname)).2 = sema at sound uses same locks
  have unqueued : ¬∃ other, (acquired.threads other).WaitsOn sema := by
    rw [same]
    exact fun ⟨other, waits⟩ => settled.unqueued other sema waits
  unfold tryWait at locks
  by_cases available : 0 < acquired.resources sema
  · rw [if_pos ⟨unqueued, available⟩] at locks
    have threads : (state.tryLock thread qname).locks.threads =
        Function.update state.locks.threads thread (.executing (lockKey qname) sema) := by
      rw [locks, ← same]
      rfl
    constructor
    · refine settled.working ?_ rfl threads (fun key executes => executes.symm) fun _ => id
      rw [locks]
      refine (sound.enter uses available ?_).1
      rw [same, idle]
      exact LightThread.holds_idle
    · refine fun _ => ⟨lockKey qname, ?_⟩
      rw [threads, Function.update_self]
      rfl
  · rw [if_neg fun both => available both.2] at locks
    have threads : (state.tryLock thread qname).locks.threads =
        Function.update state.locks.threads thread .idle := by
      rw [locks, same, ← idle, Function.update_eq_self]
    constructor
    · exact settled.working (locks ▸ sound) rfl threads (fun _ => False.elim) fun _ => id
    · intro unresolved
      have held : acquired.held sema = 0 := by
        refine ThreadPool.count_eq_zero fun other holds => ?_
        cases place : acquired.threads other with
        | idle | waiting key _ =>
            rw [place] at holds
            exact holds
        | executing key otherSema =>
            rw [place] at holds
            obtain rfl : otherSema = sema := holds
            have named := sound.named key (lockKey qname) otherSema
              (.inr ⟨other, by rw [place]; exact ⟨rfl, rfl⟩⟩) uses
            rw [same] at place
            exact (unresolved other (executes_iff.mpr ⟨otherSema, named ▸ place⟩)).elim
      have permits := sound.permits sema (sound.created _ _ uses)
      omega

/-- Whatever else holds between two steps is what is expected of the locks. -/
theorem Settled.givesBack (settled : Settled state) : GivesBack state where
  inProgress := settled.inProgress
  permits := settled.sound.permits
  available := fun _ qname free => (settled.tryLock free qname).2

/-- The lookup ends with an error. -/
def Lookup.Raises : Lookup → Prop
  | .ended (.error _) => True
  | _ => False

/-- What comes of the work of a thread: it ends, or it waits for the answer to a query. -/
theorem Working.proceed (working : Working state thread qname) {looked : Lookup × Cache} :
    ((state.Holds thread → ¬looked.1.Raises) →
      Settled (state.proceed thread qname port looked)) ∧
    (GivesBack (state.proceed thread qname port looked) →
      state.Holds thread → ¬looked.1.Raises) := by
  obtain ⟨lookup, cache⟩ := looked
  have moved : Working { state with cache } thread qname :=
    ⟨working.sound, working.inProgress, working.own, working.unqueued⟩
  cases lookup with
  | ended result =>
      cases result with
      | ok found =>
          exact ⟨fun _ => moved.finish fun _ => ⟨found, rfl⟩, fun _ _ => id⟩
      | error error =>
          refine ⟨fun quiet => moved.finish fun holds => ?_, fun gives holds => ?_⟩
          · exact absurd trivial (quiet holds)
          · exact absurd gives (moved.leaks holds)
  | asking query rest =>
      refine ⟨fun _ => ⟨working.sound, ?_, working.unqueued⟩, fun _ _ => id⟩
      intro other key executes
      change ∃ call, Function.update state.calls thread _ other = some call ∧ _
      by_cases same : other = thread
      · subst same
        rw [Function.update_self]
        exact ⟨_, rfl, (working.own key executes).symm⟩
      · rw [Function.update_of_ne same]
        exact working.inProgress other key same executes

end Permits

section Runs

variable {Cache Thread : Type*} [DecidableEq Thread] [Fintype Thread] (self : Resolver Cache)

/-- A reply from which a lookup goes on or ends without an error: every record of a valid answer
has a name or an address. -/
def Grouped : Reply → Prop
  | .error _ => False
  | .ok (none, _) => True
  | .ok (some answers, _) => validAnswers answers → ∀ record ∈ answers.answers, record.owner.isSome

/-- A call that takes or has the permit comes to no canonical name twice in the cache, and to no
reply that raises an error. -/
def LooksUp (state : State Cache Thread) : Action Cache Thread → Prop
  | .getServers thread (some qname) _ depth => (state.tryLock thread qname).Holds thread →
      isIp qname ∨ (LinkWalk.route Answer.cname (cached self.lru state.cache) depth
        (some (cacheKey qname self.qtype))).Nodup
  | .reply thread reply => state.Holds thread → Grouped reply
  | _ => True

instance : DecidablePred Grouped
  | .error _ => inferInstanceAs (Decidable False)
  | .ok (none, _) => inferInstanceAs (Decidable True)
  | .ok (some _, _) => inferInstanceAs (Decidable (_ → _))

instance (state : State Cache Thread) (action : Action Cache Thread) :
    Decidable (LooksUp self state action) :=
  match action with
  | .getServers _ (some _) _ _ => inferInstanceAs (Decidable (_ → _))
  | .reply _ _ => inferInstanceAs (Decidable (_ → _))
  | .getServers _ none _ _ | .change _ => inferInstanceAs (Decidable True)

variable {self} {state after : State Cache Thread} {thread : Thread} {qname : String}

theorem not_raises_ask {err : Option String} {queries : List String} :
    ¬(ask err queries).Raises := by
  cases queries <;> exact id

/-- A lookup ends its first part without an error exactly if it comes to no name twice. -/
theorem not_raises_lookup {cache : Cache} {depth : Nat} {looked : Lookup × Cache}
    (found : lookup self depth cache qname false = some looked) :
    ¬looked.1.Raises ↔ isIp qname ∨ (LinkWalk.route Answer.cname (cached self.lru cache) depth
      (some (cacheKey qname self.qtype))).Nodup := by
  unfold lookup at found
  by_cases ip : isIp qname = true
  · rw [if_pos ip] at found
    cases found
    exact iff_of_true id (.inl ip)
  · rw [if_neg ip, get_eq_walk] at found
    cases walked : LinkWalk.walk Answer.cname (cached self.lru cache) circularReferenceError depth
        (some (cacheKey qname self.qtype)) ⟨[], []⟩ with
    | error failure =>
        rw [walked] at found
        cases failure with
        | unfinished => cases found
        | stopped error =>
            cases found
            have finished : LinkWalk.walk Answer.cname (cached self.lru cache)
                circularReferenceError depth (some (cacheKey qname self.qtype)) ⟨[], []⟩ ≠
                  .error .unfinished := by
              rw [walked]
              nofun
            refine iff_of_false (fun quiet => quiet trivial) ?_
            rintro (isIp | nodup)
            · exact ip isIp
            · obtain ⟨after, ended⟩ := (LinkWalk.exists_walk_iff finished).mpr nodup
              rw [walked] at ended
              cases ended
    | ok progress =>
        have ends : ∃ after, LinkWalk.walk Answer.cname (cached self.lru cache)
            circularReferenceError depth (some (cacheKey qname self.qtype)) ⟨[], []⟩ = .ok after :=
          ⟨progress, walked⟩
        have nodup := (LinkWalk.exists_walk_iff (by rw [walked]; nofun)).mp ends
        refine iff_of_true ?_ (.inr nodup)
        rw [walked] at found
        simp only [Except.map] at found
        split at found
        · cases found
          exact id
        · split at found
          · cases found
            exact id
          · cases found
            exact not_raises_ask

/-- A reply raises no error exactly if its records can be grouped. -/
theorem not_raises_resume {cache : Cache} {rest : List String} {reply : Reply} :
    ¬(resume self cache qname rest reply).1.Raises ↔ Grouped reply := by
  rcases reply with error | ⟨- | answers, err⟩
  · exact iff_of_false (fun quiet => quiet trivial) id
  · exact iff_of_true not_raises_ask trivial
  · unfold resume Grouped
    dsimp only
    by_cases valid : validAnswers answers = true
    · rw [Option.filter_some_pos valid]
      dsimp only
      cases compacted : compactAnswers answers.answers with
      | none =>
          have unsaved : save self.lru cache qname self.qtype answers.answers = none := by
            unfold save
            rw [compacted, Option.map_none]
          rw [unsaved]
          refine iff_of_false (fun quiet => quiet trivial) fun grouped => ?_
          obtain ⟨compact, some⟩ := compactAnswers_isSome (grouped valid)
          rw [compacted] at some
          cases some
      | some compact =>
          obtain ⟨saved, saves⟩ : ∃ saved,
              save self.lru cache qname self.qtype answers.answers = some saved := by
            unfold save
            rw [compacted]
            exact ⟨_, rfl⟩
          rw [saves]
          refine iff_of_true id fun _ record member => ?_
          have compacts := compacts_compactAnswers compacted
          obtain ⟨packed, present, named⟩ := compacts.all record member
          exact named ▸ compacts.named packed present
    · rw [Option.filter_some_neg (Bool.eq_false_iff.mpr valid)]
      exact iff_of_true not_raises_ask fun valid' => absurd valid' valid

/-- A step keeps what is expected of the locks exactly when no error is raised under one. -/
theorem settled_next {action : Action Cache Thread} (settled : Settled state)
    (stepped : next self state action = some after) :
    (LooksUp self state action → Settled after) ∧
      (GivesBack after → LooksUp self state action) := by
  cases action with
  | getServers thread qname port depth =>
      obtain ⟨free, stepped⟩ := Option.ite_none_left_eq_some.mp stepped
      have free : state.calls thread = none := by simpa using free
      cases qname with
      | none =>
          cases stepped
          exact ⟨fun _ => ⟨settled.sound, settled.inProgress, settled.unqueued⟩, fun _ => trivial⟩
      | some qname =>
          obtain ⟨looked, found, rfl⟩ := Option.map_eq_some_iff.mp stepped
          have working := (settled.tryLock free qname).1
          have quiet (holds : (state.tryLock thread qname).Holds thread) :
              ¬looked.1.Raises ↔ isIp qname ∨ (LinkWalk.route Answer.cname
                (cached self.lru state.cache) depth (some (cacheKey qname self.qtype))).Nodup := by
            rw [decide_eq_true holds] at found
            exact not_raises_lookup found
          exact ⟨fun looksUp => working.proceed.1 fun holds => (quiet holds).mpr (looksUp holds),
            fun gives holds => (quiet holds).mp (working.proceed.2 gives holds)⟩
  | reply thread reply =>
      obtain ⟨call, calling, rfl⟩ := Option.map_eq_some_iff.mp stepped
      have working : Working state thread call.qname := by
        refine settled.working settled.sound rfl (Function.update_eq_self ..).symm ?_
          (settled.unqueued thread)
        intro key executes
        obtain ⟨other, same, named⟩ := settled.inProgress thread key executes
        rw [calling] at same
        cases same
        exact named.symm
      exact ⟨fun grouped => working.proceed.1 fun holds => not_raises_resume.mpr (grouped holds),
        fun gives holds => not_raises_resume.mp (working.proceed.2 gives holds)⟩
  | change cache =>
      cases stepped
      exact ⟨fun _ => ⟨settled.sound, settled.inProgress, settled.unqueued⟩, fun _ => trivial⟩

theorem settled_initial (cache : Cache) :
    Settled (machine self cache : Machine (State Cache Thread) _).initial where
  sound := Synchronization.sound_invariant.initial
  inProgress := fun _ _ executes => executes.elim
  unqueued := fun _ _ => id

/-- In every run of calls from any cache, the permits are given back in all states exactly when no
lookup with a permit raises an error: none comes to a canonical name twice in the cache, and no
query raises an error or has a record without a name and an address. -/
theorem givesBack_iff (self : Resolver Cache) (cache : Cache) {actions : List (Action Cache Thread)}
    {final : State Cache Thread}
    (executed : (machine self cache).run (machine self cache).initial actions = some final) :
    (∀ count state, (machine self cache).run (machine self cache).initial (actions.take count) =
        some state → GivesBack state) ↔
      (machine self cache).runWithin (LooksUp self) (machine self cache).initial actions =
        some final :=
  Machine.shown_iff_runWithin (fun _ => Settled.givesBack) (fun _ _ _ => settled_next)
    (settled_initial cache) executed

/-- A resolver of addresses (type 1), without upstreams of the names. -/
def plain : Resolver Recent where
  lru := recent 1000
  qtype := 1
  search := [""]
  primaryPeers := fun _ => none

/-- Two calls for a name, of which the second one has no permit, and the query fails for it. -/
def overlapping : List (Action Recent (Fin 2)) :=
  [.getServers 0 (some "www.example.com") none 2, .getServers 1 (some "www.example.com") none 2,
    .reply 1 (.error "no socket"),
    .reply 0 (.ok (some ⟨[addressRecord "www.example.com" "192.0.2.1"], none, none⟩, none))]

theorem givesBack_overlapping :
    ∃ state, (machine plain ⟨0, []⟩).run (machine plain ⟨0, []⟩).initial overlapping =
        some state ∧ GivesBack state :=
  ⟨_, rfl, (@givesBack_iff _ _ _ _ plain ⟨0, []⟩ overlapping _ rfl).mpr rfl 4 _ rfl⟩

/-- The answer has two records that lead to the same canonical name, and the next call reads them
from the cache. -/
def converging : List (Action Recent (Fin 2)) :=
  [.getServers 0 (some "www.example.com") none 2,
    .reply 0 (.ok (some ⟨[cnameRecord "www.example.com" "web.example.com",
      cnameRecord "www.example.com" "web.example.com"], none, none⟩, none)),
    .getServers 0 (some "www.example.com") none 3]

/-- All calls have ended, and the permit is gone: the next call does without it. -/
theorem not_givesBack_converging :
    ∃ state, (machine plain ⟨0, []⟩).run (machine plain ⟨0, []⟩).initial converging =
        some state ∧ (∀ thread, (state.calls thread).isNone) ∧
      ¬(state.tryLock 1 "www.example.com").Holds 1 ∧ ¬GivesBack state := by
  refine ⟨_, rfl, by decide, by decide, fun gives => ?_⟩
  have taken := gives.available 1 "www.example.com" rfl (by decide)
  exact absurd taken (by decide)

end Runs

end Resolver

end Apicast
