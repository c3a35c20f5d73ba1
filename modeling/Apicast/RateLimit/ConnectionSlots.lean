import Apicast.RateLimit.Policy
import Mathlib.Data.List.Count
import Mathlib.Data.List.Nodup

/-!
# What becomes of connection slots

Every instance that passes leaves its connection limiters in the context of the
request, in place of those of the instances before it, and every instance that
gets a timer gives back whatever the context holds in the end.
-/

namespace Apicast.RateLimit

open Foundation

section Accounting

/-- The counters are those from before the request, plus the slots taken, less
those given back. -/
def Request.Accounted (request : Request) (counters : Slot → Int) : Prop :=
  ∀ address, request.counters address + (request.released.map slot).count address =
    counters address + (request.taken.map slot).count address

variable {counters : Slot → Int} {request : Request}

theorem Request.count_counters (request : Request) (held : Limiter × String) (value : Int)
    (address : Slot) :
    (request.count held value).counters address =
      request.counters address + if slot held = address then value else 0 := by
  unfold Request.count
  by_cases same : address = slot held
  · subst same
    simp only [Function.update_self, ↓reduceIte]
  · simp only [Function.update_of_ne same, Ne.symm same, ↓reduceIte, Int.add_zero]

theorem Request.Accounted.take (accounted : request.Accounted counters) (held : Limiter × String) :
    (request.take held).Accounted counters := by
  intro address
  have before := accounted address
  have moved := request.count_counters held 1 address
  unfold Request.take
  simp only [moved, List.map_append, List.map_singleton, List.count_append, List.count_singleton,
    beq_iff_eq]
  change _ + ((request.released.map slot).count address : Int) = _
  split <;> omega

theorem Request.Accounted.leave (accounted : request.Accounted counters)
    (held : Limiter × String) : (request.leave held).Accounted counters := by
  intro address
  have before := accounted address
  have moved := request.count_counters held (-1) address
  unfold Request.leave
  simp only [moved, List.map_append, List.map_singleton, List.count_append, List.count_singleton,
    beq_iff_eq]
  change _ = _ + ((request.taken.map slot).count address : Int)
  split <;> omega

/-- Slots that are given back as often as taken leave every counter as it was. -/
theorem Request.Accounted.restored (accounted : request.Accounted counters)
    (balanced : request.released.Perm request.taken) : request.counters = counters := by
  funext address
  have equal := accounted address
  rw [(balanced.map slot).count_eq] at equal
  omega

end Accounting

section Phases

/-- What a list of committed limiters does to the request. -/
theorem foldl_take {counters : Slot → Int} (held : List (Limiter × String)) (request : Request)
    (accounted : request.Accounted counters) :
    (held.foldl Request.take request).taken = request.taken ++ held ∧
      (held.foldl Request.take request).released = request.released ∧
      (held.foldl Request.take request).limiters = request.limiters ∧
      (held.foldl Request.take request).Accounted counters := by
  induction held generalizing request with
  | nil => exact ⟨(List.append_nil _).symm, rfl, rfl, accounted⟩
  | cons first held ih =>
      obtain ⟨taken, released, limiters, rest⟩ := ih _ (accounted.take first)
      refine ⟨?_, released, limiters, rest⟩
      rw [List.foldl_cons, taken]
      exact List.append_assoc request.taken [first] held

/-- What the leaving of a list of limiters does to the request. -/
theorem foldl_leave {counters : Slot → Int} (held : List (Limiter × String)) (request : Request)
    (accounted : request.Accounted counters) :
    (held.foldl Request.leave request).released = request.released ++ held ∧
      (held.foldl Request.leave request).taken = request.taken ∧
      (held.foldl Request.leave request).limiters = request.limiters ∧
      (held.foldl Request.leave request).Accounted counters := by
  induction held generalizing request with
  | nil => exact ⟨(List.append_nil _).symm, rfl, rfl, accounted⟩
  | cons first held ih =>
      obtain ⟨released, taken, limiters, rest⟩ := ih _ (accounted.leave first)
      refine ⟨?_, taken, limiters, rest⟩
      rw [List.foldl_cons, released]
      exact List.append_assoc request.released [first] held

variable {Context : Type*} (environment : RequestEnvironment Context)

/-- The connection slots that an instance takes when the chain reaches it. -/
def Visit.slots (owner : Nat) (visit : Visit Context) : List (Limiter × String) :=
  match connect visit.policy.redisUrl visit.connects with
  | .error _ => []
  | .ok redis =>
      match visit.combined with
      | .passed =>
          committed (visit.policy.select environment owner redis visit.context visit.time)
      | _ => []

/-- Whether the access phase ends at an instance. -/
def Visit.exits (visit : Visit Context) : Bool :=
  match connect visit.policy.redisUrl visit.connects with
  | .error _ => visit.policy.configurationIssue.errorHandling = .exit
  | .ok _ =>
      match visit.combined with
      | .passed => false
      | .rejected => visit.policy.limitsExceeded.errorHandling = .exit
      | .failed _ => visit.policy.configurationIssue.errorHandling = .exit

/-- The slots taken by each instance that the access phase reaches and that takes any. -/
def holdings (owner : Nat) (visits : List (Visit Context)) : List (List (Limiter × String)) :=
  match visits with
  | [] => []
  | visit :: visits =>
      let rest := if visit.exits then [] else holdings (owner + 1) visits
      if visit.slots environment owner = [] then rest else visit.slots environment owner :: rest

theorem ErrorSetting.isExit_fail (setting : ErrorSetting) (err : String) :
    (setting.fail err).isExit = decide (setting.errorHandling = .exit) := by
  unfold ErrorSetting.fail
  cases setting.errorHandling <;> rfl

/-- What the access phase of one instance does to the request, and whether it is the last. -/
theorem access_eq (owner : Nat) (visit : Visit Context) (request : Request) :
    (access environment owner visit request).1 =
        (if visit.slots environment owner = [] then request
        else
          { (visit.slots environment owner).foldl Request.take request with
            limiters := visit.slots environment owner }) ∧
      (access environment owner visit request).2.isExit = visit.exits := by
  unfold access Visit.slots Visit.exits
  cases connect visit.policy.redisUrl visit.connects with
  | error err => exact ⟨rfl, visit.policy.configurationIssue.isExit_fail err⟩
  | ok redis =>
      cases visit.combined with
      | rejected => exact ⟨rfl, visit.policy.limitsExceeded.isExit_fail _⟩
      | failed err => exact ⟨rfl, visit.policy.configurationIssue.isExit_fail err⟩
      | passed =>
          dsimp only
          by_cases empty :
              committed (visit.policy.select environment owner redis visit.context visit.time) = []
          · rw [if_pos empty, if_pos empty, empty]
            exact ⟨rfl, rfl⟩
          · rw [if_neg empty, if_neg empty]
            exact ⟨rfl, rfl⟩

/-- The access phase takes the holdings of the instances it reaches and leaves the
last of them in the context. -/
theorem accessPhase_spec {counters : Slot → Int} (owner : Nat) (visits : List (Visit Context))
    (request : Request) (accounted : request.Accounted counters) :
    (accessPhase environment owner visits request).taken =
        request.taken ++ (holdings environment owner visits).flatten ∧
      (accessPhase environment owner visits request).released = request.released ∧
      (accessPhase environment owner visits request).limiters =
        (holdings environment owner visits).getLast?.getD request.limiters ∧
      (accessPhase environment owner visits request).Accounted counters := by
  induction visits generalizing owner request with
  | nil => exact ⟨(List.append_nil _).symm, rfl, rfl, accounted⟩
  | cons visit visits ih =>
      obtain ⟨effect, exits⟩ := access_eq environment owner visit request
      have unfolded : accessPhase environment owner (visit :: visits) request =
          if visit.exits then (access environment owner visit request).1
          else accessPhase environment (owner + 1) visits
            (access environment owner visit request).1 := by
        rw [← exits]
        rfl
      have holdings_eq : holdings environment owner (visit :: visits) =
          if visit.slots environment owner = [] then
            (if visit.exits then [] else holdings environment (owner + 1) visits)
          else visit.slots environment owner ::
            (if visit.exits then [] else holdings environment (owner + 1) visits) := rfl
      rw [unfolded, holdings_eq, effect]
      by_cases empty : visit.slots environment owner = []
      · simp only [if_pos empty]
        cases visit.exits with
        | true => exact ⟨(List.append_nil _).symm, rfl, rfl, accounted⟩
        | false => exact ih (owner + 1) request accounted
      · simp only [if_neg empty]
        obtain ⟨taken, released, _, counted⟩ :=
          foldl_take (visit.slots environment owner) request accounted
        cases visit.exits with
        | true =>
            simp only [↓reduceIte, List.flatten_singleton]
            exact ⟨taken, released, rfl, counted⟩
        | false =>
            simp only [Bool.false_eq_true, ↓reduceIte]
            obtain ⟨laterTaken, laterReleased, laterLimiters, laterCounted⟩ := ih (owner + 1)
              { (visit.slots environment owner).foldl Request.take request with
                limiters := visit.slots environment owner } counted
            refine ⟨?_, laterReleased.trans released, ?_, laterCounted⟩
            · rw [List.flatten_cons, ← List.append_assoc, ← taken]
              exact laterTaken
            · rw [List.getLast?_cons, Option.getD_some]
              exact laterLimiters

/-- The limiter a check-in leaves: `lim.dict = red or lim.dict`. -/
def redirect (redis : Option Store) (held : Limiter × String) : Limiter × String :=
  ({ held.1 with dict := redis.getD held.1.dict }, held.2)

/-- The storages of the check-ins that get through, in their order. -/
def storages (checkins : List (Visit Context)) : List (Option Store) :=
  checkins.filterMap fun visit => (connect visit.policy.redisUrl visit.reconnects).toOption

/-- What successive check-ins give back of the limiters in the context. -/
def releases (stores : List (Option Store)) (limiters : List (Limiter × String)) :
    List (Limiter × String) :=
  match stores with
  | [] => []
  | redis :: stores => limiters.map (redirect redis) ++
      releases stores (limiters.map (redirect redis))

/-- The check-ins of a request in the order in which their timers run. -/
def runCheckins (checkins : List (Visit Context)) (request : Request) : Request :=
  checkins.foldl (fun request visit => checkin visit request) request

theorem runCheckins_spec {counters : Slot → Int} (checkins : List (Visit Context))
    (request : Request) (accounted : request.Accounted counters) :
    (runCheckins checkins request).released =
        request.released ++ releases (storages checkins) request.limiters ∧
      (runCheckins checkins request).taken = request.taken ∧
      (runCheckins checkins request).Accounted counters := by
  induction checkins generalizing request with
  | nil => exact ⟨(List.append_nil _).symm, rfl, accounted⟩
  | cons visit checkins ih =>
      have unfolded : runCheckins (visit :: checkins) request =
          runCheckins checkins (checkin visit request) := rfl
      rw [unfolded]
      unfold checkin storages
      rw [List.filterMap_cons]
      cases connect visit.policy.redisUrl visit.reconnects with
      | error err => exact ih request accounted
      | ok redis =>
          obtain ⟨released, taken, limiters, counted⟩ := foldl_leave
            (request.limiters.map (redirect redis))
            { request with limiters := request.limiters.map (redirect redis) } accounted
          obtain ⟨laterReleased, laterTaken, laterCounted⟩ := ih _ counted
          refine ⟨?_, laterTaken.trans taken, laterCounted⟩
          rw [limiters, released] at laterReleased
          exact laterReleased.trans (List.append_assoc ..)

end Phases

section Identity

/-- Which limiter object is behind an entry of the context. -/
def identity (held : Limiter × String) : Nat × LimiterType × Nat := held.1.identity

variable {Context : Type*} {environment : RequestEnvironment Context}

theorem buildLimitersAndKeys_mem {owner : Nat} {type : LimiterType} {limiters : List LimiterConfig}
    {redis : Option Store} {context : Context} {time : Int} {held : Limiter × String}
    (member : held ∈ buildLimitersAndKeys environment owner type limiters redis context time) :
    held.1.owner = owner ∧ held.1.type = type ∧ held.1.dict = redis.getD .sharedMemory := by
  obtain ⟨index, _, built⟩ := List.mem_mapIdx.mp member
  rw [← built]
  exact ⟨rfl, rfl, rfl⟩

/-- The limiters built for one list of configurations are different objects. -/
theorem buildLimitersAndKeys_nodup (owner : Nat) (type : LimiterType)
    (limiters : List LimiterConfig) (redis : Option Store) (context : Context) (time : Int) :
    ((buildLimitersAndKeys environment owner type limiters redis context time).map
      identity).Nodup := by
  apply List.pairwise_iff_getElem.mpr
  intro first second firstBound secondBound before same
  simp only [buildLimitersAndKeys, List.getElem_map, List.getElem_mapIdx] at same
  exact Nat.ne_of_lt before (Prod.mk.inj (Prod.mk.inj same).2).2

/-- Only the connection limiters of an instance answer that they are committed. -/
theorem committed_select (self : Policy) (owner : Nat) (redis : Option Store) (context : Context)
    (time : Int) :
    committed (self.select environment owner redis context time) =
      (buildLimitersAndKeys environment owner .connections self.connectionLimiters redis context
        time).filter fun limiter => limiter.1.config.conditionIsTrue environment context := by
  have others (type : LimiterType) (different : type ≠ .connections)
      (limiters : List LimiterConfig) :
      committed (buildLimitersAndKeys environment owner type limiters redis context time) = [] := by
    apply List.filter_eq_nil_iff.mpr
    intro held member connections
    have built := (buildLimitersAndKeys_mem member).2.1
    exact different (built.symm.trans (of_decide_eq_true connections))
  have kept :
      committed (buildLimitersAndKeys environment owner .connections self.connectionLimiters redis
        context time) =
      buildLimitersAndKeys environment owner .connections self.connectionLimiters redis context
        time := by
    apply List.filter_eq_self.mpr
    intro held member
    exact decide_eq_true (buildLimitersAndKeys_mem member).2.1
  unfold committed at others kept ⊢
  unfold Policy.select
  rw [List.filter_comm]
  simp only [List.filter_append, kept, others .leakyBucket (by decide),
    others .fixedWindow (by decide), List.append_nil]

/-- An instance takes each of its slots through an object of its own, in the store it
connected to. -/
theorem Visit.slots_spec (environment : RequestEnvironment Context) (owner : Nat)
    (visit : Visit Context) :
    ((visit.slots environment owner).map identity).Nodup ∧
      (∀ held ∈ visit.slots environment owner, held.1.owner = owner) ∧
      ∀ held ∈ visit.slots environment owner, ∃ redis,
        connect visit.policy.redisUrl visit.connects = .ok redis ∧
          held.1.dict = redis.getD .sharedMemory := by
  unfold Visit.slots
  cases connect visit.policy.redisUrl visit.connects with
  | error err =>
      exact ⟨List.nodup_nil, fun _ => List.not_mem_nil.elim, fun _ => List.not_mem_nil.elim⟩
  | ok redis =>
      cases visit.combined with
      | rejected =>
          exact ⟨List.nodup_nil, fun _ => List.not_mem_nil.elim, fun _ => List.not_mem_nil.elim⟩
      | failed err =>
          exact ⟨List.nodup_nil, fun _ => List.not_mem_nil.elim, fun _ => List.not_mem_nil.elim⟩
      | passed =>
          simp only [committed_select]
          refine ⟨?_, ?_, ?_⟩
          · exact (buildLimitersAndKeys_nodup ..).sublist (List.filter_sublist.map _)
          · intro held member
            exact (buildLimitersAndKeys_mem (List.mem_filter.mp member).1).1
          · intro held member
            exact ⟨redis, rfl, (buildLimitersAndKeys_mem (List.mem_filter.mp member).1).2.2⟩

theorem holdings_cons (owner : Nat) (visit : Visit Context) (visits : List (Visit Context)) :
    holdings environment owner (visit :: visits) =
      if visit.slots environment owner = [] then
        (if visit.exits then [] else holdings environment (owner + 1) visits)
      else visit.slots environment owner ::
        (if visit.exits then [] else holdings environment (owner + 1) visits) := rfl

/-- All slots of a request are taken through different objects, whose owners are the
instances from the given one on. -/
theorem holdings_nodup (environment : RequestEnvironment Context) (owner : Nat)
    (visits : List (Visit Context)) :
    ((holdings environment owner visits).flatten.map identity).Nodup ∧
      ∀ held ∈ (holdings environment owner visits).flatten, owner ≤ held.1.owner := by
  induction visits generalizing owner with
  | nil => exact ⟨List.nodup_nil, fun _ => List.not_mem_nil.elim⟩
  | cons visit visits ih =>
      obtain ⟨ownNodup, owned, _⟩ := visit.slots_spec environment owner
      obtain ⟨restNodup, restOwned⟩ := ih (owner + 1)
      have later : ((if visit.exits then [] else
          holdings environment (owner + 1) visits).flatten.map identity).Nodup ∧
          ∀ held ∈ (if visit.exits then [] else
            holdings environment (owner + 1) visits).flatten, owner + 1 ≤ held.1.owner := by
        cases visit.exits with
        | true => exact ⟨List.nodup_nil, fun _ => List.not_mem_nil.elim⟩
        | false => exact ⟨restNodup, restOwned⟩
      rw [holdings_cons]
      by_cases empty : visit.slots environment owner = []
      · rw [if_pos empty]
        exact ⟨later.1, fun held member => Nat.le_of_succ_le (later.2 held member)⟩
      · rw [if_neg empty, List.flatten_cons, List.map_append, List.nodup_append]
        refine ⟨⟨ownNodup, later.1, ?_⟩, ?_⟩
        · intro first firstMember second secondMember same
          obtain ⟨firstHeld, firstTaken, rfl⟩ := List.mem_map.mp firstMember
          obtain ⟨secondHeld, secondTaken, rfl⟩ := List.mem_map.mp secondMember
          have firstOwner := owned firstHeld firstTaken
          have secondOwner := later.2 secondHeld secondTaken
          have owners : firstHeld.1.owner = secondHeld.1.owner := congrArg (·.1) same
          omega
        · intro held member
          rcases List.mem_append.mp member with own | rest
          · exact Nat.le_of_eq (owned held own).symm
          · exact Nat.le_of_succ_le (later.2 held rest)

/-- No instance is listed that takes nothing. -/
theorem holdings_ne_nil (owner : Nat) (visits : List (Visit Context)) :
    ∀ held ∈ holdings environment owner visits, held ≠ [] := by
  induction visits generalizing owner with
  | nil => exact fun _ => List.not_mem_nil.elim
  | cons visit visits ih =>
      have later : ∀ held ∈ (if visit.exits then [] else holdings environment (owner + 1) visits),
          held ≠ [] := by
        cases visit.exits with
        | true => exact fun _ => List.not_mem_nil.elim
        | false => exact ih (owner + 1)
      rw [holdings_cons]
      by_cases empty : visit.slots environment owner = []
      · rw [if_pos empty]
        exact later
      · rw [if_neg empty]
        intro held member
        rcases List.mem_cons.mp member with rfl | rest
        · exact empty
        · exact later held rest

/-- A check-in leaves the objects it finds, whatever store it uses. -/
theorem identity_redirect (redis : Option Store) (limiters : List (Limiter × String)) :
    (limiters.map (redirect redis)).map identity = limiters.map identity := by
  rw [List.map_map]
  rfl

/-- The check-ins of a request that took slots release each object at most once only
when at most one of them gets through. -/
theorem releases_nodup {stores : List (Option Store)} {limiters : List (Limiter × String)}
    (taken : limiters ≠ []) (once : ((releases stores limiters).map identity).Nodup) :
    stores.length ≤ 1 := by
  match stores with
  | [] => exact Nat.zero_le 1
  | [_] => exact Nat.le_refl 1
  | first :: second :: rest =>
      obtain ⟨held, member⟩ := List.exists_mem_of_ne_nil limiters taken
      have released : identity held ∈ limiters.map identity := List.mem_map_of_mem member
      unfold releases releases at once
      simp only [List.map_append, identity_redirect] at once
      have apart := (List.nodup_append.mp once).2.2 _ released _
        (List.mem_append_left _ released)
      exact absurd rfl apart

end Identity

section Balance

variable {Context : Type*} (environment : RequestEnvironment Context)

/-- A request before the access phase. -/
def Request.start (counters : Slot → Int) : Request where
  counters := counters
  limiters := []
  taken := []
  released := []

/-- A request after its access phase, its log phase and the check-ins, which run in
the given order. -/
def serve (visits checkins : List (Visit Context)) (counters : Slot → Int) : Request :=
  runCheckins checkins (accessPhase environment 0 visits (.start counters))

/-- No instance takes a connection slot, or a single one does, and a single check-in
gets through, to the store that the slots were taken in. -/
def ReleasesOnce (visits : List (Visit Context)) : Prop :=
  holdings environment 0 visits = [] ∨
    ∃ held redis, holdings environment 0 visits = [held] ∧
      storages (visits.filter (·.timer)) = [redis] ∧
      ∀ limiter ∈ held, redis.getD limiter.1.dict = limiter.1.dict

variable {environment} {visits checkins : List (Visit Context)} {counters : Slot → Int}

theorem Request.accounted_start : (Request.start counters).Accounted counters := fun _ => rfl

/-- What a request has taken and released when all its check-ins have run. -/
theorem serve_spec (environment : RequestEnvironment Context)
    (visits checkins : List (Visit Context))
    (counters : Slot → Int) :
    (serve environment visits checkins counters).taken =
        (holdings environment 0 visits).flatten ∧
      (serve environment visits checkins counters).released =
        releases (storages checkins) ((holdings environment 0 visits).getLast?.getD []) ∧
      (serve environment visits checkins counters).Accounted counters := by
  obtain ⟨taken, released, limiters, accounted⟩ := accessPhase_spec environment 0 visits
    (.start counters) Request.accounted_start
  obtain ⟨allReleased, allTaken, counted⟩ := runCheckins_spec checkins _ accounted
  refine ⟨allTaken.trans taken, ?_, counted⟩
  rw [released, limiters] at allReleased
  exact allReleased

/-- The check-ins that run are those of all instances with a timer, once a slot is taken. -/
theorem order_of_held {held : List (Limiter × String)}
    (order : checkins.Perm
      (scheduled visits (accessPhase environment 0 visits (.start counters))))
    (last : (holdings environment 0 visits).getLast? = some held) :
    (storages checkins).Perm (storages (visits.filter (·.timer))) := by
  have limiters := (accessPhase_spec environment 0 visits (.start counters)
    Request.accounted_start).2.2.1
  have taken : held ≠ [] := holdings_ne_nil 0 visits held (List.mem_of_getLast? last)
  rw [last, Option.getD_some] at limiters
  unfold scheduled at order
  rw [limiters, if_neg taken] at order
  exact order.filterMap _

/-- A request that releases exactly what it took releases once. -/
theorem releasesOnce_of_perm
    (order : checkins.Perm
      (scheduled visits (accessPhase environment 0 visits (.start counters))))
    (balanced : (serve environment visits checkins counters).released.Perm
      (serve environment visits checkins counters).taken) : ReleasesOnce environment visits := by
  obtain ⟨taken, released, _⟩ := serve_spec environment visits checkins counters
  rw [taken, released] at balanced
  rcases List.eq_nil_or_concat (holdings environment 0 visits) with empty | ⟨before, held, equal⟩
  · exact .inl empty
  · have last : (holdings environment 0 visits).getLast? = some held := by
      rw [equal, List.concat_eq_append, List.getLast?_append, List.getLast?_singleton,
        Option.some_or]
    have nonempty : held ≠ [] := holdings_ne_nil 0 visits held (List.mem_of_getLast? last)
    have stores := order_of_held order last
    have nodup := (holdings_nodup environment 0 visits).1
    rw [last, Option.getD_some] at balanced
    rw [← (balanced.map identity).nodup_iff] at nodup
    have atMostOne := releases_nodup nonempty nodup
    have flat : (holdings environment 0 visits).flatten = before.flatten ++ held := by
      rw [equal, List.concat_eq_append, List.flatten_append, List.flatten_singleton]
    rw [flat] at balanced
    match found : storages checkins with
    | [] =>
        rw [found] at balanced
        have none_left := List.nil_perm.mp balanced
        exact absurd (List.append_eq_nil_iff.mp none_left).2 nonempty
    | _ :: _ :: _ =>
        rw [found] at atMostOne
        exact absurd atMostOne (by simp only [List.length_cons]; omega)
    | [redis] =>
        rw [found] at balanced stores
        unfold releases releases at balanced
        rw [List.append_nil] at balanced
        have lengths := balanced.length_eq
        rw [List.length_map, List.length_append] at lengths
        have alone : before = [] := by
          have none_before : before.flatten = [] := List.length_eq_zero_iff.mp (by omega)
          apply List.eq_nil_iff_forall_not_mem.mpr
          intro other member
          have listed : other ∈ holdings environment 0 visits := by
            rw [equal, List.concat_eq_append]
            exact List.mem_append_left _ member
          exact holdings_ne_nil 0 visits other listed
            (List.flatten_eq_nil_iff.mp none_before other member)
        subst alone
        refine .inr ⟨held, redis, equal, (List.perm_singleton.mp stores.symm), ?_⟩
        intro limiter member
        have released := balanced.symm.subset (List.mem_append_right _ member)
        obtain ⟨original, _, redirected⟩ := List.mem_map.mp released
        rw [← redirected]
        cases redis with
        | none => rfl
        | some store => rfl

/-- A request that releases once gives back exactly what it took. -/
theorem perm_of_releasesOnce
    (order : checkins.Perm
      (scheduled visits (accessPhase environment 0 visits (.start counters))))
    (once : ReleasesOnce environment visits) :
    (serve environment visits checkins counters).released.Perm
      (serve environment visits checkins counters).taken := by
  obtain ⟨taken, released, _⟩ := serve_spec environment visits checkins counters
  rw [taken, released]
  rcases once with empty | ⟨held, redis, single, store, same⟩
  · have limiters := (accessPhase_spec environment 0 visits (.start counters)
      Request.accounted_start).2.2.1
    rw [empty] at limiters ⊢
    unfold scheduled at order
    have unset : (Request.start counters).limiters = [] := rfl
    rw [limiters, List.getLast?_nil, Option.getD_none, if_pos unset] at order
    rw [order.eq_nil]
    exact List.Perm.nil
  · have last : (holdings environment 0 visits).getLast? = some held := by
      rw [single, List.getLast?_singleton]
    have stores := order_of_held order last
    rw [store] at stores
    have kept : held.map (redirect redis) = held := by
      have each : ∀ limiter ∈ held, redirect redis limiter = id limiter := by
        intro limiter member
        exact Prod.ext (congrArg (fun dict => { limiter.1 with dict }) (same limiter member)) rfl
      rw [List.map_congr_left each, List.map_id]
    rw [List.perm_singleton.mp stores, single, List.flatten_singleton]
    unfold releases releases
    rw [List.getLast?_singleton, Option.getD_some, List.append_nil, kept]

/-- Every slot that a request takes is given back exactly once, and every counter has
its value from before the request, exactly when the request releases once. -/
theorem slots_released_once_iff (environment : RequestEnvironment Context)
    (visits : List (Visit Context)) {checkins : List (Visit Context)} {counters : Slot → Int}
    (order : checkins.Perm
      (scheduled visits (accessPhase environment 0 visits (.start counters)))) :
    ((serve environment visits checkins counters).released.Perm
        (serve environment visits checkins counters).taken ∧
      (serve environment visits checkins counters).counters = counters) ↔
      ReleasesOnce environment visits := by
  constructor
  · rintro ⟨balanced, _⟩
    exact releasesOnce_of_perm order balanced
  · intro once
    have balanced := perm_of_releasesOnce order once
    have accounted := (serve_spec environment visits checkins counters).2.2
    exact ⟨balanced, accounted.restored balanced⟩

/-- An instance with one global connection limiter, which lets the request pass. -/
def Visit.literal (name : String) : Visit String where
  policy :=
    { connectionLimiters := [⟨⟨name, none, some .global⟩, none, none⟩]
      leakyBucketLimiters := []
      fixedWindowLimiters := []
      redisUrl := none
      limitsExceeded := ⟨429, .exit⟩
      configurationIssue := ⟨500, .exit⟩ }
  context := "7"
  time := 0
  connects := true
  combined := .passed
  timer := true
  reconnects := true

/-- With two instances the slot of the first is never given back and that of the
second twice. -/
theorem slots_released_twice :
    let visits := [Visit.literal "first", Visit.literal "second"]
    let after := serve .literal visits visits fun _ => 0
    visits.Perm (scheduled visits (accessPhase .literal 0 visits (.start fun _ => 0))) ∧
      after.counters ⟨.sharedMemory, "connections_first"⟩ = 1 ∧
      after.counters ⟨.sharedMemory, "connections_second"⟩ = -1 ∧
      ¬ after.released.Perm after.taken := by
  refine ⟨List.Perm.refl _, ?_⟩
  decide

/-- A single instance gives back the slot it took. -/
theorem slots_released_once_single :
    let after := serve .literal [Visit.literal "first"] [Visit.literal "first"] fun _ => 0
    after.released.Perm after.taken ∧ after.counters = fun _ => 0 := by
  have once : ReleasesOnce .literal [Visit.literal "first"] :=
    .inr ⟨(Visit.literal "first").slots .literal 0, none, by decide, by decide, fun _ _ => rfl⟩
  exact (slots_released_once_iff .literal [Visit.literal "first"] (List.Perm.refl _)).mpr once

/-- Where every connection and every timer succeeds, a request releases once exactly
when it takes no connection slot or the chain has a single instance. -/
theorem releasesOnce_iff_single
    (answers : ∀ visit ∈ visits, visit.timer = true ∧ visit.connects = true ∧
      visit.reconnects = true) :
    ReleasesOnce environment visits ↔ holdings environment 0 visits = [] ∨ visits.length = 1 := by
  have timers : visits.filter (·.timer) = visits :=
    List.filter_eq_self.mpr fun visit member => (answers visit member).1
  have connected (visit : Visit Context) (member : visit ∈ visits) :
      ∃ redis, connect visit.policy.redisUrl visit.connects = .ok redis ∧
        connect visit.policy.redisUrl visit.reconnects = .ok redis := by
    obtain ⟨_, connects, reconnects⟩ := answers visit member
    rw [connects, reconnects]
    unfold connect
    cases visit.policy.redisUrl with
    | none => exact ⟨none, rfl, rfl⟩
    | some url =>
        by_cases unset : url = ""
        · simp only [if_pos unset]
          exact ⟨none, rfl, rfl⟩
        · simp only [if_neg unset]
          exact ⟨some (.redis url), rfl, rfl⟩
  unfold ReleasesOnce
  rw [timers]
  constructor
  · rintro (empty | ⟨held, redis, _, store, _⟩)
    · exact .inl empty
    · refine .inr ?_
      have lengths : (storages visits).length = visits.length := by
        unfold storages
        rw [List.length_filterMap_eq_countP]
        apply List.countP_eq_length.mpr
        intro visit member
        obtain ⟨redis, _, again⟩ := connected visit member
        rw [again]
        rfl
      rw [← lengths, store]
      rfl
  · rintro (empty | single)
    · exact .inl empty
    · obtain ⟨visit, rfl⟩ := List.length_eq_one_iff.mp single
      obtain ⟨redis, first, again⟩ := connected visit List.mem_cons_self
      have exited : (if visit.exits then [] else holdings environment 1 []) =
          ([] : List (List (Limiter × String))) := ite_self _
      rw [holdings_cons, exited]
      by_cases empty : visit.slots environment 0 = []
      · exact .inl (if_pos empty)
      · refine .inr ⟨visit.slots environment 0, redis, if_neg empty, ?_, ?_⟩
        · unfold storages
          rw [List.filterMap_cons, again]
          rfl
        · intro limiter member
          obtain ⟨used, opened, dict⟩ := (visit.slots_spec environment 0).2.2 limiter member
          have same : used = redis := Except.ok.inj (opened.symm.trans first)
          subst same
          rw [dict]
          cases used with
          | none => rfl
          | some store => rfl

end Balance

end Apicast.RateLimit
