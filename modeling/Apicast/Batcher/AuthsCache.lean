import Apicast.Batcher.CachedAuthKey
import Mathlib.Data.List.Induction

/-!
# The authorization cache of the batcher

`auths_cache.lua`: the status and the rejection reason of an authorization, kept as one
value under a key made of the transaction. It should behave as a map whose keys are the
transactions themselves.
-/

namespace Apicast.Batcher

open Foundation

/-- What is stored: a number, or the text of a number and a reason. -/
inductive CachedValue
  | status (status : Nat)
  | text (text : String)
  deriving DecidableEq, Repr

abbrev AuthsCache := SharedDict String CachedValue

namespace AuthsCache

def valueToCache (authStatus : Nat) (rejectionReason : Option String) : CachedValue :=
  match rejectionReason with
  | some reason => .text (Number.tostring authStatus ++ ":" ++ reason)
  | none => .status authStatus

/-- `_M:get`: the status and the rejection reason. -/
def get (cache : AuthsCache) (transaction : Transaction) : Option Nat × Option String :=
  match SharedDict.get cache (keyForCachedAuth transaction) with
  | none => (none, none)
  -- the text of a number has no colon
  | some (.status status) => (some status, none)
  | some (.text text) =>
      match Delimited.split? ':' text with
      | some (status, reason) => (Number.tonumber status, some reason)
      | none => (Number.tonumber text, none)

/-- `_M:set` -/
def set (cache : AuthsCache) (transaction : Transaction) (authStatus : Nat)
    (rejectionReason : Option String) : AuthsCache :=
  SharedDict.set cache (keyForCachedAuth transaction) (valueToCache authStatus rejectionReason)

variable {cache : AuthsCache} {first second : Transaction} {authStatus : Nat}
  {rejectionReason : Option String}

/-- A status and a reason read back from the value that is stored for them. -/
theorem get_set_of_key_eq (exact : Number.Exact authStatus)
    (same : keyForCachedAuth second = keyForCachedAuth first) :
    (cache.set first authStatus rejectionReason).get second =
      (some authStatus, rejectionReason) := by
  unfold get set
  rw [same, SharedDict.get_set_self]
  cases rejectionReason with
  | none => rfl
  | some reason =>
      have joined : valueToCache authStatus (some reason) =
          .text (Delimited.join ':' (Number.tostring authStatus) reason) := by
        unfold valueToCache Delimited.join
        rw [← String.append_assoc]
        rfl
      have free : Delimited.Free ':' (Number.tostring authStatus) :=
        Number.free_tostring exact (by decide) (by decide)
      rw [joined]
      dsimp only
      rw [Delimited.split?_join free]
      dsimp only
      rw [Number.tonumber_tostring exact]

theorem get_set_of_key_ne (different : keyForCachedAuth second ≠ keyForCachedAuth first) :
    (cache.set first authStatus rejectionReason).get second = cache.get second := by
  unfold get set
  rw [SharedDict.get_set_of_ne _ _ different]

/-- A call of the cache. -/
inductive Call
  | set (transaction : Transaction) (authStatus : Nat) (rejectionReason : Option String)
  | get (transaction : Transaction)

def Call.transaction : Call → Transaction
  | .set transaction _ _ => transaction
  | .get transaction => transaction

/-- The cache after a call. -/
def call (cache : AuthsCache) : Call → AuthsCache
  | .set transaction authStatus rejectionReason => cache.set transaction authStatus rejectionReason
  | .get _ => cache

def run (calls : List Call) : AuthsCache := calls.foldl call ∅

/-- A map from transactions to what was last set for them. -/
def lastSet (calls : List Call) : Transaction → Option Nat × Option String :=
  calls.foldl (fun map call =>
    match call with
    | .set transaction authStatus rejectionReason => fun other =>
        if other.Same transaction then (some authStatus, rejectionReason) else map other
    | .get _ => map) fun _ => (none, none)

/-- Every call that gets an authorization is answered as by the map. -/
def BehavesAsMap (calls : List Call) : Prop :=
  ∀ before transaction after, calls = before ++ .get transaction :: after →
    (run before).get transaction = lastSet before transaction

/-- The transaction is plain, and a status that is set is written with all of its digits. -/
def Call.Plain : Call → Prop
  | .set transaction authStatus _ => transaction.Plain ∧ Number.Exact authStatus
  | .get transaction => transaction.Plain

theorem Call.Plain.transaction {call : Call} (plain : call.Plain) : call.transaction.Plain := by
  cases call with
  | set => exact plain.1
  | get => exact plain

/-- After any calls the cache agrees with the map on every plain transaction. -/
theorem get_run {calls : List Call} {transaction : Transaction}
    (supported : ∀ call ∈ calls, call.transaction.credentials.Supported)
    (plain : ∀ call ∈ calls, call.Plain) (ownSupported : transaction.credentials.Supported)
    (ownPlain : transaction.Plain) : (run calls).get transaction = lastSet calls transaction := by
  induction calls using List.reverseRecOn with
  | nil =>
      change AuthsCache.get ∅ transaction = (none, none)
      unfold get
      rw [SharedDict.get_empty]
  | append_singleton before last ih =>
      have prior := ih (fun call member => supported call (List.mem_append_left _ member))
        fun call member => plain call (List.mem_append_left _ member)
      have lastSupported := supported last (List.mem_append_right _ List.mem_cons_self)
      have lastPlain := plain last (List.mem_append_right _ List.mem_cons_self)
      unfold run lastSet
      rw [List.foldl_append, List.foldl_append]
      cases last with
      | get other => exact prior
      | set other authStatus rejectionReason =>
          change ((run before).set other authStatus rejectionReason).get transaction =
            if transaction.Same other then (some authStatus, rejectionReason)
            else lastSet before transaction
          by_cases same : transaction.Same other
          · rw [if_pos same, get_set_of_key_eq lastPlain.2 (keyForCachedAuth_eq same)]
          · rw [if_neg same, ← prior]
            apply get_set_of_key_ne
            intro equal
            exact same (same_of_keyForCachedAuth ownSupported lastSupported ownPlain
              lastPlain.transaction equal)

/-- In every sequence of calls with plain transactions the cache behaves as a map. -/
theorem behavesAsMap {calls : List Call}
    (supported : ∀ call ∈ calls, call.transaction.credentials.Supported)
    (plain : ∀ call ∈ calls, call.Plain) : BehavesAsMap calls := by
  intro before transaction after split
  have earlier : ∀ call ∈ before, call ∈ calls := by
    intro call member
    rw [split]
    exact List.mem_append_left _ member
  have own : Call.get transaction ∈ calls := by
    rw [split]
    exact List.mem_append_right _ List.mem_cons_self
  exact get_run (fun call member => supported call (earlier call member))
    (fun call member => plain call (earlier call member)) (supported _ own) (plain _ own)

/-- A call that counts for one metric. -/
private def countingHits (credentials : Credentials) : Transaction where
  serviceId := "42"
  credentials := credentials
  usage := Usage.new.add "hits" 1

private theorem plain_countingHits {credentials : Credentials} (plain : credentials.Plain)
    (written : metricsMarker.Free credentials.written) : (countingHits credentials).Plain := by
  refine ⟨?_, plain, written, ?_⟩
  · intro type
    change (credsMarker type).Free "42"
    cases type <;> decide
  · intro metric member
    have single : metric = "hits" := List.mem_singleton.mp member
    rw [single]
    refine ⟨plainMetric_of_free (by decide), ?_⟩
    change Number.Exact ((Usage.new.add "hits" 1).delta "hits")
    decide

/-- A denial is found again with its reason after another transaction was authorized, and each
of the two has its own answer. -/
theorem behavesAsMap_two : BehavesAsMap
    [.set (countingHits { userKey := some "key" }) 409 (some "limits_exceeded"),
      .set (countingHits { appId := some "id" }) 200 none,
      .get (countingHits { userKey := some "key" }),
      .get (countingHits { appId := some "id" })] := by
  have first : (countingHits { userKey := some "key" }).Plain :=
    plain_countingHits nofun (by decide)
  have second : (countingHits { appId := some "id" }).Plain := by
    refine plain_countingHits ?_ (by decide)
    intro appId member
    cases member
    decide
  have supported : ∀ call ∈ [Call.set (countingHits { userKey := some "key" }) 409
        (some "limits_exceeded"),
      .set (countingHits { appId := some "id" }) 200 none,
      .get (countingHits { userKey := some "key" }),
      .get (countingHits { appId := some "id" })],
      call.transaction.credentials.Supported := by
    simp only [List.forall_mem_cons]
    exact ⟨.userKey "key", .appId "id", .userKey "key", .appId "id",
      List.forall_mem_nil _⟩
  apply behavesAsMap supported
  simp only [List.forall_mem_cons]
  exact ⟨⟨first, by decide⟩, ⟨second, by decide⟩, first, second, List.forall_mem_nil _⟩

/-- The authorization of an application with a key is found for an application without one,
whose identifier reads like both. -/
theorem behavesAsMap_confused :
    (countingHits { appId := some "id,app_key:key" }).credentials.Supported ∧
    ¬ BehavesAsMap [.set (countingHits { appId := some "id", appKey := some "key" }) 200 none,
      .get (countingHits { appId := some "id,app_key:key" })] := by
  refine ⟨.appId "id,app_key:key", ?_⟩
  intro behaves
  have answered := behaves
    [.set (countingHits { appId := some "id", appKey := some "key" }) 200 none]
    (countingHits { appId := some "id,app_key:key" }) [] rfl
  revert answered
  decide

end AuthsCache

end Apicast.Batcher
