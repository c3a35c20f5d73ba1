import Apicast.Foundation.Budget
import Apicast.Foundation.SharedDict
import Apicast.Foundation.ThreadPool

/-!
# The fixed-window limiter

`resty/limit/count-inc.lua` over the two stores a limiter can count in, the
shared memory of the gateway and Redis (`redis_shdict.lua`). `incoming` and
`uncommit` are the calls of the source run alone. The machine below interleaves
the single dictionary operations of any number of calls on one key within one
window; expiry of the window is outside of it.
-/

namespace Apicast.RateLimit

open Foundation

/-- The store behind `self.dict`. -/
inductive CounterStore
  | sharedMemory
  | redis
  deriving DecidableEq, Repr

namespace CounterStore

/-- Redis `SETNX`. -/
def setnx (redis : SharedDict String Int) (key : String) (init : Int) : SharedDict String Int :=
  (redis.add key init).1

/-- Redis `INCRBY`, for which an absent key counts as zero. -/
def incrby (redis : SharedDict String Int) (key : String) (value : Int) :
    SharedDict String Int × Int :=
  (redis.set key ((redis.get key).getD 0 + value), (redis.get key).getD 0 + value)

/-- `redis_shdict.lua`, `_M:incr`. The transaction answers with the reply of its
last command; the `EXPIRE` in it does not touch the value. -/
def redisIncr (redis : SharedDict String Int) (key : String) (value : Int) (init : Option Int) :
    SharedDict String Int × Except StoreError Int :=
  match init with
  | none =>
      let (redis, reply) := incrby redis key value
      (redis, .ok reply)
  | some init =>
      let (redis, reply) := incrby (setnx redis key init) key value
      (redis, .ok reply)

/-- `dict:incr` of the store in use. -/
def incr (store : CounterStore) (dict : SharedDict String Int) (key : String) (value : Int)
    (init : Option Int) : SharedDict String Int × Except StoreError Int :=
  match store with
  | sharedMemory => dict.incr key value init
  | redis => redisIncr dict key value init

variable (store : CounterStore) {dict : SharedDict String Int} {key : String}

/-- Counting up from zero stores and answers the next value in either store. -/
theorem incr_from_zero (dict : SharedDict String Int) (key : String) :
    store.incr dict key 1 (some 0) =
      (dict.set key ((dict.get key).getD 0 + 1), .ok ((dict.get key).getD 0 + 1)) := by
  cases store with
  | sharedMemory =>
      unfold incr SharedDict.incr
      cases dict.get key <;> rfl
  | redis =>
      unfold incr redisIncr incrby setnx
      cases present : dict.get key with
      | some value => simp only [SharedDict.add_of_get_eq_some present, present]
      | none =>
          simp only [SharedDict.add_of_get_eq_none present, SharedDict.get_set_self,
            SharedDict.set_set, Option.getD_some, Option.getD_none]

/-- Counting a present key down stores and answers the previous value. -/
theorem incr_back {value : Int} (present : dict.get key = some value) :
    store.incr dict key (-1) none = (dict.set key (value - 1), .ok (value - 1)) := by
  cases store with
  | sharedMemory => exact SharedDict.incr_of_get_eq_some none present
  | redis =>
      unfold incr redisIncr incrby
      simp only [present, Option.getD_some]
      rfl

/-- Counting on one key leaves every other key alone. -/
theorem get_incr_of_ne {value : Int} {init : Option Int} {other : String}
    (different : other ≠ key) : (store.incr dict key value init).1.get other = dict.get other := by
  cases store with
  | sharedMemory => exact SharedDict.get_incr_of_ne different
  | redis =>
      cases init with
      | none => exact SharedDict.get_set_of_ne dict _ different
      | some init =>
          unfold incr redisIncr incrby setnx SharedDict.add
          simp only [SharedDict.get_set_of_ne _ _ different]
          cases dict.get key with
          | some stored => rfl
          | none => exact SharedDict.get_set_of_ne dict _ different

end CounterStore

/-- The fields of a limiter that its calls read. -/
structure CountLimiter where
  store : CounterStore
  limit : Nat
  deriving DecidableEq, Repr

/-- What `incoming` returns: the requests that are left, or why there are none. -/
inductive IncomingResult
  | accepted (remaining : Int)
  | rejected
  | failed (err : StoreError)
  deriving DecidableEq, Repr

namespace CountLimiter

variable (self : CountLimiter)

/-- The comparison with the limit at the end of `_M.incoming`. -/
def answer (count : Int) : IncomingResult :=
  if count > self.limit then .rejected else .accepted (self.limit - count)

/-- `count-inc.lua`, `_M.incoming`. -/
def incoming (dict : SharedDict String Int) (key : String) (commit : Bool) :
    SharedDict String Int × IncomingResult :=
  if commit then
    match self.store.incr dict key 1 (some 0) with
    | (dict, .error err) => (dict, .failed err)
    | (dict, .ok count) =>
        if count > self.limit then
          match self.store.incr dict key (-1) none with
          | (dict, .error err) => (dict, .failed err)
          | (dict, .ok _) => (dict, .rejected)
        else
          (dict, self.answer count)
  else
    (dict, self.answer ((dict.get key).getD 0 + 1))

/-- `count-inc.lua`, `_M.uncommit`. -/
def uncommit (dict : SharedDict String Int) (key : String) :
    SharedDict String Int × Except StoreError Int :=
  match self.store.incr dict key (-1) none with
  | (dict, .ok count) => (dict, .ok (self.limit - count))
  | (dict, .error .notFound) => (dict, .ok (self.limit - 0))
  | (dict, .error err) => (dict, .error err)

/-- A committing call run alone, whatever the store holds. -/
theorem incoming_commit (dict : SharedDict String Int) (key : String) :
    self.incoming dict key true =
      let count := (dict.get key).getD 0 + 1
      if count > self.limit then (dict.set key (count - 1), .rejected)
      else (dict.set key count, .accepted (self.limit - count)) := by
  unfold incoming answer
  simp only [↓reduceIte, self.store.incr_from_zero]
  split
  · rw [self.store.incr_back (dict.get_set_self key _), SharedDict.set_set]
  · rfl

/-- A rejected call leaves the counter as it was. -/
theorem incoming_rejected {dict : SharedDict String Int} {key : String} {commit : Bool}
    (rejected : (self.incoming dict key commit).2 = .rejected) :
    ((self.incoming dict key commit).1.get key).getD 0 = (dict.get key).getD 0 := by
  cases commit with
  | false => rfl
  | true =>
      rw [incoming_commit] at rejected ⊢
      dsimp only at rejected ⊢
      split
      · rw [SharedDict.get_set_self, Option.getD_some, Int.add_sub_cancel]
      · rename_i within
        rw [if_neg within] at rejected
        cases rejected

/-- A call on one key leaves the counters of every other key alone. -/
theorem get_incoming_of_ne {dict : SharedDict String Int} {key other : String} {commit : Bool}
    (different : other ≠ key) : (self.incoming dict key commit).1.get other = dict.get other := by
  cases commit with
  | false => rfl
  | true =>
      rw [incoming_commit]
      dsimp only
      split <;> exact SharedDict.get_set_of_ne dict _ different

end CountLimiter

end Apicast.RateLimit
