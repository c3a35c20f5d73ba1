import Mathlib.Logic.Function.Basic
import Mathlib.Order.Defs.PartialOrder

/-!
# Caches with expiring entries

A finite map whose entries may carry the moment from which on they are expired.
An expired entry can still be seen as a stale one. Entries can be evicted at any
time, so nothing may depend on an entry being there. Moments are of any type that
can be compared.
-/

namespace Foundation

/-- A cached value; without an expiry it never expires. -/
structure CacheEntry (Time Value : Type*) where
  value : Value
  expiresAt : Option Time
  deriving DecidableEq, Repr

namespace CacheEntry

variable {Time Value : Type*}

def Fresh [LT Time] (entry : CacheEntry Time Value) (now : Time) : Prop :=
  ∀ moment ∈ entry.expiresAt, now < moment

instance [LT Time] [DecidableLT Time] (entry : CacheEntry Time Value) (now : Time) :
    Decidable (entry.Fresh now) :=
  match found : entry.expiresAt with
  | none => .isTrue fun moment member => by rw [found] at member; cases member
  | some limit =>
      if before : now < limit then
        .isTrue fun moment member => by rw [found] at member; cases member; exact before
      else .isFalse fun fresh => before (fresh limit (by rw [found]; rfl))

/-- An entry that is fresh was fresh before. -/
theorem Fresh.earlier [Preorder Time] {entry : CacheEntry Time Value} {now later : Time}
    (fresh : entry.Fresh later) (order : now ≤ later) : entry.Fresh now :=
  fun moment member => lt_of_le_of_lt order (fresh moment member)

end CacheEntry

abbrev ExpiringCache (Time Key Value : Type*) := Key → Option (CacheEntry Time Value)

namespace ExpiringCache

variable {Time Key Value : Type*}

section Reading

variable [LT Time] [DecidableLT Time]

/-- The value of a fresh entry. -/
def get (cache : ExpiringCache Time Key Value) (now : Time) (key : Key) : Option Value :=
  match cache key with
  | some entry => if entry.Fresh now then some entry.value else none
  | none => none

/-- The value of an expired entry. -/
def getStale (cache : ExpiringCache Time Key Value) (now : Time) (key : Key) : Option Value :=
  match cache key with
  | some entry => if entry.Fresh now then none else some entry.value
  | none => none

end Reading

section Writing

variable [DecidableEq Key]

/-- Store a value, for a time to live when one is given. -/
def set [Add Time] (cache : ExpiringCache Time Key Value) (now : Time) (key : Key) (value : Value)
    (ttl : Option Time) : ExpiringCache Time Key Value :=
  Function.update cache key (some ⟨value, ttl.map (now + ·)⟩)

/-- Drop an entry. -/
def evict (cache : ExpiringCache Time Key Value) (key : Key) : ExpiringCache Time Key Value :=
  Function.update cache key none

/-- Drop all entries. -/
def flushAll (_ : ExpiringCache Time Key Value) : ExpiringCache Time Key Value := fun _ => none

end Writing

section Entries

variable [DecidableEq Key] [Add Time] {cache : ExpiringCache Time Key Value} {now : Time}
  {key written : Key} {value : Value} {ttl : Option Time}

theorem set_self : cache.set now key value ttl key = some ⟨value, ttl.map (now + ·)⟩ :=
  Function.update_self ..

theorem set_of_ne (different : key ≠ written) :
    cache.set now written value ttl key = cache key :=
  Function.update_of_ne different ..

/-- An entry after a write is the one that was written, or was there before. -/
theorem set_eq_some {entry : CacheEntry Time Value}
    (present : cache.set now written value ttl key = some entry) :
    (key = written ∧ entry = ⟨value, ttl.map (now + ·)⟩) ∨ cache key = some entry := by
  by_cases same : key = written
  · subst same
    rw [set_self] at present
    exact .inl ⟨rfl, (Option.some.inj present).symm⟩
  · rw [set_of_ne same] at present
    exact .inr present

end Entries

/-- Nothing is left of an evicted entry, and every other one is as before. -/
theorem evict_eq_some [DecidableEq Key] {cache : ExpiringCache Time Key Value}
    {key evicted : Key} {entry : CacheEntry Time Value}
    (present : cache.evict evicted key = some entry) : cache key = some entry := by
  unfold evict at present
  by_cases same : key = evicted
  · subst same
    rw [Function.update_self] at present
    cases present
  · rwa [Function.update_of_ne same] at present

section Lookup

variable [LT Time] [DecidableLT Time] {cache : ExpiringCache Time Key Value} {now : Time}
  {key : Key} {value : Value}

theorem get_eq_some :
    cache.get now key = some value ↔
      ∃ entry, cache key = some entry ∧ entry.Fresh now ∧ entry.value = value := by
  unfold get
  cases cache key with
  | none =>
      constructor
      · intro found
        cases found
      · rintro ⟨entry, present, _⟩
        cases present
  | some entry =>
      constructor
      · intro found
        obtain ⟨fresh, equal⟩ := Option.ite_none_right_eq_some.mp found
        exact ⟨entry, rfl, fresh, Option.some.inj equal⟩
      · rintro ⟨other, present, fresh, equal⟩
        cases present
        exact (if_pos fresh).trans (congrArg some equal)

/-- With the expired entries, every entry is found. -/
theorem get_or_getStale (cache : ExpiringCache Time Key Value) (now : Time) (key : Key) :
    (cache.get now key).or (cache.getStale now key) = (cache key).map (·.value) := by
  unfold get getStale
  cases cache key with
  | none => rfl
  | some entry =>
      by_cases fresh : entry.Fresh now
      · simp only [fresh, ↓reduceIte, Option.some_or, Option.map_some]
      · simp only [fresh, ↓reduceIte, Option.none_or, Option.map_some]

variable [DecidableEq Key]

/-- A cache does not find what was evicted, and finds everything else as before. -/
theorem get_evict {evicted : Key} (found : (cache.evict evicted).get now key = some value) :
    cache.get now key = some value := by
  obtain ⟨entry, present, fresh, equal⟩ := get_eq_some.mp found
  exact get_eq_some.mpr ⟨entry, evict_eq_some present, fresh, equal⟩

/-- The only entry that a write changes is the one it writes. -/
theorem get_set [Add Time] {written : Key} {stored : Value} {ttl : Option Time} {moment : Time}
    (found : (cache.set moment written stored ttl).get now key = some value) :
    (key = written ∧ value = stored ∧ ∀ span ∈ ttl, now < moment + span) ∨
      cache.get now key = some value := by
  obtain ⟨entry, present, fresh, equal⟩ := get_eq_some.mp found
  rcases set_eq_some present with ⟨same, rfl⟩ | before
  · refine .inl ⟨same, equal.symm, ?_⟩
    intro span member
    exact fresh (moment + span) (Option.mem_map_of_mem _ member)
  · exact .inr (get_eq_some.mpr ⟨entry, before, fresh, equal⟩)

theorem get_set_of_ne [Add Time] {written : Key} {stored : Value} {ttl : Option Time}
    {moment : Time} (different : key ≠ written) :
    (cache.set moment written stored ttl).get now key = cache.get now key := by
  unfold get
  rw [set_of_ne different]

/-- What is written for no time to live is found at any time. -/
theorem get_set_unlimited [Add Time] {moment : Time} :
    (cache.set moment key value none).get now key = some value :=
  get_eq_some.mpr ⟨_, set_self, fun _ never => absurd never (Option.not_mem_none _), rfl⟩

end Lookup

/-- What is found later without a write was there before. -/
theorem get_earlier [Preorder Time] [DecidableLT Time] {cache : ExpiringCache Time Key Value}
    {now later : Time} {key : Key} {value : Value} (order : now ≤ later)
    (found : cache.get later key = some value) : cache.get now key = some value := by
  obtain ⟨entry, present, fresh, equal⟩ := get_eq_some.mp found
  exact get_eq_some.mpr ⟨entry, present, fresh.earlier order, equal⟩

end ExpiringCache

end Foundation
