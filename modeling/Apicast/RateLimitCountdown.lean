import Apicast.Foundation.Number
import Apicast.RateLimitHeaders
import Mathlib.Data.Rat.Floor
import Mathlib.Tactic.Linarith
import Mathlib.Tactic.Push

/-!
# The countdown of cached rate limits

At each hit an entry is imported and exported again. What it has of its time is the seconds that
were left when it was exported, and they are counted from the import on, so the time between two
hits is not counted. A usage without an entry has one whose time is as far ahead as the time since
the epoch.
-/

namespace Apicast.RateLimitHeaders

open Foundation

/-- The numbers of Lua. Integers of at most fourteen digits are written with all of them. -/
structure Numerals.Documented (numerals : Numerals ℚ) : Prop where
  tostring : ∀ value : ℤ, Number.Exact value → numerals.tostring value = value.repr
  tonumber : ∀ value : ℤ, Number.Exact value → numerals.tonumber value.repr = some (value : ℚ)
  free : ∀ number, Delimited.Free '#' (numerals.tostring number)
  sign : ∀ number ≤ 0, ∃ other ≤ 0, numerals.tonumber (numerals.tostring number) = some other
  truncate : ∀ number, 0 ≤ number → numerals.truncate number = (⌊number⌋ : ℤ)

/-- The limits in an answer of the backend. -/
structure Answer where
  limit : ℕ
  remaining : ℤ
  reset : ℤ
  limit_exact : Number.Exact limit
  remaining_exact : Number.Exact remaining
  reset_exact : Number.Exact reset

def Answer.headers (answer : Answer) : LimitHeaders where
  limitMaxValue := some (answer.limit : ℤ).repr
  limitRemaining := some answer.remaining.repr
  limitReset := some answer.reset.repr

/-- The last answer for a usage, with its time. -/
structure Recorded where
  answer : Answer
  time : ℚ

section Runs

variable (numerals : Numerals ℚ) (usage : Usage)

/-- The cache after an answer, if there is one. -/
def recordedCache (recorded : Option Recorded) (cache : Cache) : Cache :=
  match recorded with
  | none => cache
  | some recorded =>
      (accessPhase numerals cache (some usage) (some recorded.answer.headers) recorded.time).1

/-- The cache after hits without an answer. -/
def cachedHits (times : List ℚ) (cache : Cache) : Cache :=
  times.foldl (fun cache time => (contentPhase numerals cache (some usage) none time).1) cache

/-- The headers of a hit after an answer and other hits. -/
def hitHeaders (recorded : Option Recorded) (times : List ℚ) (now : ℚ) (cache : Cache) :
    Option (RateLimit ℚ) :=
  (contentPhase numerals (cachedHits numerals usage times (recordedCache numerals usage recorded
    cache)) (some usage) none now).2

/-- The headers of a hit: none without an answer, else its limits, counted down by the hits and by
the time. -/
def HeadersFollow (recorded : Option Recorded) (times : List ℚ) (now : ℚ)
    (headers : Option (RateLimit ℚ)) : Prop :=
  match recorded with
  | none => headers = none
  | some { answer, time } =>
      ∃ reset : ℤ, |(reset : ℚ) - max (time + answer.reset - now) 0| < 1 ∧
        headers =
          if 0 < reset then
            some
              { limit := answer.limit
                remaining := max (answer.remaining - (times.length + 1 : ℕ)) 0
                reset }
          else none

/-- Less than a second after the answer, or nothing to reset, or no time at all. -/
def WithinSecond (recorded : Option Recorded) (now : ℚ) : Prop :=
  match recorded with
  | none => now < 1
  | some { answer, time } => answer.reset ≤ 0 ∨ now - time < 1

end Runs

section Counts

/-- A number that is counted down from a start. Below zero it may be rounded. -/
structure CountsDown (start : ℤ) (count : ℕ) (number : ℚ) : Prop where
  above : (count : ℤ) ≤ start → number = start - count
  below : start ≤ count → number ≤ 0

variable {start : ℤ} {count : ℕ} {number : ℚ}

theorem CountsDown.zero : CountsDown start 0 start where
  above _ := by rw [Nat.cast_zero, sub_zero]
  below under := by exact_mod_cast under

theorem CountsDown.next (counts : CountsDown start count number) :
    CountsDown start (count + 1) (number - 1) where
  above inside := by
    rw [counts.above (by omega), Nat.cast_add, Nat.cast_one]
    ring
  below under := by
    obtain inside | beyond := le_or_gt (count : ℤ) start
    · have close : (start : ℚ) ≤ (count + 1 : ℕ) := by exact_mod_cast under
      rw [Nat.cast_add, Nat.cast_one] at close
      rw [counts.above inside]
      linarith
    · linarith [counts.below beyond.le]

/-- The header never shows less than zero. -/
theorem CountsDown.positive (counts : CountsDown start count number) :
    (if 0 ≤ number then number else 0) = max ((start : ℚ) - count) 0 := by
  obtain inside | under := le_or_gt (count : ℤ) start
  · have positive : (0 : ℚ) ≤ start - count := by
      have ordered : (count : ℚ) ≤ start := by exact_mod_cast inside
      linarith
    rw [counts.above inside, if_pos positive, max_eq_left positive]
  · have negative : (start : ℚ) - count ≤ 0 := by
      have ordered : (start : ℚ) ≤ count := by exact_mod_cast under.le
      linarith
    have none : number ≤ 0 := counts.below under.le
    rw [max_eq_right negative]
    split
    · next zero => exact le_antisymm none zero
    · rfl

variable {numerals : Numerals ℚ} (documented : numerals.Documented)

include documented in
/-- Numbers that are written in full are read back. -/
theorem tonumber_tostring {value : ℤ} (exact : Number.Exact value) :
    numerals.tonumber (numerals.tostring value) = some (value : ℚ) := by
  rw [documented.tostring value exact, documented.tonumber value exact]

include documented in
/-- The count that is read back. -/
theorem CountsDown.readBack (exact : Number.Exact start) (counts : CountsDown start count number) :
    ∃ other, numerals.tonumber (numerals.tostring number) = some other ∧
      CountsDown start count other := by
  obtain inside | under := le_or_gt (count : ℤ) start
  · have whole : number = ((start - count : ℤ) : ℚ) := by
      rw [counts.above inside]
      push_cast
      rfl
    have small : Number.Exact (start - count) := by
      unfold Number.Exact at exact ⊢
      omega
    refine ⟨number, ?_, counts⟩
    rw [whole]
    exact tonumber_tostring documented small
  · obtain ⟨other, negative, read⟩ := documented.sign number (counts.below under.le)
    exact ⟨other, read, fun inside => absurd inside (not_le.mpr under), fun _ => negative⟩

end Counts

section Rounds

variable {numerals : Numerals ℚ} (documented : numerals.Documented)

/-- The text of an entry. -/
def entryText (numerals : Numerals ℚ) (limit remaining reset : ℚ) : String :=
  Delimited.join '#' (numerals.tostring limit)
    (Delimited.join '#' (numerals.tostring remaining) (numerals.tostring reset))

theorem export_eq (entry : Entry ℚ) (now : ℚ) :
    entry.export numerals now =
      entryText numerals entry.limit entry.remaining
        (entry.remainingSecsPositive numerals now) := by
  unfold Entry.export entryText Delimited.join
  simp only [String.append_assoc]
  rfl

include documented in
/-- An entry is imported with the limits it was exported with, and its time starts anew. -/
theorem import_entryText (limit remaining reset now : ℚ) :
    Entry.import numerals (entryText numerals limit remaining reset) now =
      (numerals.tonumber (numerals.tostring reset)).map fun delta =>
        { limit := (numerals.tonumber (numerals.tostring limit)).getD 0
          remaining := (numerals.tonumber (numerals.tostring remaining)).getD 0
          limitTime := now + delta } := by
  have fields : Delimited.pieces '#' (entryText numerals limit remaining reset) =
      [numerals.tostring limit, numerals.tostring remaining, numerals.tostring reset] := by
    unfold entryText
    rw [Delimited.pieces_join, Delimited.pieces_join, Delimited.pieces_of_free (documented.free _),
      Delimited.pieces_of_free (documented.free _), Delimited.pieces_of_free (documented.free _)]
    rfl
  unfold Delimited.pieces at fields
  unfold Entry.import
  rw [fields]
  rfl

include documented in
/-- The seconds that are left of a whole number of them, when none has passed. -/
theorem remainingSecsPositive_eq {entry : Entry ℚ} {now : ℚ} {reset : ℤ}
    (ahead : entry.limitTime = now + reset) :
    entry.remainingSecsPositive numerals now = (max reset 0 : ℤ) := by
  unfold Entry.remainingSecsPositive
  dsimp only
  rw [ahead, add_sub_cancel_left]
  split
  · next positive =>
    have whole : 0 ≤ reset := by exact_mod_cast positive
    rw [documented.truncate _ positive, Int.floor_intCast, max_eq_left whole]
  · next negative =>
    have whole : reset ≤ 0 := by
      rw [not_le] at negative
      exact_mod_cast negative.le
    rw [max_eq_right whole, Int.cast_zero]

/-- The entry of an answer after some hits. -/
structure Holds (answer : Answer) (count : ℕ) (entry : Entry ℚ) (now : ℚ) : Prop where
  limit : entry.limit = answer.limit
  remaining : CountsDown answer.remaining count entry.remaining
  limitTime : entry.limitTime = now + (max answer.reset 0 : ℤ)

/-- What is in the cache. -/
def Cached (numerals : Numerals ℚ) (answer : Answer) (count : ℕ) (cache : Cache) (usage : Usage) :
    Prop :=
  ∃ remaining, CountsDown answer.remaining count remaining ∧
    cache.get (getKey usage) =
      some (entryText numerals answer.limit remaining (max answer.reset 0 : ℤ))

variable {usage : Usage} {cache : Cache} {answer : Answer} {count : ℕ}

include documented in
/-- The answer is in the cache, not counted down yet. -/
theorem cached_recordedCache (time : ℚ) :
    Cached numerals answer 0 (recordedCache numerals usage (some ⟨answer, time⟩) cache) usage := by
  have made : Entry.new numerals answer.headers.limitMaxValue answer.headers.limitRemaining
      answer.headers.limitReset time =
        some
          { limit := answer.limit
            remaining := answer.remaining
            limitTime := time + answer.reset } := by
    unfold Entry.new numberOr Answer.headers
    dsimp only
    rw [documented.tonumber _ answer.reset_exact, documented.tonumber _ answer.limit_exact,
      documented.tonumber _ answer.remaining_exact]
    rfl
  refine ⟨answer.remaining, CountsDown.zero, ?_⟩
  unfold recordedCache accessPhase resetOrCreateUsageMetric
  dsimp only
  rw [made, Option.map_some]
  dsimp only
  rw [SharedDict.get_set_self, export_eq, remainingSecsPositive_eq documented rfl]

include documented in
/-- One hit: the entry of the cache with one hit less, which is written back. -/
theorem decrementUsageMetric_of_cached (cached : Cached numerals answer count cache usage)
    (now : ℚ) :
    ∃ data, Holds answer (count + 1) data now ∧
      decrementUsageMetric numerals cache (some usage) now =
        (cache.set (getKey usage) (data.export numerals now), some data) := by
  obtain ⟨remaining, counts, present⟩ := cached
  obtain ⟨other, read, counts⟩ := counts.readBack documented answer.remaining_exact
  have exact : Number.Exact (max answer.reset 0) := by
    have small := answer.reset_exact
    unfold Number.Exact at small ⊢
    omega
  have limit := tonumber_tostring documented answer.limit_exact
  rw [Int.cast_natCast] at limit
  refine
    ⟨{ limit := answer.limit
       remaining := other - 1
       limitTime := now + (max answer.reset 0 : ℤ) }, ⟨rfl, counts.next, rfl⟩, ?_⟩
  unfold decrementUsageMetric
  dsimp only
  rw [present]
  dsimp only
  rw [import_entryText documented, tonumber_tostring documented exact, limit, read]
  rfl

include documented in
/-- Every hit counts it down by one. -/
theorem cached_contentPhase (cached : Cached numerals answer count cache usage) (now : ℚ) :
    Cached numerals answer (count + 1) (contentPhase numerals cache (some usage) none now).1
      usage := by
  obtain ⟨data, holds, hit⟩ := decrementUsageMetric_of_cached documented cached now
  refine ⟨data.remaining, holds.remaining, ?_⟩
  unfold contentPhase
  rw [hit]
  dsimp only
  rw [SharedDict.get_set_self, export_eq, holds.limit,
    remainingSecsPositive_eq documented holds.limitTime, max_eq_left (le_max_right _ _)]

include documented in
/-- Whatever the times of the hits are. -/
theorem cached_cachedHits (cached : Cached numerals answer count cache usage) (times : List ℚ) :
    Cached numerals answer (count + times.length) (cachedHits numerals usage times cache)
      usage := by
  induction times generalizing count cache with
  | nil => exact cached
  | cons time times ih =>
      have later := ih (cached_contentPhase documented cached time)
      rw [List.length_cons, Nat.add_comm times.length, ← Nat.add_assoc]
      exact later

include documented in
/-- The headers of a hit are the limits of the answer, counted down by the hits, with all of its
time. -/
theorem contentPhase_of_cached (cached : Cached numerals answer count cache usage) (now : ℚ) :
    (contentPhase numerals cache (some usage) none now).2 =
      if 0 < answer.reset then
        some
          { limit := answer.limit
            remaining := max (answer.remaining - (count + 1 : ℕ)) 0
            reset := answer.reset }
      else none := by
  obtain ⟨data, holds, hit⟩ := decrementUsageMetric_of_cached documented cached now
  have left : data.remainingSecsPositive numerals now = (max answer.reset 0 : ℤ) := by
    rw [remainingSecsPositive_eq documented holds.limitTime, max_eq_left (le_max_right _ _)]
  unfold contentPhase
  rw [hit]
  change data.addHeaders numerals now = _
  unfold Entry.addHeaders
  dsimp only
  rw [left, holds.limit, holds.remaining.positive, if_pos (Nat.cast_nonneg answer.limit)]
  by_cases positive : 0 < answer.reset
  · have ahead : ¬ (((max answer.reset 0 : ℤ) : ℚ) ≤ 0) := by
      rw [max_eq_left positive.le, not_le]
      exact_mod_cast positive
    rw [if_pos positive, if_neg ahead, max_eq_left positive.le]
  · have behind : ((max answer.reset 0 : ℤ) : ℚ) ≤ 0 := by
      rw [max_eq_right (not_lt.mp positive), Int.cast_zero]
    rw [if_neg positive, if_pos behind]

end Rounds

section Unrecorded

variable {numerals : Numerals ℚ} (documented : numerals.Documented) {usage : Usage} {cache : Cache}
  (absent : cache.get (getKey usage) = none)

include absent in
theorem decrementUsageMetric_of_absent (now : ℚ) :
    decrementUsageMetric numerals cache (some usage) now = (cache, some (Entry.initEmpty now)) := by
  unfold decrementUsageMetric
  dsimp only
  rw [absent]

include absent in
/-- Without an entry hits leave the cache as it is. -/
theorem cachedHits_of_absent (times : List ℚ) : cachedHits numerals usage times cache = cache := by
  induction times with
  | nil => rfl
  | cons time times ih =>
      have unchanged : (contentPhase numerals cache (some usage) none time).1 = cache := by
        unfold contentPhase
        rw [decrementUsageMetric_of_absent absent]
      unfold cachedHits
      rw [List.foldl_cons, unchanged]
      exact ih

include documented absent in
/-- The time of an entry that is made for a hit is the time of the hit, once more. -/
theorem contentPhase_of_absent (now : ℚ) :
    (contentPhase numerals cache (some usage) none now).2 = none ↔ now < 1 := by
  unfold contentPhase
  rw [decrementUsageMetric_of_absent absent]
  change (Entry.initEmpty now).addHeaders numerals now = none ↔ _
  unfold Entry.addHeaders Entry.remainingSecsPositive Entry.initEmpty
  dsimp only
  rw [add_sub_cancel_right]
  by_cases positive : 0 ≤ now
  · rw [if_pos positive, documented.truncate now positive, ite_eq_left_iff]
    have whole : ((⌊now⌋ : ℤ) : ℚ) ≤ 0 ↔ now < 1 := by
      rw [Int.cast_nonpos, ← Int.lt_add_one_iff, zero_add, Int.floor_lt, Int.cast_one]
    rw [← whole]
    constructor
    · intro nothing
      by_contra more
      exact Option.some_ne_none _ (nothing more)
    · exact fun under more => absurd under more
  · rw [if_neg positive, if_pos le_rfl]
    exact iff_of_true rfl (by linarith)

end Unrecorded

/-- The reset of the answer is near to what is left of it for less than a second only. -/
theorem abs_sub_max_lt_one_iff {time now : ℚ} (ordered : time ≤ now) {reset : ℤ}
    (positive : 0 < reset) :
    |(reset : ℚ) - max (time + reset - now) 0| < 1 ↔ now - time < 1 := by
  have least : (1 : ℚ) ≤ reset := by exact_mod_cast positive
  obtain ahead | behind := le_total 0 (time + reset - now)
  · have elapsed : (reset : ℚ) - (time + reset - now) = now - time := by ring
    rw [max_eq_left ahead, elapsed, abs_of_nonneg (sub_nonneg.mpr ordered)]
  · rw [max_eq_right behind, sub_zero, abs_of_nonneg (by linarith)]
    exact iff_of_false (by linarith) (by linarith)

/-- After an answer, or without one, and after any hits: the headers of a hit follow the answer
exactly within a second of it, or when there is nothing to reset. -/
theorem headersFollow_iff (numerals : Numerals ℚ) (documented : numerals.Documented) (usage : Usage)
    (recorded : Option Recorded) (times : List ℚ) (now : ℚ) (cache : Cache)
    (absent : recorded = none → cache.get (getKey usage) = none)
    (ordered : ∀ answered ∈ recorded, answered.time ≤ now) :
    HeadersFollow recorded times now (hitHeaders numerals usage recorded times now cache) ↔
      WithinSecond recorded now := by
  cases recorded with
  | none =>
      have unchanged : cachedHits numerals usage times cache = cache :=
        cachedHits_of_absent (absent rfl) times
      unfold hitHeaders recordedCache
      dsimp only
      rw [unchanged]
      exact contentPhase_of_absent documented (absent rfl) now
  | some answered =>
      obtain ⟨answer, time⟩ := answered
      have cached : Cached numerals answer (0 + times.length)
          (cachedHits numerals usage times
            (recordedCache numerals usage (some ⟨answer, time⟩) cache)) usage :=
        cached_cachedHits documented (cached_recordedCache documented time) times
      rw [Nat.zero_add] at cached
      unfold HeadersFollow hitHeaders WithinSecond
      dsimp only
      rw [contentPhase_of_cached documented cached]
      have before : time ≤ now := ordered _ rfl
      by_cases positive : 0 < answer.reset
      · rw [if_pos positive, or_iff_right (not_le.mpr positive),
          ← abs_sub_max_lt_one_iff before positive]
        constructor
        · rintro ⟨reset, near, same⟩
          split at same
          · have equal : (answer.reset : ℚ) = reset :=
              congrArg RateLimit.reset (Option.some.inj same)
            rwa [← equal] at near
          · nomatch same
        · exact fun near => ⟨answer.reset, near, by rw [if_pos positive]⟩
      · rw [if_neg positive]
        refine iff_of_true ⟨0, ?_, rfl⟩ (.inl (not_lt.mp positive))
        have passed : time + answer.reset - now ≤ 0 := by
          have least : (answer.reset : ℚ) ≤ 0 := by exact_mod_cast not_lt.mp positive
          linarith
        rw [max_eq_right passed, Int.cast_zero, sub_zero, abs_zero]
        exact one_pos

section Examples

/-- Integers in decimals. -/
def integral : Numerals ℚ where
  tonumber text := (decimal.tonumber text).map fun value : ℤ => (value : ℚ)
  tostring number := ⌊number⌋.repr
  truncate number := (⌊number⌋ : ℤ)

theorem decimal_natural_repr (number : ℕ) : decimal.natural number.repr.toList = some number := by
  have digits : number.repr.toList.all Char.isDigit := by
    rw [List.all_eq_true]
    intro letter member
    exact Nat.isDigit_of_mem_toDigits (by decide) (by decide) (Nat.toList_repr ▸ member)
  have filled : number.repr.toList ≠ [] := by
    rw [Nat.toList_repr]
    exact Nat.toDigits_ne_nil
  unfold decimal.natural
  rw [if_pos ⟨filled, digits⟩, Nat.toList_repr, Nat.ofDigitChars_ten_toDigits]

theorem decimal_tonumber_nat (number : ℕ) : decimal.tonumber number.repr = some (number : ℤ) := by
  unfold decimal
  dsimp only
  split
  · next digits same =>
    have sign : '-' ∈ number.repr.toList := same ▸ List.mem_cons_self
    rw [Nat.toList_repr] at sign
    exact absurd (Nat.isDigit_of_mem_toDigits (by decide) (by decide) sign) (by decide)
  · rw [decimal_natural_repr]
    rfl

theorem decimal_tonumber_negative (number : ℕ) :
    decimal.tonumber ("-" ++ number.repr) = some (-(number : ℤ)) := by
  unfold decimal
  dsimp only
  rw [String.toList_append]
  change ((decimal.natural number.repr.toList).bind _).map _ = _
  rw [decimal_natural_repr]
  rfl

theorem integral_tonumber_repr (value : ℤ) : integral.tonumber value.repr = some (value : ℚ) := by
  have read : decimal.tonumber value.repr = some value := by
    rw [Int.repr_eq_if]
    split
    · next positive => rw [decimal_tonumber_nat, Int.toNat_of_nonneg positive]
    · next negative =>
      rw [decimal_tonumber_negative, Int.toNat_of_nonneg (by omega), neg_neg]
  exact congrArg (Option.map fun value : ℤ => (value : ℚ)) read

theorem documented_integral : integral.Documented where
  tostring value _ := by
    change ⌊(value : ℚ)⌋.repr = _
    rw [Int.floor_intCast]
  tonumber value _ := integral_tonumber_repr value
  free number := Delimited.free_decimal _ (by decide) (by decide)
  sign number negative := by
    refine ⟨(⌊number⌋ : ℤ), ?_, integral_tonumber_repr _⟩
    exact_mod_cast (Int.floor_le number).trans negative
  truncate _ _ := rfl

def hitUsage : Usage := Usage.new.add "hits" 1

/-- The backend answers at some time that the limits are reset a minute later. -/
def minuteAnswer : Recorded where
  answer :=
    { limit := 10
      remaining := 9
      reset := 60
      limit_exact := by decide
      remaining_exact := by decide
      reset_exact := by decide }
  time := 1000

/-- The second hit, three quarters of a second after the answer, has the headers of the answer
counted down twice. -/
theorem headersFollow_second_hit :
    HeadersFollow (some minuteAnswer) [4001 / 4] (4003 / 4)
      (hitHeaders integral hitUsage (some minuteAnswer) [4001 / 4] (4003 / 4) ∅) := by
  refine (headersFollow_iff integral documented_integral hitUsage (some minuteAnswer) [4001 / 4]
    (4003 / 4) ∅ (fun none => nomatch none) ?_).mpr (.inr (by norm_num [minuteAnswer]))
  rintro answered ⟨⟩
  norm_num [minuteAnswer]

/-- Half a minute after the answer there is a whole minute left. -/
theorem not_headersFollow_late :
    ¬ HeadersFollow (some minuteAnswer) [] 1030
      (hitHeaders integral hitUsage (some minuteAnswer) [] 1030 ∅) := by
  have cached : Cached integral minuteAnswer.answer 0
      (recordedCache integral hitUsage (some minuteAnswer) ∅) hitUsage :=
    cached_recordedCache documented_integral 1000
  have headers : hitHeaders integral hitUsage (some minuteAnswer) [] 1030 ∅ =
      some { limit := 10, remaining := max (9 - (0 + 1 : ℕ)) 0, reset := 60 } := by
    exact_mod_cast contentPhase_of_cached documented_integral cached 1030
  rintro ⟨reset, near, same⟩
  rw [headers] at same
  split at same
  · have whole : (60 : ℚ) = reset := congrArg RateLimit.reset (Option.some.inj same)
    rw [← whole] at near
    norm_num [minuteAnswer] at near
  · nomatch same

end Examples

end Apicast.RateLimitHeaders
