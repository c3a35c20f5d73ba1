import Apicast.Usage
import Mathlib.Data.Int.Order.Basic

/-!
# What a merge of usages leaves

A merge is documented to add the amounts of the other usage, and to remove a metric only when a
negative amount was added and what results is not positive. `merge` tests the result alone.
-/

namespace Apicast

open Foundation

namespace Usage

variable {usage another : Usage} {metric : String}

/-- A metric has an amount exactly when it is listed. -/
theorem get_eq (usage : Usage) (metric : String) :
    usage.deltas.get metric =
      if metric ∈ usage.metrics then some (usage.delta metric) else none := by
  by_cases member : metric ∈ usage.metrics
  · obtain ⟨amount, present⟩ := Option.isSome_iff_exists.mp ((usage.listed metric).mp member)
    rw [if_pos member, present, delta_of_get present]
  · rw [if_neg member, ← Option.not_isSome_iff_eq_none, ← usage.listed]
    exact member

/-- After a merge, a metric of the other usage has the sum if this is positive, and no amount
otherwise. -/
theorem get_merge (usage another : Usage) (metric : String) :
    (usage.merge another).deltas.get metric =
      if metric ∈ another.metrics then
        if 0 < usage.delta metric + another.delta metric then
          some (usage.delta metric + another.delta metric)
        else none
      else usage.deltas.get metric := by
  rw [get_eq (usage.merge another)]
  simp only [mem_metrics_merge, delta_merge]
  by_cases member : metric ∈ another.metrics
  · simp only [member, ↓reduceIte]
    by_cases positive : 0 < usage.delta metric + another.delta metric
    · rw [if_pos positive, if_pos positive, max_eq_left positive.le]
    · rw [if_neg positive, if_neg positive]
  · simp only [member, ↓reduceIte]
    exact (get_eq usage metric).symm

/-- No amount is negative. -/
def Nonneg (usage : Usage) : Prop := ∀ metric ∈ usage.metrics, 0 ≤ usage.delta metric

instance (usage : Usage) : Decidable usage.Nonneg :=
  inferInstanceAs (Decidable (∀ metric ∈ usage.metrics, 0 ≤ usage.delta metric))

/-- What the documentation of `merge` says. -/
structure MergeLaw (usage another : Usage) : Prop where
  added : ∀ metric ∈ another.metrics,
    ¬ (another.delta metric < 0 ∧ usage.delta metric + another.delta metric ≤ 0) →
      (usage.merge another).deltas.get metric = some (usage.delta metric + another.delta metric)
  deleted : ∀ metric ∈ another.metrics, another.delta metric < 0 →
    usage.delta metric + another.delta metric ≤ 0 →
      (usage.merge another).deltas.get metric = none
  unchanged : ∀ metric, metric ∉ another.metrics →
    (usage.merge another).deltas.get metric = usage.deltas.get metric
  keeps : another.Nonneg → ∀ metric, metric ∈ usage.metrics ∨ metric ∈ another.metrics →
    metric ∈ (usage.merge another).metrics
  commutes : usage.Nonneg → another.Nonneg →
    (usage.merge another).Same (another.merge usage)

/-- What keeps `merge` from removing a metric to which no negative amount is added. -/
structure NothingLost (usage another : Usage) : Prop where
  positive : ∀ metric ∈ another.metrics, 0 ≤ another.delta metric →
    0 < usage.delta metric + another.delta metric
  only : usage.Nonneg → another.Nonneg → ∀ metric ∈ usage.metrics, metric ∉ another.metrics →
    0 < usage.delta metric

theorem NothingLost.commutes (lost : usage.NothingLost another) (nonneg : usage.Nonneg)
    (otherNonneg : another.Nonneg) : (usage.merge another).Same (another.merge usage) := by
  intro metric
  rw [get_merge, get_merge, add_comm (another.delta metric)]
  by_cases own : metric ∈ usage.metrics
  · by_cases other : metric ∈ another.metrics
    · rw [if_pos own, if_pos other]
    · have alone := lost.only nonneg otherNonneg metric own other
      have total : usage.delta metric + another.delta metric = usage.delta metric := by
        rw [delta_of_not_mem another metric other, add_zero]
      rw [if_pos own, if_neg other, total, if_pos alone, get_eq usage, if_pos own]
  · by_cases other : metric ∈ another.metrics
    · have alone := lost.positive metric other (otherNonneg metric other)
      have total : usage.delta metric + another.delta metric = another.delta metric := by
        rw [delta_of_not_mem usage metric own, zero_add]
      rw [if_neg own, if_pos other, if_pos alone, total, get_eq another, if_pos other]
    · rw [if_neg own, if_neg other, get_eq usage, get_eq another, if_neg own, if_neg other]

/-- For every two usages, a merge does what is documented exactly when the total of a metric to
which no negative amount is added is positive, and, where no amount is negative, the metrics
that only the first usage has are positive. -/
theorem mergeLaw_iff (usage another : Usage) :
    usage.MergeLaw another ↔ usage.NothingLost another := by
  constructor
  · intro law
    refine ⟨?_, ?_⟩
    · intro metric member nonneg
      have merged := law.added metric member fun both => absurd both.1 (not_lt.mpr nonneg)
      rw [get_merge, if_pos member] at merged
      by_contra total
      rw [if_neg total] at merged
      cases merged
    · intro nonneg otherNonneg metric own other
      have same := law.commutes nonneg otherNonneg metric
      rw [get_merge, get_merge, if_neg other, if_pos own, get_eq usage, if_pos own,
        delta_of_not_mem another metric other, zero_add] at same
      by_contra total
      rw [if_neg total] at same
      cases same
  · intro lost
    refine ⟨?_, ?_, ?_, ?_, lost.commutes⟩
    · intro metric member kept
      rw [get_merge, if_pos member, if_pos]
      by_cases negative : another.delta metric < 0
      · exact not_le.mp fun total => kept ⟨negative, total⟩
      · exact lost.positive metric member (not_lt.mp negative)
    · intro metric member _ total
      rw [get_merge, if_pos member, if_neg (not_lt.mpr total)]
    · intro metric absent
      rw [get_merge, if_neg absent]
    · intro nonneg metric either
      rw [mem_metrics_merge]
      by_cases member : metric ∈ another.metrics
      · rw [if_pos member]
        exact lost.positive metric member (nonneg metric member)
      · rw [if_neg member]
        exact either.resolve_right member

/-- A metric that counts nothing is lost when it is merged into an empty usage. -/
theorem not_mergeLaw_zero : ¬ new.MergeLaw (new.add "hits" 0) := by
  intro law
  have kept := law.keeps (by decide) "hits" (.inr (by decide))
  exact absurd kept (by decide)

end Usage

end Apicast
