import Mathlib.Algebra.BigOperators.Group.Finset.Piecewise
import Mathlib.Algebra.Order.BigOperators.Group.Finset
import Mathlib.Data.Fintype.Basic
import Mathlib.Tactic.Abel

/-!
# Totals over the threads of a pool

A pool assigns a local state to every thread of a finite type. The total of a
weight over the pool changes only by the weight of the thread that moved, which
is how an invariant about all calls in progress is carried through one step of
one of them.
-/

namespace Foundation

namespace ThreadPool

variable {Thread Local : Type*} [Fintype Thread] [DecidableEq Thread]

section Total

variable {Weight : Type*} [AddCommMonoid Weight]

/-- The sum of a weight over all threads. -/
def total (weight : Local → Weight) (pool : Thread → Local) : Weight :=
  ∑ thread, weight (pool thread)

/-- Moving one thread exchanges its weight in the total. -/
theorem total_update (weight : Local → Weight) (pool : Thread → Local) (thread : Thread)
    (moved : Local) :
    total weight (Function.update pool thread moved) + weight (pool thread) =
      total weight pool + weight moved := by
  have after : total weight (Function.update pool thread moved) =
      weight moved + ∑ other ∈ Finset.univ \ {thread}, weight (pool other) := by
    unfold total
    rw [← Finset.sum_update_of_mem (Finset.mem_univ thread)]
    refine Finset.sum_congr rfl fun other _ => ?_
    by_cases same : other = thread
    · subst same
      simp only [Function.update_self]
    · simp only [Function.update_of_ne same]
  have before : total weight pool =
      weight (pool thread) + ∑ other ∈ Finset.univ \ {thread}, weight (pool other) := by
    unfold total
    rw [← Finset.sum_update_of_mem (Finset.mem_univ thread), Function.update_eq_self_iff.mpr rfl]
  rw [after, before]
  abel

omit [DecidableEq Thread] in
/-- A pool of weightless threads weighs nothing. -/
theorem total_eq_zero {weight : Local → Weight} {pool : Thread → Local}
    (weightless : ∀ thread, weight (pool thread) = 0) : total weight pool = 0 :=
  Finset.sum_eq_zero fun thread _ => weightless thread

omit [DecidableEq Thread] in
/-- The total depends on the weights of the threads only. -/
theorem total_congr {weight other : Local → Weight} {pool : Thread → Local}
    (same : ∀ thread, weight (pool thread) = other (pool thread)) :
    total weight pool = total other pool :=
  Finset.sum_congr rfl fun thread _ => same thread

end Total

section Count

/-- The number of threads whose local state satisfies a predicate. -/
def count (predicate : Local → Prop) [DecidablePred predicate] (pool : Thread → Local) : Nat :=
  total (fun state => if predicate state then 1 else 0) pool

variable {predicate : Local → Prop} [DecidablePred predicate]

/-- Moving one thread changes the count by that thread alone. -/
theorem count_update (pool : Thread → Local) (thread : Thread) (moved : Local) :
    count predicate (Function.update pool thread moved) +
        (if predicate (pool thread) then 1 else 0) =
      count predicate pool + if predicate moved then 1 else 0 :=
  total_update _ pool thread moved

omit [DecidableEq Thread] in
/-- No thread satisfying the predicate means a count of zero. -/
theorem count_eq_zero {pool : Thread → Local} (none : ∀ thread, ¬ predicate (pool thread)) :
    count predicate pool = 0 :=
  total_eq_zero fun thread => if_neg (none thread)

omit [DecidableEq Thread] in
/-- A thread satisfying the predicate is counted. -/
theorem count_pos {pool : Thread → Local} {thread : Thread} (satisfied : predicate (pool thread)) :
    0 < count predicate pool := by
  have share : (if predicate (pool thread) then 1 else 0) ≤ count predicate pool :=
    Finset.single_le_sum (f := fun other => if predicate (pool other) then 1 else 0)
      (fun _ _ => Nat.zero_le _) (Finset.mem_univ thread)
  rw [if_pos satisfied] at share
  exact share

omit [DecidableEq Thread] in
/-- A weaker predicate counts at least as many threads. -/
theorem count_le_count {weaker : Local → Prop} [DecidablePred weaker] {pool : Thread → Local}
    (weakens : ∀ thread, predicate (pool thread) → weaker (pool thread)) :
    count predicate pool ≤ count weaker pool := by
  refine Finset.sum_le_sum fun thread _ => ?_
  by_cases satisfied : predicate (pool thread)
  · simp only [satisfied, weakens thread satisfied, ↓reduceIte, le_refl]
  · simp only [satisfied, ↓reduceIte, Nat.zero_le]

end Count

end ThreadPool

end Foundation
