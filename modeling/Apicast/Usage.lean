import Apicast.Foundation.SharedDict
import Mathlib.Algebra.Ring.Int.Defs

/-!
# Usages

A usage lists the metrics that a call counts for and the amount of each. The
list and the table of amounts name the same metrics, each of them once, so going
through the list meets every amount exactly once.
-/

namespace Apicast

open Foundation

/-- The amounts of the metrics of a call. -/
structure Usage where
  deltas : SharedDict String Int
  /-- The metrics that have an amount, in the order in which they came. -/
  metrics : List String
  nodup : metrics.Nodup
  listed : ∀ metric, metric ∈ metrics ↔ (deltas.get metric).isSome

namespace Usage

def new : Usage where
  deltas := ∅
  metrics := []
  nodup := List.nodup_nil
  listed := by
    intro metric
    rw [SharedDict.get_empty]
    exact iff_of_false List.not_mem_nil nofun

/-- Add to the amount of a metric, which is listed if it was not yet. -/
def add (usage : Usage) (metric : String) (value : Int) : Usage :=
  match found : usage.deltas.get metric with
  | some delta =>
      { usage with
        deltas := usage.deltas.set metric (delta + value)
        listed := by
          intro other
          rw [usage.listed, SharedDict.get_set]
          by_cases same : other = metric
          · rw [same, found]
            simp only [↓reduceIte, Option.isSome_some]
          · simp only [same, ↓reduceIte] }
  | none =>
      { deltas := usage.deltas.set metric value
        metrics := usage.metrics ++ [metric]
        nodup := by
          apply List.Nodup.append usage.nodup (List.nodup_singleton metric)
          apply List.disjoint_singleton.mpr
          rw [usage.listed, found]
          nofun
        listed := by
          intro other
          rw [List.mem_append, List.mem_singleton, usage.listed, SharedDict.get_set]
          by_cases same : other = metric
          · simp only [same, or_true, ↓reduceIte, Option.isSome_some]
          · simp only [same, or_false, ↓reduceIte] }

/-- The amount of a metric, which is nothing for a metric that is not listed. -/
def delta (usage : Usage) (metric : String) : Int := (usage.deltas.get metric).getD 0

variable (usage : Usage) (metric other : String) (value : Int)

@[simp] theorem delta_new : new.delta metric = 0 := by
  unfold delta new
  rw [SharedDict.get_empty, Option.getD_none]

/-- An unlisted metric has no amount. -/
theorem delta_of_not_mem (unlisted : metric ∉ usage.metrics) : usage.delta metric = 0 := by
  rw [usage.listed, Option.not_isSome_iff_eq_none] at unlisted
  unfold delta
  rw [unlisted, Option.getD_none]

theorem delta_of_get {usage : Usage} {metric : String} {amount : Int}
    (present : usage.deltas.get metric = some amount) : usage.delta metric = amount := by
  unfold delta
  rw [present, Option.getD_some]

/-- Adding to a metric changes its amount alone. -/
theorem delta_add :
    (usage.add metric value).delta other =
      usage.delta other + if metric = other then value else 0 := by
  by_cases same : metric = other
  · subst same
    unfold delta add
    split <;> rename_i found
    · simp only [SharedDict.get_set_self, found, Option.getD_some, ↓reduceIte]
    · simp only [SharedDict.get_set_self, found, Option.getD_some, Option.getD_none, ↓reduceIte,
        Int.zero_add]
  · unfold delta add
    split <;>
      simp only [SharedDict.get_set_of_ne _ _ (Ne.symm same), same, ↓reduceIte, Int.add_zero]

/-- After that it is listed with the others. -/
theorem mem_metrics_add :
    other ∈ (usage.add metric value).metrics ↔ other = metric ∨ other ∈ usage.metrics := by
  unfold add
  split <;> rename_i found
  · constructor
    · exact Or.inr
    · intro either
      rcases either with same | member
      · rw [same, usage.listed, found]
        exact Option.isSome_some
      · exact member
  · rw [List.mem_append, List.mem_singleton, or_comm]

/-- Going through the listed metrics meets the amount of each exactly once. -/
theorem sum_delta :
    (usage.metrics.map fun listed => if listed = metric then usage.delta listed else 0).sum =
      usage.delta metric := by
  rw [List.sum_map_eq_nsmul_single metric _ fun listed different _ => if_neg different, if_pos rfl]
  by_cases member : metric ∈ usage.metrics
  · rw [List.count_eq_one_of_mem usage.nodup member, one_nsmul]
  · rw [delta_of_not_mem usage metric member, nsmul_zero]

/-- Add the amounts of several metrics, one after the other. -/
def addAll (usage : Usage) (pairs : List (String × Int)) : Usage :=
  pairs.foldl (fun usage pair => usage.add pair.1 pair.2) usage

/-- Amounts that are added for a metric sum up. -/
theorem delta_addAll (pairs : List (String × Int)) :
    (usage.addAll pairs).delta metric =
      usage.delta metric + (pairs.map fun pair => if pair.1 = metric then pair.2 else 0).sum := by
  induction pairs generalizing usage with
  | nil => exact (Int.add_zero _).symm
  | cons pair pairs ih =>
      have first : usage.addAll (pair :: pairs) = (usage.add pair.1 pair.2).addAll pairs := rfl
      rw [first, ih, delta_add, List.map_cons, List.sum_cons, Int.add_assoc]

theorem mem_metrics_addAll (pairs : List (String × Int)) :
    metric ∈ (usage.addAll pairs).metrics ↔
      metric ∈ usage.metrics ∨ ∃ value, (metric, value) ∈ pairs := by
  induction pairs generalizing usage with
  | nil => simp only [addAll, List.foldl_nil, List.not_mem_nil, exists_false, or_false]
  | cons pair pairs ih =>
      have first : usage.addAll (pair :: pairs) = (usage.add pair.1 pair.2).addAll pairs := rfl
      rw [first, ih, mem_metrics_add]
      constructor
      · intro either
        rcases either with (same | member) | ⟨value, member⟩
        · exact Or.inr ⟨pair.2, by rw [same]; exact List.mem_cons_self⟩
        · exact Or.inl member
        · exact Or.inr ⟨value, List.mem_cons_of_mem _ member⟩
      · intro either
        rcases either with member | ⟨value, member⟩
        · exact Or.inl (Or.inr member)
        · rcases List.mem_cons.mp member with same | later
          · exact Or.inl (Or.inl (congrArg Prod.fst same))
          · exact Or.inr ⟨value, later⟩

/-- Adding the entries of a table, in any order, gives its amounts. -/
theorem delta_addAll_pairs {table : SharedDict String Int} {pairs : List (String × Int)}
    (listed : pairs.Perm table.pairs) :
    (new.addAll pairs).delta metric = (table.get metric).getD 0 := by
  have counted : (table.pairs.map _).sum = _ :=
    SharedDict.sum_pairs fun key value => if key = metric then value else 0
  rw [delta_addAll, delta_new, Int.zero_add, (listed.map _).sum_eq, counted,
    SharedDict.total_single metric fun value => value, Option.map_id']

section Merge

/-- Remove a listed metric. -/
def removeMetric (usage : Usage) (metric : String) (_listed : metric ∈ usage.metrics) : Usage where
  deltas := usage.deltas.delete metric
  metrics := usage.metrics.erase metric
  nodup := usage.nodup.erase metric
  listed := by
    intro other
    rw [usage.nodup.mem_erase_iff, usage.listed, SharedDict.get_delete]
    by_cases same : other = metric
    · simp only [same, ne_eq, not_true_eq_false, false_and, ↓reduceIte, Option.isSome_none,
        Bool.false_eq_true]
    · simp only [same, ne_eq, not_false_eq_true, true_and, ↓reduceIte]

/-- Add the amount of one metric. A metric whose amount is not positive then is removed. -/
def mergeMetric (usage another : Usage) (metric : String) : Usage :=
  let added := usage.add metric (another.delta metric)
  if added.delta metric ≤ 0 then
    added.removeMetric metric ((usage.mem_metrics_add metric metric _).mpr (.inl rfl))
  else added

def merge (usage another : Usage) : Usage :=
  another.metrics.foldl (fun usage metric => usage.mergeMetric another metric) usage

variable (another : Usage)

theorem delta_removeMetric_of_ne {metric other : String} (listed : metric ∈ usage.metrics)
    (different : other ≠ metric) :
    (usage.removeMetric metric listed).delta other = usage.delta other := by
  unfold delta removeMetric
  rw [SharedDict.get_delete_of_ne _ different]

theorem delta_mergeMetric_of_ne {metric other : String} (different : other ≠ metric) :
    (usage.mergeMetric another metric).delta other = usage.delta other := by
  unfold mergeMetric
  dsimp only
  split
  · rw [delta_removeMetric_of_ne _ _ different, delta_add, if_neg (Ne.symm different), Int.add_zero]
  · rw [delta_add, if_neg (Ne.symm different), Int.add_zero]

/-- Merging one metric keeps it when its amount is positive, and leaves the others. -/
theorem mem_metrics_mergeMetric :
    other ∈ (usage.mergeMetric another metric).metrics ↔
      if other = metric then 0 < usage.delta metric + another.delta metric
      else other ∈ usage.metrics := by
  have amount : (usage.add metric (another.delta metric)).delta metric =
      usage.delta metric + another.delta metric := by
    rw [delta_add, if_pos rfl]
  have present : metric ∈ (usage.add metric (another.delta metric)).metrics :=
    (mem_metrics_add usage metric metric _).mpr (Or.inl rfl)
  unfold mergeMetric
  dsimp only
  rw [amount]
  by_cases positive : 0 < usage.delta metric + another.delta metric
  · rw [if_neg (by omega), mem_metrics_add]
    by_cases same : other = metric
    · simp only [same, true_or, ↓reduceIte, positive]
    · simp only [same, false_or, ↓reduceIte]
  · have removed : ((usage.add metric (another.delta metric)).removeMetric metric present).metrics =
        (usage.add metric (another.delta metric)).metrics.erase metric := rfl
    rw [if_pos (by omega), removed, (Usage.nodup _).mem_erase_iff, mem_metrics_add]
    by_cases same : other = metric
    · simp only [same, ne_eq, not_true_eq_false, false_and, ↓reduceIte, positive]
    · simp only [same, ne_eq, not_false_eq_true, false_or, true_and, ↓reduceIte]

/-- A merged metric has the sum of both amounts, and none when it is negative. -/
theorem delta_mergeMetric_self :
    (usage.mergeMetric another metric).delta metric =
      max (usage.delta metric + another.delta metric) 0 := by
  by_cases positive : 0 < usage.delta metric + another.delta metric
  · have amount : (usage.add metric (another.delta metric)).delta metric =
        usage.delta metric + another.delta metric := by
      rw [delta_add, if_pos rfl]
    unfold mergeMetric
    dsimp only
    rw [amount, if_neg (by omega), amount]
    omega
  · have removed : metric ∉ (usage.mergeMetric another metric).metrics := by
      rw [mem_metrics_mergeMetric, if_pos rfl]
      exact positive
    rw [delta_of_not_mem _ _ removed]
    omega

/-- A merge adds the amounts, and takes no amount below zero. -/
theorem delta_merge :
    (usage.merge another).delta metric =
      if metric ∈ another.metrics then max (usage.delta metric + another.delta metric) 0
      else usage.delta metric := by
  have loop (metrics : List String) (nodup : metrics.Nodup) (start : Usage) :
      (metrics.foldl (fun usage metric => usage.mergeMetric another metric) start).delta metric =
        if metric ∈ metrics then max (start.delta metric + another.delta metric) 0
        else start.delta metric := by
    induction metrics generalizing start with
    | nil => rfl
    | cons first metrics ih =>
        obtain ⟨fresh, rest⟩ := List.nodup_cons.mp nodup
        rw [List.foldl_cons, ih rest]
        by_cases same : metric = first
        · rw [same, if_neg fresh, if_pos List.mem_cons_self, delta_mergeMetric_self]
        · rw [delta_mergeMetric_of_ne start another same]
          simp only [List.mem_cons, same, false_or]
  exact loop another.metrics another.nodup usage

/-- After a merge, the metrics of the other usage are those with a positive sum. -/
theorem mem_metrics_merge :
    metric ∈ (usage.merge another).metrics ↔
      if metric ∈ another.metrics then 0 < usage.delta metric + another.delta metric
      else metric ∈ usage.metrics := by
  have loop (metrics : List String) (nodup : metrics.Nodup) (start : Usage) :
      metric ∈ (metrics.foldl (fun usage metric => usage.mergeMetric another metric)
          start).metrics ↔
        if metric ∈ metrics then 0 < start.delta metric + another.delta metric
        else metric ∈ start.metrics := by
    induction metrics generalizing start with
    | nil => rfl
    | cons first metrics ih =>
        obtain ⟨fresh, rest⟩ := List.nodup_cons.mp nodup
        rw [List.foldl_cons, ih rest]
        by_cases same : metric = first
        · rw [same, if_neg fresh, if_pos List.mem_cons_self, mem_metrics_mergeMetric, if_pos rfl]
        · rw [delta_mergeMetric_of_ne start another same, mem_metrics_mergeMetric, if_neg same]
          simp only [List.mem_cons, same, false_or]
  exact loop another.metrics another.nodup usage

end Merge

section Same

/-- A metric is listed with an amount exactly when it has this amount. -/
theorem mem_amounts (usage : Usage) (metric : String) (amount : Int) :
    (metric, amount) ∈ usage.metrics.map (fun metric => (metric, usage.delta metric)) ↔
      usage.deltas.get metric = some amount := by
  rw [List.mem_map]
  constructor
  · intro listed
    obtain ⟨other, member, same⟩ := listed
    obtain ⟨rfl, amounts⟩ := Prod.mk.inj same
    obtain ⟨stored, present⟩ := Option.isSome_iff_exists.mp ((usage.listed other).mp member)
    rw [← amounts, delta_of_get present]
    exact present
  · intro present
    refine ⟨metric, (usage.listed metric).mpr ?_, ?_⟩
    · rw [present]
      rfl
    · rw [delta_of_get present]

/-- The usages give every metric the same amount, or none. -/
def Same (first second : Usage) : Prop :=
  ∀ metric, first.deltas.get metric = second.deltas.get metric

namespace Same

variable {first second : Usage}

theorem symm (same : first.Same second) : second.Same first := fun metric => (same metric).symm

theorem mem_metrics (same : first.Same second) (metric : String) :
    metric ∈ first.metrics ↔ metric ∈ second.metrics := by
  rw [first.listed, second.listed, same metric]

/-- The metrics are the same, in some order. -/
theorem perm (same : first.Same second) : first.metrics.Perm second.metrics :=
  (List.perm_ext_iff_of_nodup first.nodup second.nodup).mpr same.mem_metrics

theorem delta (same : first.Same second) (metric : String) :
    first.delta metric = second.delta metric := by
  unfold Usage.delta
  rw [same metric]

end Same

/-- It is enough to compare the metrics that are listed. -/
theorem same_iff {first second : Usage} :
    first.Same second ↔ ∀ metric ∈ first.metrics ++ second.metrics,
      first.deltas.get metric = second.deltas.get metric := by
  constructor
  · exact fun same metric _ => same metric
  · intro listed metric
    by_cases member : metric ∈ first.metrics ++ second.metrics
    · exact listed metric member
    · obtain ⟨firstUnlisted, secondUnlisted⟩ := not_or.mp (List.mem_append.not.mp member)
      rw [first.listed, Option.not_isSome_iff_eq_none] at firstUnlisted
      rw [second.listed, Option.not_isSome_iff_eq_none] at secondUnlisted
      rw [firstUnlisted, secondUnlisted]

instance (first second : Usage) : Decidable (first.Same second) :=
  decidable_of_iff _ same_iff.symm

end Same

end Usage

end Apicast
