import Apicast.Foundation.TransitionSystem
import Apicast.UsageFormat

/-!
# The tables of a usage

`usage.lua` keeps the amounts of a usage in one table and the metrics that have an amount in
another. Calls of any usages in any order keep the two together as long as every removed metric
is a metric of the usage: `table.remove` without a position removes the last element.
-/

namespace Apicast

open Foundation

/-- `table.remove`; the position is absent when nothing was found to remove. -/
def tableRemove {Value : Type*} (list : List Value) (position : Option Nat) : List Value :=
  match position with
  | some position => list.eraseIdx position
  | none => list.dropLast

structure UsageTable where
  deltas : SharedDict String Int
  metrics : List String

namespace UsageTable

def new : UsageTable := ⟨∅, []⟩

def add (self : UsageTable) (metric : String) (value : Int) : UsageTable :=
  match self.deltas.get metric with
  | some delta => { self with deltas := self.deltas.set metric (delta + value) }
  | none => ⟨self.deltas.set metric value, self.metrics ++ [metric]⟩

def removeMetric (self : UsageTable) (metric : String) : UsageTable where
  deltas := self.deltas.delete metric
  metrics := tableRemove self.metrics (self.metrics.idxOf? metric)

/-- One round of the loop of `merge`, which raises an error when there is no amount to add. -/
def mergeMetric (self : UsageTable) (metric : String) (delta : Option Int) : Option UsageTable :=
  delta.map fun delta =>
    let added := self.add metric delta
    if (added.deltas.get metric).getD 0 ≤ 0 then added.removeMetric metric else added

def merge (self anotherUsage : UsageTable) : Option UsageTable :=
  anotherUsage.metrics.foldlM (fun self metric =>
    self.mergeMetric metric (anotherUsage.deltas.get metric)) self

/-- The loop of `merge` of a usage into itself, which goes through the list that it changes. -/
def mergeSelfFrom (self : UsageTable) (index : Nat) : Nat → Option UsageTable
  | 0 => some self
  | rounds + 1 =>
      match self.metrics[index]? with
      | none => some self
      | some metric => (self.mergeMetric metric (self.deltas.get metric)).bind fun merged =>
          merged.mergeSelfFrom (index + 1) rounds

/-- The list does not grow in the loop, so that its length bounds the rounds. -/
def mergeSelf (self : UsageTable) : Option UsageTable := self.mergeSelfFrom 0 self.metrics.length

/-- The entries of the formatted table, in the order in which they are set. -/
def format (self : UsageTable) : List (String × Int) :=
  self.metrics.filterMap fun metric =>
    (self.deltas.get metric).map fun delta => (Usage.parameter metric, delta)

def encodedFormat (self : UsageTable) : String :=
  Delimited.joinAll '&' ((self.format.insertionSort fun first second => first.1 ≤ second.1).map
    Usage.encodedParameter)

/-- The list has every metric once and each of them has an amount, which is what no call
changes. -/
structure Sound (table : UsageTable) : Prop where
  nodup : table.metrics.Nodup
  present : ∀ metric ∈ table.metrics, (table.deltas.get metric).isSome

/-- The list has every metric once, and exactly the metrics that have an amount. -/
structure WellFormed (table : UsageTable) : Prop where
  nodup : table.metrics.Nodup
  listed : ∀ metric, metric ∈ table.metrics ↔ (table.deltas.get metric).isSome

section Removal

variable {Value : Type*} [DecidableEq Value] {list : List Value} {value : Value}

theorem tableRemove_of_mem (member : value ∈ list) :
    tableRemove list (list.idxOf? value) = list.erase value := by
  rw [List.erase_eq_eraseIdx]
  cases found : list.idxOf? value with
  | none => exact absurd member (List.idxOf?_eq_none_iff.mp found)
  | some position => rfl

/-- Removing a value that is not found removes the last one instead. -/
theorem tableRemove_of_not_mem (absent : value ∉ list) :
    tableRemove list (list.idxOf? value) = list.dropLast := by
  rw [List.idxOf?_eq_none_iff.mpr absent]
  rfl

omit [DecidableEq Value] in
theorem tableRemove_sublist (position : Option Nat) : (tableRemove list position).Sublist list := by
  cases position with
  | none => exact List.dropLast_sublist list
  | some position => exact List.eraseIdx_sublist list position

end Removal

variable {self another : UsageTable} {metric : String}

theorem add_of_get_eq_some {delta value : Int} (found : self.deltas.get metric = some delta) :
    self.add metric value = ⟨self.deltas.set metric (delta + value), self.metrics⟩ := by
  unfold UsageTable.add
  rw [found]

theorem add_of_get_eq_none {value : Int} (absent : self.deltas.get metric = none) :
    self.add metric value = ⟨self.deltas.set metric value, self.metrics ++ [metric]⟩ := by
  unfold UsageTable.add
  rw [absent]

theorem Sound.new : new.Sound := ⟨List.nodup_nil, List.forall_mem_nil _⟩

theorem WellFormed.new : new.WellFormed where
  nodup := List.nodup_nil
  listed := by
    intro metric
    change metric ∈ [] ↔ ((∅ : SharedDict String Int).get metric).isSome
    rw [SharedDict.get_empty]
    exact iff_of_false List.not_mem_nil Bool.false_ne_true

theorem WellFormed.sound (wellFormed : self.WellFormed) : self.Sound :=
  ⟨wellFormed.nodup, fun metric member => (wellFormed.listed metric).mp member⟩

/-- Adding keeps the list in step with the amounts. -/
theorem Sound.add (sound : self.Sound) (value : Int) : (self.add metric value).Sound := by
  unfold UsageTable.add
  split
  · refine ⟨sound.nodup, ?_⟩
    intro other member
    rw [SharedDict.get_set]
    split
    · rfl
    · exact sound.present other member
  · rename_i absent
    have unlisted : metric ∉ self.metrics := by
      intro member
      have present := sound.present metric member
      rw [absent] at present
      cases present
    refine ⟨sound.nodup.append (List.nodup_singleton metric)
      (List.disjoint_singleton.mpr unlisted), ?_⟩
    intro other member
    rw [SharedDict.get_set]
    rcases List.mem_append.mp member with before | last
    · split
      · rfl
      · exact sound.present other before
    · rw [if_pos (List.mem_singleton.mp last)]
      rfl

/-- Removing leaves no metric in the list without an amount: an unlisted metric is not the one
whose amount is dropped from the list. -/
theorem Sound.removeMetric (sound : self.Sound) : (self.removeMetric metric).Sound := by
  refine ⟨sound.nodup.sublist (tableRemove_sublist _), ?_⟩
  intro other member
  have listed : other ∈ self.metrics := (tableRemove_sublist _).subset member
  have different : other ≠ metric := by
    intro same
    subst same
    change other ∈ tableRemove self.metrics (self.metrics.idxOf? other) at member
    rw [tableRemove_of_mem listed] at member
    exact sound.nodup.not_mem_erase member
  change ((self.deltas.delete metric).get other).isSome
  rw [SharedDict.get_delete_of_ne _ different]
  exact sound.present other listed

/-- So does a round of a merge. -/
theorem Sound.mergeMetric (sound : self.Sound) {delta : Option Int} {merged : UsageTable}
    (result : self.mergeMetric metric delta = some merged) : merged.Sound := by
  obtain ⟨amount, _, rfl⟩ := Option.map_eq_some_iff.mp result
  dsimp only
  split
  · exact (sound.add amount).removeMetric
  · exact sound.add amount

/-- Adding a metric lists it exactly when it had no amount before. -/
theorem WellFormed.add (wellFormed : self.WellFormed) (value : Int) :
    (self.add metric value).WellFormed := by
  refine ⟨(wellFormed.sound.add value).nodup, ?_⟩
  intro other
  unfold UsageTable.add
  split
  · rename_i delta found
    rw [wellFormed.listed, SharedDict.get_set]
    by_cases same : other = metric
    · rw [if_pos same, same, found]
      exact iff_of_true rfl rfl
    · rw [if_neg same]
  · rw [List.mem_append, List.mem_singleton, wellFormed.listed, SharedDict.get_set]
    by_cases same : other = metric
    · rw [if_pos same]
      exact iff_of_true (.inr same) rfl
    · rw [if_neg same, or_iff_left same]

/-- Removing a metric that is listed removes it from both tables. -/
theorem WellFormed.removeMetric (wellFormed : self.WellFormed) (member : metric ∈ self.metrics) :
    (self.removeMetric metric).WellFormed := by
  refine ⟨wellFormed.sound.removeMetric.nodup, ?_⟩
  intro other
  change other ∈ tableRemove self.metrics (self.metrics.idxOf? metric) ↔
    ((self.deltas.delete metric).get other).isSome
  rw [tableRemove_of_mem member, wellFormed.nodup.mem_erase_iff, wellFormed.listed,
    SharedDict.get_delete]
  by_cases same : other = metric
  · rw [if_pos same]
    exact iff_of_false (fun both => both.1 same) Bool.false_ne_true
  · rw [if_neg same, and_iff_right same]

/-- Removing an unlisted metric drops the last metric from the list and keeps its amount. -/
theorem WellFormed.removeMetric_iff (wellFormed : self.WellFormed) :
    (self.removeMetric metric).WellFormed ↔ metric ∈ self.metrics ∨ self.metrics = [] := by
  constructor
  · intro kept
    by_contra neither
    obtain ⟨absent, nonempty⟩ := not_or.mp neither
    have removed : (self.removeMetric metric).metrics = self.metrics.dropLast :=
      tableRemove_of_not_mem absent
    have last : self.metrics.getLast nonempty ∈ self.metrics := List.getLast_mem nonempty
    have different : self.metrics.getLast nonempty ≠ metric := fun same => absent (same ▸ last)
    have stays : self.metrics.getLast nonempty ∈ (self.removeMetric metric).metrics := by
      rw [kept.listed]
      change ((self.deltas.delete metric).get _).isSome
      rw [SharedDict.get_delete_of_ne _ different]
      exact (wellFormed.listed _).mp last
    rw [removed] at stays
    have twice := wellFormed.nodup
    rw [← List.dropLast_append_getLast nonempty] at twice
    exact (List.nodup_append.mp twice).2.2 _ stays _ (List.mem_singleton_self _) rfl
  · rintro (member | empty)
    · exact wellFormed.removeMetric member
    · have nothing : ∀ other, self.deltas.get other = none := by
        intro other
        rw [← Option.not_isSome_iff_eq_none, ← wellFormed.listed, empty]
        exact List.not_mem_nil
      have removed : (self.removeMetric metric).metrics = [] := by
        change tableRemove self.metrics (self.metrics.idxOf? metric) = []
        rw [empty]
        rfl
      refine ⟨?_, ?_⟩
      · rw [removed]
        exact List.nodup_nil
      · intro other
        rw [removed]
        change other ∈ [] ↔ ((self.deltas.delete metric).get other).isSome
        rw [SharedDict.get_delete, nothing, ite_self]
        exact iff_of_false List.not_mem_nil Bool.false_ne_true

/-- A metric is listed after adding to it, unless it had an amount without being listed. -/
theorem mem_metrics_add (value : Int) : metric ∈ (self.add metric value).metrics ↔
    (self.deltas.get metric).isSome → metric ∈ self.metrics := by
  unfold UsageTable.add
  split
  · rename_i delta found
    rw [found]
    exact ⟨fun member _ => member, fun listed => listed rfl⟩
  · rename_i absent
    rw [absent]
    exact iff_of_true (List.mem_append_right _ (List.mem_singleton_self _))
      fun listed => absurd listed Bool.false_ne_true

/-- A round of a merge only removes the metric that it has added, which is listed. -/
theorem WellFormed.mergeMetric (wellFormed : self.WellFormed) {delta : Option Int}
    {merged : UsageTable} (result : self.mergeMetric metric delta = some merged) :
    merged.WellFormed := by
  obtain ⟨amount, _, rfl⟩ := Option.map_eq_some_iff.mp result
  dsimp only
  split
  · apply (wellFormed.add amount).removeMetric
    exact (mem_metrics_add amount).mpr (wellFormed.listed metric).mpr
  · exact wellFormed.add amount

section Merge

variable {holds : UsageTable → Prop}

/-- What every round keeps, a merge keeps, and it raises no error. -/
theorem exists_merge (keeps : ∀ table metric delta merged, holds table →
      UsageTable.mergeMetric table metric delta = some merged → holds merged)
    (start : holds self) (sound : another.Sound) :
    ∃ merged, self.merge another = some merged ∧ holds merged := by
  have loop (metrics : List String)
      (present : ∀ metric ∈ metrics, (another.deltas.get metric).isSome)
      (table : UsageTable) (held : holds table) :
      ∃ merged, (metrics.foldlM (fun self metric =>
        self.mergeMetric metric (another.deltas.get metric)) table) = some merged ∧
          holds merged := by
    induction metrics generalizing table with
    | nil => exact ⟨table, rfl, held⟩
    | cons metric metrics ih =>
        obtain ⟨delta, found⟩ := Option.isSome_iff_exists.mp (present metric List.mem_cons_self)
        rw [List.foldlM_cons, found]
        exact ih (fun other member => present other (List.mem_cons_of_mem _ member)) _
          (keeps table metric (some delta) _ held rfl)
  exact loop another.metrics sound.present self start

/-- The same for a merge of a usage into itself, which finds an amount for every metric of the
list that it changes. -/
theorem exists_mergeSelf (sound : ∀ table, holds table → table.Sound)
    (keeps : ∀ table metric delta merged, holds table →
      UsageTable.mergeMetric table metric delta = some merged → holds merged)
    (start : holds self) : ∃ merged, self.mergeSelf = some merged ∧ holds merged := by
  have loop (rounds index : Nat) (table : UsageTable) (held : holds table) :
      ∃ merged, table.mergeSelfFrom index rounds = some merged ∧ holds merged := by
    induction rounds generalizing table index with
    | zero => exact ⟨table, rfl, held⟩
    | succ rounds ih =>
        unfold mergeSelfFrom
        cases listed : table.metrics[index]? with
        | none => exact ⟨table, rfl, held⟩
        | some metric =>
            have present := (sound table held).present metric (List.mem_of_getElem? listed)
            obtain ⟨delta, found⟩ := Option.isSome_iff_exists.mp present
            dsimp only
            rw [found]
            exact ih _ _ (keeps table metric (some delta) _ held rfl)
  exact loop self.metrics.length 0 self start

end Merge

section Calls

/-- A call of a method of a usage, where usages are told apart by numbers. -/
inductive Call
  | add (usage : Nat) (metric : String) (value : Int)
  | merge (usage anotherUsage : Nat)
  | removeMetric (usage : Nat) (metric : String)
  deriving DecidableEq, Repr

/-- The usages of a worker. -/
abbrev Usages := Nat → UsageTable

def next (usages : Usages) : Call → Option Usages
  | .add usage metric value =>
      some (Function.update usages usage ((usages usage).add metric value))
  | .merge usage anotherUsage =>
      (if usage = anotherUsage then (usages usage).mergeSelf
        else (usages usage).merge (usages anotherUsage)).map (Function.update usages usage)
  | .removeMetric usage metric =>
      some (Function.update usages usage ((usages usage).removeMetric metric))

/-- Every usage starts without metrics. -/
def machine : Machine Usages Call where
  initial := fun _ => .new
  next := next

/-- Only metrics of the usage are removed, or any metric from a usage without metrics. -/
def Removes (usages : Usages) : Call → Prop
  | .removeMetric usage metric =>
      metric ∈ (usages usage).metrics ∨ (usages usage).metrics = []
  | _ => True

instance (usages : Usages) (call : Call) : Decidable (Removes usages call) := by
  cases call <;> unfold Removes <;> infer_instance

variable {usages after : Usages} {call : Call}

private theorem forall_update {holds : UsageTable → Prop} {usage : Nat} {table : UsageTable}
    (before : ∀ other, holds (usages other)) :
    (∀ other, holds (Function.update usages usage table other)) ↔ holds table := by
  constructor
  · intro updated
    have own := updated usage
    rwa [Function.update_self] at own
  · intro held other
    by_cases same : other = usage
    · rw [same, Function.update_self]
      exact held
    · rw [Function.update_of_ne same]
      exact before other

private theorem exists_merged {holds : UsageTable → Prop}
    (sound : ∀ table, holds table → table.Sound)
    (keeps : ∀ table metric delta merged, holds table →
      UsageTable.mergeMetric table metric delta = some merged → holds merged)
    (before : ∀ usage, holds (usages usage)) (usage anotherUsage : Nat) :
    ∃ merged, next usages (.merge usage anotherUsage) =
      some (Function.update usages usage merged) ∧ holds merged := by
  unfold next
  dsimp only
  by_cases same : usage = anotherUsage
  · obtain ⟨merged, result, held⟩ := exists_mergeSelf sound keeps (before usage)
    rw [if_pos same, result]
    exact ⟨merged, rfl, held⟩
  · obtain ⟨merged, result, held⟩ :=
      exists_merge keeps (before usage) (sound _ (before anotherUsage))
    rw [if_neg same, result]
    exact ⟨merged, rfl, held⟩

/-- No call raises an error. -/
theorem exists_next (sound : ∀ usage, (usages usage).Sound) (call : Call) :
    ∃ after, next usages call = some after ∧ ∀ usage, (after usage).Sound := by
  cases call with
  | add usage metric value =>
      exact ⟨_, rfl, (forall_update sound).mpr ((sound usage).add value)⟩
  | merge usage anotherUsage =>
      obtain ⟨merged, result, held⟩ := exists_merged (fun _ held => held)
        (fun _ _ _ _ held => held.mergeMetric) sound usage anotherUsage
      exact ⟨_, result, (forall_update sound).mpr held⟩
  | removeMetric usage metric =>
      exact ⟨_, rfl, (forall_update sound).mpr (sound usage).removeMetric⟩

/-- No call raises an error, in whatever order. -/
theorem exists_run (sound : ∀ usage, (usages usage).Sound) (calls : List Call) :
    ∃ after, machine.run usages calls = some after := by
  induction calls generalizing usages with
  | nil => exact ⟨usages, rfl⟩
  | cons call calls ih =>
      obtain ⟨middle, stepped, held⟩ := exists_next sound call
      obtain ⟨after, rest⟩ := ih held
      exact ⟨after, (Machine.run_cons stepped).trans rest⟩

/-- A call keeps all usages well formed exactly when it removes no metric that is not there. -/
theorem wellFormed_next_iff (wellFormed : ∀ usage, (usages usage).WellFormed)
    (stepped : next usages call = some after) :
    (∀ usage, (after usage).WellFormed) ↔ Removes usages call := by
  cases call with
  | add usage metric value =>
      cases stepped
      exact iff_of_true ((forall_update wellFormed).mpr ((wellFormed usage).add value)) trivial
  | merge usage anotherUsage =>
      obtain ⟨merged, result, held⟩ := exists_merged (fun _ held => held.sound)
        (fun _ _ _ _ held => held.mergeMetric) wellFormed usage anotherUsage
      rw [result] at stepped
      cases stepped
      exact iff_of_true ((forall_update wellFormed).mpr held) trivial
  | removeMetric usage metric =>
      cases stepped
      exact (forall_update wellFormed).trans (wellFormed usage).removeMetric_iff

/-- The usages are well formed all along a sequence of calls. -/
def AlwaysWellFormed (calls : List Call) : Prop :=
  ∀ count usages, machine.run machine.initial (calls.take count) = some usages →
    ∀ usage, (usages usage).WellFormed

theorem alwaysWellFormed_iff (calls : List Call) :
    AlwaysWellFormed calls ↔ (machine.runWithin Removes machine.initial calls).isSome := by
  have start : ∀ usage, (machine.initial usage).WellFormed := fun _ => .new
  obtain ⟨after, executed⟩ := exists_run (fun usage => (start usage).sound) calls
  have exact : AlwaysWellFormed calls ↔
      machine.runWithin Removes machine.initial calls = some after :=
    Machine.always_iff_runWithin (fun _ _ _ => wellFormed_next_iff) start executed
  rw [exact]
  constructor
  · intro within
    rw [within]
    rfl
  · intro some
    obtain ⟨other, within⟩ := Option.isSome_iff_exists.mp some
    rw [within, ← executed]
    exact (Machine.run_of_runWithin within).symm

end Calls

section Refinement

def ofUsage (usage : Usage) : UsageTable := ⟨usage.deltas, usage.metrics⟩

/-- Well-formed tables are usages. -/
def WellFormed.usage {table : UsageTable} (wellFormed : table.WellFormed) : Usage where
  deltas := table.deltas
  metrics := table.metrics
  nodup := wellFormed.nodup
  listed := wellFormed.listed

variable (usage anotherUsage : Usage)

/-- The tables of a usage after adding are the tables of the usage after adding. -/
theorem ofUsage_add (value : Int) :
    ofUsage (usage.add metric value) = (ofUsage usage).add metric value := by
  unfold Usage.add
  split
  · rename_i delta found
    have stored : (ofUsage usage).deltas.get metric = some delta := found
    rw [add_of_get_eq_some stored]
    rfl
  · rename_i absent
    have missing : (ofUsage usage).deltas.get metric = none := absent
    rw [add_of_get_eq_none missing]
    rfl

/-- Removing a metric that is listed does to the tables what it does to the usage. -/
theorem ofUsage_removeMetric (listed : metric ∈ usage.metrics) :
    ofUsage (usage.removeMetric metric listed) = (ofUsage usage).removeMetric metric := by
  unfold ofUsage UsageTable.removeMetric
  rw [tableRemove_of_mem listed]
  rfl

/-- Merging usages is merging their tables. -/
theorem merge_ofUsage : (ofUsage usage).merge (ofUsage anotherUsage) =
    some (ofUsage (usage.merge anotherUsage)) := by
  have round (start : Usage) (metric : String) (listed : metric ∈ anotherUsage.metrics) :
      (ofUsage start).mergeMetric metric (anotherUsage.deltas.get metric) =
        some (ofUsage (start.mergeMetric anotherUsage metric)) := by
    have found : anotherUsage.deltas.get metric = some (anotherUsage.delta metric) := by
      obtain ⟨delta, found⟩ := Option.isSome_iff_exists.mp ((anotherUsage.listed metric).mp listed)
      rw [Usage.delta_of_get found, found]
    unfold UsageTable.mergeMetric Usage.mergeMetric
    rw [found, Option.map_some, ← ofUsage_add]
    dsimp only
    change some (if (start.add metric (anotherUsage.delta metric)).delta metric ≤ 0 then _ else _) =
      _
    split
    · rw [ofUsage_removeMetric]
    · rfl
  have loop (metrics : List String) (listed : ∀ metric ∈ metrics, metric ∈ anotherUsage.metrics)
      (start : Usage) :
      (metrics.foldlM (fun self metric =>
        UsageTable.mergeMetric self metric (anotherUsage.deltas.get metric)) (ofUsage start)) =
          some (ofUsage (metrics.foldl (fun usage metric =>
            usage.mergeMetric anotherUsage metric) start)) := by
    induction metrics generalizing start with
    | nil => rfl
    | cons metric metrics ih =>
        rw [List.foldlM_cons, round start metric (listed metric List.mem_cons_self)]
        exact ih (fun other member => listed other (List.mem_cons_of_mem _ member)) _
  exact loop anotherUsage.metrics (fun _ member => member) usage

theorem format_ofUsage : (ofUsage usage).format = usage.format := by
  unfold format Usage.format
  rw [← List.filterMap_eq_map]
  apply List.filterMap_congr
  intro metric member
  obtain ⟨delta, found⟩ := Option.isSome_iff_exists.mp ((usage.listed metric).mp member)
  change (usage.deltas.get metric).map _ = some (Usage.parameter metric, usage.delta metric)
  rw [found, Usage.delta_of_get found]
  rfl

theorem encodedFormat_ofUsage : (ofUsage usage).encodedFormat = usage.encodedFormat := by
  unfold encodedFormat
  rw [format_ofUsage]
  rfl

end Refinement

/-- Well-formed usages with the same amounts are formatted and encoded in the same way. -/
theorem WellFormed.format_eq (wellFormed : self.WellFormed) (other : another.WellFormed)
    (same : ∀ metric, self.deltas.get metric = another.deltas.get metric) :
    self.format.Perm another.format ∧ self.encodedFormat = another.encodedFormat := by
  have amounts : wellFormed.usage.Same other.usage := same
  have alike : wellFormed.usage.WrittenAlike other.usage := fun metric =>
    congrArg _ (amounts metric)
  constructor
  · have formatted : wellFormed.usage.format.Perm other.usage.format := by
      unfold Usage.format
      simp only [amounts.delta]
      exact amounts.perm.map _
    rwa [← format_ofUsage, ← format_ofUsage] at formatted
  · have encoded := Usage.encodedFormat_eq_iff.mpr alike
    rwa [← encodedFormat_ofUsage, ← encodedFormat_ofUsage] at encoded

/-- For every sequence of calls the metrics are the ones with an amount, each of them once, in
every state that is reached, exactly when only metrics of the usage are removed (or any from a
usage without metrics); then usages with the same amounts, however they were built, are formatted
and encoded in the same way. -/
theorem representation_invariant (calls : List Call) :
    (AlwaysWellFormed calls ↔ (machine.runWithin Removes machine.initial calls).isSome) ∧
    ∀ first second : Usages, machine.ReachableWithin Removes first →
      machine.ReachableWithin Removes second → ∀ usage anotherUsage,
        (∀ metric, (first usage).deltas.get metric = (second anotherUsage).deltas.get metric) →
          (first usage).format.Perm (second anotherUsage).format ∧
          (first usage).encodedFormat = (second anotherUsage).encodedFormat := by
  have kept : machine.InvariantWithin Removes fun usages => ∀ usage, (usages usage).WellFormed :=
    { initial := fun _ => .new
      step := fun _ _ _ wellFormed removes stepped =>
        (wellFormed_next_iff wellFormed stepped).mpr removes }
  refine ⟨alwaysWellFormed_iff calls, ?_⟩
  intro first second firstReached secondReached usage anotherUsage same
  exact (kept.of_reachable firstReached usage).format_eq
    (kept.of_reachable secondReached anotherUsage) same

/-- A metric that is not there is removed from a usage with another one: the list becomes empty,
and the usage is encoded as nothing, unlike one with the same amount. -/
theorem representation_broken :
    ∃ usages, machine.run machine.initial
        [.add 0 "hits" 1, .removeMetric 0 "other", .add 1 "hits" 1] = some usages ∧
      ¬ (usages 0).WellFormed ∧ (usages 0).deltas = (usages 1).deltas ∧
      (usages 0).encodedFormat ≠ (usages 1).encodedFormat := by
  refine ⟨_, rfl, ?_, rfl, by decide⟩
  intro wellFormed
  have listed := (wellFormed.listed "hits").mpr rfl
  exact List.not_mem_nil listed

end UsageTable

end Apicast
