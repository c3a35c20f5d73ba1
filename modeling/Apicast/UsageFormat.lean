import Apicast.Foundation.Number
import Apicast.Foundation.UriEscape
import Apicast.Usage
import Mathlib.Data.List.Sort

/-!
# The encoded form of a usage

A usage is encoded as the query parameters `usage[metric]=delta`, sorted by their
names. The encoded form is empty only for a usage without metrics, and the amounts
as they are written can be read back from it.
-/

namespace Apicast

open Foundation

namespace Usage

/-- The parameter of a metric. -/
def parameter (metric : String) : String := "usage[" ++ metric ++ "]"

def format (usage : Usage) : List (String × Int) :=
  usage.metrics.map fun metric => (parameter metric, usage.delta metric)

/-- A parameter as it is encoded. -/
def encodedParameter (pair : String × Int) : String :=
  Delimited.join '=' (UriEscape.escapeUri pair.1) (UriEscape.escapeUri (Number.tostring pair.2))

def sortedFormat (usage : Usage) : List (String × Int) :=
  usage.format.insertionSort fun first second => first.1 ≤ second.1

def encodedFormat (usage : Usage) : String :=
  Delimited.joinAll '&' (usage.sortedFormat.map encodedParameter)

/-- The parameters with their amounts as they are written. -/
def writtenFormat (usage : Usage) : List (String × String) :=
  usage.sortedFormat.map fun pair => (pair.1, Number.tostring pair.2)

theorem encodedFormat_eq_encodeArgs (usage : Usage) :
    usage.encodedFormat = UriEscape.encodeArgs usage.writtenFormat := by
  unfold encodedFormat UriEscape.encodeArgs writtenFormat
  rw [List.map_map]
  rfl

theorem parameter_injective {metric other : String} (same : parameter metric = parameter other) :
    metric = other := by
  have letters := congrArg String.toList same
  unfold parameter at letters
  simp only [String.toList_append] at letters
  exact String.toList_inj.mp (List.append_cancel_left (List.append_cancel_right letters))

/-- The parameters are those of the metrics, with their amounts. -/
theorem mem_sortedFormat (usage : Usage) (pair : String × Int) :
    pair ∈ usage.sortedFormat ↔
      ∃ metric, pair.1 = parameter metric ∧ usage.deltas.get metric = some pair.2 := by
  unfold sortedFormat format
  rw [List.mem_insertionSort, List.mem_map]
  constructor
  · rintro ⟨metric, listed, rfl⟩
    refine ⟨metric, rfl, ?_⟩
    rw [← usage.mem_amounts]
    exact List.mem_map_of_mem listed
  · rintro ⟨metric, name, present⟩
    refine ⟨metric, (usage.listed metric).mpr ?_, Prod.ext name.symm ?_⟩
    · rw [present]
      rfl
    · rw [delta_of_get present]

/-- The amounts are the same when they are written. -/
def WrittenAlike (first second : Usage) : Prop :=
  ∀ metric, (first.deltas.get metric).map Number.tostring =
    (second.deltas.get metric).map Number.tostring

/-- A metric is written with its amount. -/
theorem mem_writtenFormat (usage : Usage) (metric : String) (text : String) :
    (parameter metric, text) ∈ usage.writtenFormat ↔
      (usage.deltas.get metric).map Number.tostring = some text := by
  unfold writtenFormat
  rw [List.mem_map, Option.map_eq_some_iff]
  constructor
  · rintro ⟨pair, listed, same⟩
    obtain ⟨name, written⟩ := Prod.mk.inj same
    obtain ⟨other, own, present⟩ := (mem_sortedFormat usage pair).mp listed
    obtain rfl := parameter_injective (own.symm.trans name)
    exact ⟨pair.2, present, written⟩
  · rintro ⟨amount, present, written⟩
    refine ⟨(parameter metric, amount), ?_, by rw [written]⟩
    exact (mem_sortedFormat usage _).mpr ⟨metric, rfl, present⟩

theorem sortedFormat_eq_nil (usage : Usage) : usage.sortedFormat = [] ↔ usage.metrics = [] := by
  have lengths : usage.sortedFormat.length = usage.metrics.length := by
    unfold sortedFormat format
    rw [List.length_insertionSort, List.length_map]
  rw [← List.length_eq_zero_iff, lengths, List.length_eq_zero_iff]

/-- A usage without metrics is encoded as nothing, and only such a usage is. -/
theorem encodedFormat_eq_empty (usage : Usage) :
    usage.encodedFormat = "" ↔ usage.metrics = [] := by
  rw [encodedFormat_eq_encodeArgs, UriEscape.encodeArgs_eq_empty, ← usage.sortedFormat_eq_nil]
  exact List.map_eq_nil_iff

/-- Every parameter is written once. -/
theorem nodup_writtenFormat (usage : Usage) : usage.writtenFormat.Nodup := by
  have names : (usage.writtenFormat.map Prod.fst).Perm (usage.metrics.map parameter) := by
    have formatted : usage.format.map Prod.fst = usage.metrics.map parameter := by
      unfold format
      rw [List.map_map]
      rfl
    unfold writtenFormat sortedFormat
    rw [List.map_map, ← formatted]
    exact (List.perm_insertionSort _ _).map _
  apply List.Nodup.of_map Prod.fst
  exact names.nodup_iff.mpr (usage.nodup.map fun _ _ => parameter_injective)

theorem exists_parameter {usage : Usage} {pair : String × String}
    (listed : pair ∈ usage.writtenFormat) : ∃ metric text, pair = (parameter metric, text) := by
  obtain ⟨written, member, rfl⟩ := List.mem_map.mp listed
  obtain ⟨metric, name, _⟩ := (mem_sortedFormat usage written).mp member
  exact ⟨metric, _, Prod.ext name rfl⟩

/-- Amounts that are written alike make the same list. -/
theorem WrittenAlike.writtenFormat_eq {first second : Usage} (alike : first.WrittenAlike second) :
    first.writtenFormat = second.writtenFormat := by
  have sorted (usage : Usage) :
      usage.writtenFormat.Pairwise fun first second => first.1 ≤ second.1 :=
    (List.pairwise_insertionSort _ _).map _ fun _ _ ordered => ordered
  have members (metric text : String) : (parameter metric, text) ∈ first.writtenFormat ↔
      (parameter metric, text) ∈ second.writtenFormat := by
    rw [mem_writtenFormat, mem_writtenFormat, alike metric]
  apply List.Perm.eq_of_pairwise _ (sorted first) (sorted second)
  · apply (List.perm_ext_iff_of_nodup (nodup_writtenFormat first) (nodup_writtenFormat second)).mpr
    intro pair
    constructor
    · intro listed
      obtain ⟨metric, text, rfl⟩ := exists_parameter listed
      exact (members metric text).mp listed
    · intro listed
      obtain ⟨metric, text, rfl⟩ := exists_parameter listed
      exact (members metric text).mpr listed
  · intro pair other listed otherListed lower upper
    have names : pair.1 = other.1 := String.le_antisymm lower upper
    obtain ⟨metric, text, rfl⟩ := exists_parameter listed
    obtain ⟨otherMetric, otherText, rfl⟩ := exists_parameter otherListed
    obtain rfl := parameter_injective names
    rw [← members, mem_writtenFormat] at otherListed
    rw [mem_writtenFormat, otherListed] at listed
    rw [Option.some.inj listed]

/-- Usages are encoded alike exactly when their amounts are written alike. -/
theorem encodedFormat_eq_iff {first second : Usage} :
    first.encodedFormat = second.encodedFormat ↔ first.WrittenAlike second := by
  rw [encodedFormat_eq_encodeArgs, encodedFormat_eq_encodeArgs]
  constructor
  · intro equal metric
    have same := UriEscape.encodeArgs_injective equal
    apply Option.ext
    intro text
    rw [← mem_writtenFormat, ← mem_writtenFormat, same]
  · intro alike
    rw [alike.writtenFormat_eq]

end Usage

end Apicast
