import Apicast.Batcher.ReportsBatch
import Apicast.Foundation.Marker
import Apicast.Foundation.Number
import Mathlib.Data.List.Sort
import Mathlib.Data.String.Basic

/-!
# The keys of cached authorizations

The key of an authorization spells out the service, the credentials and the usage of a
transaction. The usage is written in the order of its metrics, so that it does not matter
in which order they were added. Two transactions have the same key only when their
values could be taken for the words and marks between the values.
-/

namespace Apicast.Batcher

open Foundation

section Keys

def metricsPartInKey (usage : Usage) : String :=
  let metrics := usage.metrics.insertionSort (· ≤ ·)
  "metrics:" ++ Delimited.joinAll ';'
    (metrics.map fun metric => metric ++ "=" ++ Number.tostring (usage.delta metric))

/-- Absent credentials are formatted as `nil`. -/
def keyForCachedAuth (transaction : Transaction) : String :=
  "service_id:" ++ transaction.serviceId ++ "," ++
    (credsPartInKey transaction.credentials).getD "nil" ++ "," ++
      metricsPartInKey transaction.usage

end Keys

/-- The same service, credentials and usage. -/
structure Transaction.Same (first second : Transaction) : Prop where
  serviceId : first.serviceId = second.serviceId
  credentials : first.credentials = second.credentials
  usage : first.usage.Same second.usage

theorem Transaction.same_iff {first second : Transaction} :
    first.Same second ↔ first.serviceId = second.serviceId ∧
      first.credentials = second.credentials ∧ first.usage.Same second.usage :=
  ⟨fun same => ⟨same.serviceId, same.credentials, same.usage⟩,
    fun ⟨serviceId, credentials, usage⟩ => ⟨serviceId, credentials, usage⟩⟩

instance (first second : Transaction) : Decidable (first.Same second) :=
  decidable_of_iff _ Transaction.same_iff.symm

/-- The order in which the metrics of a usage were added does not show in its key. -/
theorem metricsPartInKey_eq {first second : Usage} (same : first.Same second) :
    metricsPartInKey first = metricsPartInKey second := by
  have sorted : first.metrics.insertionSort (· ≤ ·) = second.metrics.insertionSort (· ≤ ·) := by
    apply List.Perm.eq_of_pairwise' (List.pairwise_insertionSort _ _)
      (List.pairwise_insertionSort _ _)
    exact ((List.perm_insertionSort _ _).trans same.perm).trans (List.perm_insertionSort _ _).symm
  unfold metricsPartInKey
  rw [sorted]
  simp only [same.delta]

/-- Equal transactions have the same key. -/
theorem keyForCachedAuth_eq {first second : Transaction} (same : first.Same second) :
    keyForCachedAuth first = keyForCachedAuth second := by
  unfold keyForCachedAuth
  rw [same.serviceId, same.credentials, metricsPartInKey_eq same.usage]

section Credentials

/-- The credentials that a transaction can have. -/
inductive Credentials.Supported : Credentials → Prop
  | userKey (userKey : String) : Supported { userKey := some userKey }
  | accessToken (accessToken : String) : Supported { accessToken := some accessToken }
  | appId (appId : String) : Supported { appId := some appId }
  | appKey (appId appKey : String) : Supported { appId := some appId, appKey := some appKey }

/-- The word that starts the credentials part, after its comma. -/
def credsMarker : CredentialsType → Marker
  | .userKey => ⟨',', "user_key:", by decide⟩
  | .appId => ⟨',', "app_id:", by decide⟩
  | .accessToken => ⟨',', "access_token:", by decide⟩

def appKeyMarker : Marker := ⟨',', "app_key:", by decide⟩

def metricsMarker : Marker := ⟨',', "metrics:", by decide⟩

def Credentials.type : Credentials → CredentialsType
  | { userKey := some _, .. } => .userKey
  | { accessToken := some _, .. } => .accessToken
  | _ => .appId

/-- The values of the credentials as they are written after their word. -/
def Credentials.written : Credentials → String
  | { userKey := some userKey, .. } => userKey
  | { accessToken := some accessToken, .. } => accessToken
  | { appId := some appId, appKey := some appKey, .. } => appKeyMarker.join appId appKey
  | { appId, .. } => appId.getD ""

variable {creds other : Credentials}

theorem Credentials.Supported.credsPartInKey_eq (supported : creds.Supported) :
    credsPartInKey creds = some ((credsMarker creds.type).name ++ creds.written) := by
  cases supported with
  | userKey userKey => rfl
  | accessToken accessToken => rfl
  | appId appId => rfl
  | appKey appId appKey =>
      have mark : ",app_key:" = String.singleton ',' ++ "app_key:" := by decide
      change some ("app_id:" ++ appId ++ ",app_key:" ++ appKey) =
        some ("app_id:" ++ (appId ++ (String.singleton ',' ++ ("app_key:" ++ appKey))))
      rw [mark]
      simp only [String.append_assoc]

/-- The words of the credentials differ in their first two letters. -/
theorem credsMarker_injective {type another : CredentialsType} {rest remaining : String}
    (equal : (credsMarker type).name ++ rest = (credsMarker another).name ++ remaining) :
    type = another := by
  have taken (type : CredentialsType) (rest : String) :
      ((credsMarker type).name.toList ++ rest.toList).take 2 =
        (credsMarker type).name.toList.take 2 := by
    apply List.take_append_of_le_length
    cases type <;> decide
  have letters := congrArg (fun text => text.toList.take 2) equal
  simp only [String.toList_append, taken] at letters
  revert letters
  cases type <;> cases another <;> decide

/-- The identifier of an application cannot be taken for one with a key. -/
def Credentials.Plain (creds : Credentials) : Prop := ∀ appId ∈ creds.appId, appKeyMarker.Free appId

/-- Credentials can be read back from what is written of them. -/
theorem Credentials.Supported.eq_of_written (supported : creds.Supported)
    (otherSupported : other.Supported) (plain : creds.Plain) (otherPlain : other.Plain)
    (types : creds.type = other.type) (equal : creds.written = other.written) : creds = other := by
  cases supported with
  | userKey userKey =>
      cases otherSupported with
      | userKey other =>
          have same : userKey = other := equal
          rw [same]
      | accessToken | appId | appKey => cases types
  | accessToken accessToken =>
      cases otherSupported with
      | accessToken other =>
          have same : accessToken = other := equal
          rw [same]
      | userKey | appId | appKey => cases types
  | appId appId =>
      have free : appKeyMarker.Free appId := plain appId rfl
      cases otherSupported with
      | appId other =>
          have same : appId = other := equal
          rw [same]
      | appKey otherId otherKey =>
          have same : appId = appKeyMarker.join otherId otherKey := equal
          rw [same] at free
          exact absurd free Marker.not_free_join
      | userKey | accessToken => cases types
  | appKey appId appKey =>
      have free : appKeyMarker.Free appId := plain appId rfl
      cases otherSupported with
      | appId other =>
          have same : appKeyMarker.join appId appKey = other := equal
          have otherFree : appKeyMarker.Free other := otherPlain other rfl
          rw [← same] at otherFree
          exact absurd otherFree Marker.not_free_join
      | appKey otherId otherKey =>
          have same : appKeyMarker.join appId appKey = appKeyMarker.join otherId otherKey := equal
          obtain ⟨ids, keys⟩ := Marker.join_self_inj free (otherPlain otherId rfl) same
          rw [ids, keys]
      | userKey | accessToken => cases types

end Credentials

section Metrics

/-- The end of the amount of a metric, when another metric follows. -/
def deltaMarker (delta : Int) (exact : Number.Exact delta) : Marker where
  delimiter := '='
  name := Number.tostring delta ++ ";"
  fresh := by
    intro member
    rw [String.toList_append, List.mem_append] at member
    rcases member with digit | last
    · exact Number.free_tostring exact (by decide) (by decide) digit
    · revert last
      decide

/-- The name of a metric does not look like a name with an amount and the next name. -/
def PlainMetric (metric : String) : Prop :=
  ∀ delta exact, (deltaMarker delta exact).Free metric

theorem plainMetric_of_free {metric : String} (free : Delimited.Free ';' metric) :
    PlainMetric metric := by
  intro delta exact occurs
  apply free
  apply occurs.subset
  unfold deltaMarker
  rw [String.toList_append]
  exact List.mem_cons_of_mem _ (List.mem_append_right _ List.mem_cons_self)

/-- Amounts written one after the other, each with a mark at its end. -/
def writtenDeltas (deltas : List (String × Int)) : String :=
  deltas.foldr (fun pair rest =>
    Delimited.join '=' pair.1 (Delimited.join ';' (Number.tostring pair.2) rest)) ""

/-- The amounts can be read back. -/
theorem writtenDeltas_injective {deltas others : List (String × Int)}
    (plain : ∀ pair ∈ deltas, PlainMetric pair.1 ∧ Number.Exact pair.2)
    (otherPlain : ∀ pair ∈ others, PlainMetric pair.1 ∧ Number.Exact pair.2)
    (equal : writtenDeltas deltas = writtenDeltas others) : deltas = others := by
  induction deltas generalizing others with
  | nil =>
      cases others with
      | nil => rfl
      | cons other others => exact absurd equal.symm (Delimited.join_ne_empty _ _ _)
  | cons pair deltas ih =>
      cases others with
      | nil => exact absurd equal (Delimited.join_ne_empty _ _ _)
      | cons other others =>
          obtain ⟨metric, exact⟩ := plain pair List.mem_cons_self
          obtain ⟨otherMetric, otherExact⟩ := otherPlain other List.mem_cons_self
          have marked (pair : String × Int) (exact : Number.Exact pair.2)
              (deltas : List (String × Int)) : writtenDeltas (pair :: deltas) =
                (deltaMarker pair.2 exact).join pair.1 (writtenDeltas deltas) := by
            unfold Marker.join deltaMarker
            dsimp only
            rw [String.append_assoc]
            rfl
          rw [marked pair exact, marked other otherExact] at equal
          have delimiters : (deltaMarker pair.2 exact).delimiter =
              (deltaMarker other.2 otherExact).delimiter := rfl
          obtain ⟨names, rests⟩ :=
            Marker.join_inj delimiters (metric _ otherExact) (otherMetric _ exact) equal
          have joined : Delimited.join ';' (Number.tostring pair.2) (writtenDeltas deltas) =
              Delimited.join ';' (Number.tostring other.2) (writtenDeltas others) := by
            unfold Delimited.join
            unfold deltaMarker at rests
            dsimp only at rests
            rw [String.append_assoc, String.append_assoc] at rests
            exact rests
          have free {value : Int} (exact : Number.Exact value) :
              Delimited.Free ';' (Number.tostring value) :=
            Number.free_tostring exact (by decide) (by decide)
          obtain ⟨amounts, tails⟩ := (Delimited.join_inj (free exact) (free otherExact)).mp joined
          have same := Number.tostring_injective exact otherExact amounts
          rw [Prod.ext names same,
            ih (fun pair member => plain pair (List.mem_cons_of_mem _ member))
            (fun pair member => otherPlain pair (List.mem_cons_of_mem _ member)) tails]

/-- The amounts of a usage in the order of their metrics. -/
def sortedDeltas (usage : Usage) : List (String × Int) :=
  (usage.metrics.insertionSort (· ≤ ·)).map fun metric => (metric, usage.delta metric)

theorem metricsPartInKey_eq_sortedDeltas (usage : Usage) :
    metricsPartInKey usage = "metrics:" ++ Delimited.joinAll ';'
      ((sortedDeltas usage).map fun pair => pair.1 ++ "=" ++ Number.tostring pair.2) := by
  unfold metricsPartInKey sortedDeltas
  rw [List.map_map]
  rfl

/-- The amounts of a usage that is not empty, with a mark at the end. -/
theorem joinAll_deltas {deltas : List (String × Int)} (nonempty : deltas ≠ []) :
    Delimited.joinAll ';' (deltas.map fun pair => pair.1 ++ "=" ++ Number.tostring pair.2) ++ ";" =
      writtenDeltas deltas := by
  have written (pair : String × Int) (rest : String) :
      Delimited.join '=' pair.1 (Delimited.join ';' (Number.tostring pair.2) rest) =
        pair.1 ++ "=" ++ Number.tostring pair.2 ++ (";" ++ rest) := by
    unfold Delimited.join
    simp only [String.append_assoc]
    rfl
  induction deltas with
  | nil => exact absurd rfl nonempty
  | cons pair deltas ih =>
      cases deltas with
      | nil =>
          have last := written pair ""
          rw [String.append_empty] at last
          exact last.symm
      | cons next deltas =>
          have rest := ih (List.cons_ne_nil _ _)
          change Delimited.join ';' _ _ ++ ";" =
            Delimited.join '=' pair.1 (Delimited.join ';' _ (writtenDeltas (next :: deltas)))
          rw [← rest, written]
          unfold Delimited.join
          simp only [String.append_assoc]
          rfl

theorem same_of_sortedDeltas {first second : Usage}
    (equal : sortedDeltas first = sortedDeltas second) : first.Same second := by
  have members (usage : Usage) (metric : String) (amount : Int) :
      (metric, amount) ∈ sortedDeltas usage ↔ usage.deltas.get metric = some amount := by
    rw [← usage.mem_amounts]
    exact ((List.perm_insertionSort _ _).map _).mem_iff
  intro metric
  apply Option.ext
  intro amount
  rw [← members, ← members, equal]

/-- The names of the metrics are plain and their amounts are exact. -/
def PlainUsage (usage : Usage) : Prop :=
  ∀ metric ∈ usage.metrics, PlainMetric metric ∧ Number.Exact (usage.delta metric)

/-- A plain usage can be read back from its part of the key. -/
theorem same_of_metricsPartInKey {first second : Usage} (plain : PlainUsage first)
    (otherPlain : PlainUsage second) (equal : metricsPartInKey first = metricsPartInKey second) :
    first.Same second := by
  have pairs {usage : Usage} (plain : PlainUsage usage) :
      ∀ pair ∈ sortedDeltas usage, PlainMetric pair.1 ∧ Number.Exact pair.2 := by
    intro pair member
    obtain ⟨metric, listed, rfl⟩ := List.mem_map.mp member
    exact plain metric ((List.mem_insertionSort _).mp listed)
  have filled {deltas : List (String × Int)} (nonempty : deltas ≠ []) : Delimited.joinAll ';'
      (deltas.map fun pair => pair.1 ++ "=" ++ Number.tostring pair.2) ≠ "" := by
    apply Delimited.joinAll_ne_empty
    · exact fun none => nonempty (List.map_eq_nil_iff.mp none)
    · intro field member
      obtain ⟨pair, _, rfl⟩ := List.mem_map.mp member
      rw [String.append_assoc]
      exact Delimited.join_ne_empty '=' pair.1 (Number.tostring pair.2)
  rw [metricsPartInKey_eq_sortedDeltas, metricsPartInKey_eq_sortedDeltas] at equal
  have joined := String.append_right_inj "metrics:" |>.mp equal
  apply same_of_sortedDeltas
  by_cases firstEmpty : sortedDeltas first = []
  · by_contra different
    have secondFilled : sortedDeltas second ≠ [] := fun empty =>
      different (firstEmpty.trans empty.symm)
    apply filled secondFilled
    rw [← joined, firstEmpty]
    rfl
  · have secondFilled : sortedDeltas second ≠ [] := by
      intro empty
      apply filled firstEmpty
      rw [joined, empty]
      rfl
    apply writtenDeltas_injective (pairs plain) (pairs otherPlain)
    rw [← joinAll_deltas firstEmpty, ← joinAll_deltas secondFilled, joined]

end Metrics

/-- No value of the transaction contains the words and marks that follow it in a key, and
its amounts are written with all of their digits. -/
structure Transaction.Plain (transaction : Transaction) : Prop where
  serviceId : ∀ type, (credsMarker type).Free transaction.serviceId
  credentials : transaction.credentials.Plain
  written : metricsMarker.Free transaction.credentials.written
  usage : PlainUsage transaction.usage

/-- Plain transactions have the same key only when they are the same. -/
theorem same_of_keyForCachedAuth {first second : Transaction}
    (supported : first.credentials.Supported) (otherSupported : second.credentials.Supported)
    (plain : first.Plain) (otherPlain : second.Plain)
    (equal : keyForCachedAuth first = keyForCachedAuth second) : first.Same second := by
  have marked {transaction : Transaction} (supported : transaction.credentials.Supported) :
      keyForCachedAuth transaction = "service_id:" ++
        (credsMarker transaction.credentials.type).join transaction.serviceId
          (metricsMarker.join transaction.credentials.written
            (Delimited.joinAll ';' ((sortedDeltas transaction.usage).map
              fun pair => pair.1 ++ "=" ++ Number.tostring pair.2))) := by
    have comma (type : CredentialsType) :
        String.singleton (credsMarker type).delimiter = "," := by
      cases type <;> decide
    unfold keyForCachedAuth Marker.join Delimited.join
    rw [supported.credsPartInKey_eq, metricsPartInKey_eq_sortedDeltas, Option.getD_some, comma]
    simp only [String.append_assoc]
    rfl
  rw [marked supported, marked otherSupported] at equal
  have delimiters : (credsMarker first.credentials.type).delimiter =
      (credsMarker second.credentials.type).delimiter := by
    cases first.credentials.type <;> cases second.credentials.type <;> rfl
  obtain ⟨services, rests⟩ := Marker.join_inj delimiters (plain.serviceId _)
    (otherPlain.serviceId _) (String.append_right_inj "service_id:" |>.mp equal)
  have types := credsMarker_injective rests
  rw [types] at rests
  obtain ⟨written, usages⟩ := Marker.join_self_inj plain.written otherPlain.written
    (String.append_right_inj _ |>.mp rests)
  refine ⟨services, ?_, ?_⟩
  · exact supported.eq_of_written otherSupported plain.credentials otherPlain.credentials types
      written
  · apply same_of_metricsPartInKey plain.usage otherPlain.usage
    rw [metricsPartInKey_eq_sortedDeltas, metricsPartInKey_eq_sortedDeltas, usages]

end Apicast.Batcher
