import Apicast.Batcher.ReportsBatch
import Apicast.Foundation.UriEscape
import Mathlib.Data.Fintype.Option

/-!
# The body of a report request

A batch of reports is posted as one flat table: the credentials are numbered in the order in
which the batch is gone through, and the fields of each are kept apart by its number. The body
does not show how the batch was gone through, but it determines what is reported.
-/

namespace Apicast.Batcher

open Foundation

section Keys

/-- The name of a type of credentials in a format; a batch without reports has none. -/
def typeName : Option CredentialsType → String
  | some .userKey => "user_key"
  | some .appId => "app_id"
  | some .accessToken => "access_token"
  | none => "nil"

/-- The key of the credential of a transaction. -/
def indexWithCred (index : Nat) (credType : Option CredentialsType) : String :=
  "transactions[" ++ index.repr ++ "][" ++ typeName credType ++ "]"

/-- The key of the usage of a metric in a transaction. -/
def indexWithMetric (index : Nat) (metric : String) : String :=
  "transactions[" ++ index.repr ++ "][usage][" ++ metric ++ "]"

/-- Both kinds of keys name a number and a field. -/
private def fieldKey (index : Nat) (field : String) : String :=
  "transactions[" ++ index.repr ++ "][" ++ field ++ "]"

private theorem fieldKey_inj {first second : Nat} {field other : String}
    (same : fieldKey first field = fieldKey second other) : first = second ∧ field = other := by
  have tail (index : Nat) (field : String) : fieldKey index field =
      "transactions[" ++ Delimited.join ']' (index : Int).repr ("[" ++ field ++ "]") := by
    apply String.toList_inj.mp
    unfold fieldKey
    simp only [String.toList_append, Delimited.toList_join, List.append_assoc]
    rfl
  have free (index : Nat) : Delimited.Free ']' (index : Int).repr :=
    Delimited.free_decimal _ rfl (by decide)
  rw [tail, tail, String.append_right_inj, Delimited.join_inj (free _) (free _)] at same
  obtain ⟨indices, fields⟩ := same
  rw [String.append_left_inj, String.append_right_inj] at fields
  exact ⟨Int.ofNat_inj.mp (Delimited.decimal_injective indices), fields⟩

private theorem indexWithMetric_eq (index : Nat) (metric : String) :
    indexWithMetric index metric = fieldKey index ("usage][" ++ metric) := by
  apply String.toList_inj.mp
  unfold indexWithMetric fieldKey
  simp only [String.toList_append, List.append_assoc]
  rfl

private theorem typeName_injective : ∀ type other : Option CredentialsType,
    typeName type = typeName other → type = other := by decide

theorem indexWithCred_inj {first second : Nat} {type other : Option CredentialsType}
    (same : indexWithCred first type = indexWithCred second other) :
    first = second ∧ type = other := by
  obtain ⟨indices, names⟩ := fieldKey_inj same
  exact ⟨indices, typeName_injective _ _ names⟩

theorem indexWithMetric_inj {first second : Nat} {metric other : String}
    (same : indexWithMetric first metric = indexWithMetric second other) :
    first = second ∧ metric = other := by
  rw [indexWithMetric_eq, indexWithMetric_eq] at same
  obtain ⟨indices, fields⟩ := fieldKey_inj same
  exact ⟨indices, (String.append_right_inj _).mp fields⟩

private theorem typeName_prefix : ∀ type : Option CredentialsType,
    (typeName type).toList.take 3 ≠ ['u', 's', 'a'] := by decide

/-- No metric has the key of a credential. -/
theorem indexWithCred_ne (first second : Nat) (type : Option CredentialsType) (metric : String) :
    indexWithCred first type ≠ indexWithMetric second metric := by
  intro same
  rw [indexWithMetric_eq] at same
  have names := congrArg (fun name => name.toList.take 3) (fieldKey_inj same).2
  rw [String.toList_append] at names
  exact typeName_prefix type names

end Keys

section Orders

/-- What the reports of one credential come to when they are gone through. -/
abbrev Metrics := List (String × Int)

/-- An order in which a table of reports is gone through, each credential once and with each
of its metrics once. -/
structure ReportTable.Traversal (reports : ReportTable) where
  listed : List (String × Metrics)
  once : (listed.map Prod.fst).Nodup
  sound : ∀ credential metrics, (credential, metrics) ∈ listed →
    ∃ table, reports.get credential = some table ∧ metrics.Perm table.pairs
  complete : ∀ credential table, reports.get credential = some table →
    ∃ metrics, (credential, metrics) ∈ listed

/-- The order of the entries. -/
def ReportTable.inOrder (reports : ReportTable) : reports.Traversal where
  listed := reports.pairs.map fun (credential, table) => (credential, table.pairs)
  once := by
    rw [List.map_map]
    exact reports.nodup_pairs
  sound credential metrics member := by
    obtain ⟨⟨_, table⟩, stored, same⟩ := List.mem_map.mp member
    obtain ⟨rfl, rfl⟩ := Prod.mk.inj same
    exact ⟨table, SharedDict.mem_pairs.mp stored, List.Perm.refl _⟩
  complete credential table stored :=
    ⟨table.pairs, List.mem_map.mpr ⟨(credential, table), SharedDict.mem_pairs.mpr stored, rfl⟩⟩

namespace ReportTable.Traversal

variable {reports : ReportTable} (order : reports.Traversal) {credential metric : String}
  {metrics : Metrics} {value : Int}

include order in
/-- The entries are what is come to. -/
theorem entry_iff : reports.entry credential metric = some value ↔
    ∃ metrics, (credential, metrics) ∈ order.listed ∧ (metric, value) ∈ metrics := by
  unfold entry
  constructor
  · intro found
    obtain ⟨table, stored, inTable⟩ := Option.bind_eq_some_iff.mp found
    obtain ⟨metrics, listed⟩ := order.complete credential table stored
    obtain ⟨_, same, visited⟩ := order.sound credential metrics listed
    cases stored.symm.trans same
    exact ⟨metrics, listed, visited.mem_iff.mpr (SharedDict.mem_pairs.mpr inTable)⟩
  · intro ⟨metrics, listed, member⟩
    obtain ⟨table, stored, visited⟩ := order.sound credential metrics listed
    rw [stored, Option.bind_some]
    exact SharedDict.mem_pairs.mp (visited.mem_iff.mp member)

theorem nodup_metrics (listed : (credential, metrics) ∈ order.listed) :
    (metrics.map Prod.fst).Nodup := by
  obtain ⟨table, _, visited⟩ := order.sound credential metrics listed
  exact (visited.map Prod.fst).nodup_iff.mpr table.nodup_pairs

end ReportTable.Traversal

end Orders

section Transactions

/-- A value of the table that is posted. -/
inductive Field
  | credential (text : String)
  | value (amount : Int)
  deriving DecidableEq, Repr

/-- The table that is posted. -/
abbrev Fields := SharedDict String Field

def addTransaction (transactions : Fields) (index : Nat) (credType : Option CredentialsType)
    (cred : String) (reports : Metrics) : Fields :=
  reports.foldl
    (fun transactions (metric, value) =>
      transactions.set (indexWithMetric index metric) (.value value))
    (transactions.set (indexWithCred index credType) (.credential cred))

/-- The loop of `format_transactions`. -/
def addTransactions (credentialsType : Option CredentialsType) :
    Fields → Nat → List (String × Metrics) → Fields
  | res, _, [] => res
  | res, transactionIndex, (credential, metrics) :: reports =>
      addTransactions credentialsType
        (addTransaction res transactionIndex credentialsType credential metrics)
        (transactionIndex + 1) reports

def formatTransactions (batch : ReportsBatch) (order : batch.reports.Traversal) : Fields :=
  addTransactions batch.credentialsType ∅ 0 order.listed

/-- What is written for the transaction of one credential. -/
private def transactionFields (index : Nat) (type : Option CredentialsType) (credential : String)
    (metrics : Metrics) : List (String × Field) :=
  (indexWithCred index type, .credential credential) ::
    metrics.map fun (metric, value) => (indexWithMetric index metric, .value value)

/-- What is written for the transactions from an index on. -/
private def fieldsFrom (type : Option CredentialsType) :
    Nat → List (String × Metrics) → List (String × Field)
  | _, [] => []
  | index, (credential, metrics) :: reports =>
      transactionFields index type credential metrics ++ fieldsFrom type (index + 1) reports

private theorem addTransaction_eq (transactions : Fields) (index : Nat)
    (type : Option CredentialsType) (credential : String) (metrics : Metrics) :
    addTransaction transactions index type credential metrics =
      transactions.setAll (transactionFields index type credential metrics) := by
  unfold addTransaction transactionFields
  rw [SharedDict.setAll_cons]
  unfold SharedDict.setAll
  rw [List.foldl_map]

private theorem addTransactions_eq (type : Option CredentialsType) (transactions : Fields)
    (index : Nat) (reports : List (String × Metrics)) :
    addTransactions type transactions index reports =
      transactions.setAll (fieldsFrom type index reports) := by
  induction reports generalizing transactions index with
  | nil => rfl
  | cons report reports ih =>
      unfold addTransactions fieldsFrom
      rw [ih, addTransaction_eq, SharedDict.setAll_append]

variable {type : Option CredentialsType} {start : Nat} {reports : List (String × Metrics)}
  {key : String} {field : Field}

/-- What is written for one credential: itself and its metrics, under its index. -/
private theorem mem_transactionFields {index : Nat} {credential : String} {metrics : Metrics} :
    (key, field) ∈ transactionFields index type credential metrics ↔
      key = indexWithCred index type ∧ field = .credential credential ∨
        ∃ metric value, (metric, value) ∈ metrics ∧ key = indexWithMetric index metric ∧
          field = .value value := by
  unfold transactionFields
  rw [List.mem_cons, Prod.mk.injEq, List.mem_map]
  apply or_congr_right
  constructor
  · intro ⟨⟨metric, value⟩, member, same⟩
    obtain ⟨rfl, rfl⟩ := Prod.mk.inj same
    exact ⟨metric, value, member, rfl, rfl⟩
  · intro ⟨metric, value, member, sameKey, sameField⟩
    exact ⟨(metric, value), member, Prod.ext sameKey.symm sameField.symm⟩

private theorem mem_fieldsFrom :
    (key, field) ∈ fieldsFrom type start reports ↔
      ∃ offset credential metrics, reports[offset]? = some (credential, metrics) ∧
        (key, field) ∈ transactionFields (start + offset) type credential metrics := by
  induction reports generalizing start with
  | nil =>
      unfold fieldsFrom
      refine ⟨nofun, ?_⟩
      intro ⟨offset, _, _, found, _⟩
      rw [List.getElem?_nil] at found
      cases found
  | cons report reports ih =>
      obtain ⟨credential, metrics⟩ := report
      unfold fieldsFrom
      rw [List.mem_append, ih]
      constructor
      · intro written
        rcases written with here | ⟨offset, other, others, found, member⟩
        · exact ⟨0, credential, metrics, rfl, here⟩
        · refine ⟨offset + 1, other, others, found, ?_⟩
          rw [← Nat.add_assoc, Nat.add_right_comm]
          exact member
      · intro ⟨offset, other, others, found, member⟩
        cases offset with
        | zero =>
            obtain ⟨rfl, rfl⟩ := Prod.mk.inj (Option.some.inj found)
            exact Or.inl member
        | succ offset =>
            refine Or.inr ⟨offset, other, others, found, ?_⟩
            rw [Nat.add_right_comm, Nat.add_assoc]
            exact member

private theorem nodup_transactionFields {index : Nat} {credential : String} {metrics : Metrics}
    (distinct : (metrics.map Prod.fst).Nodup) :
    ((transactionFields index type credential metrics).map Prod.fst).Nodup := by
  have keys : (metrics.map fun (metric, value) =>
      (indexWithMetric index metric, Field.value value)).map Prod.fst =
        (metrics.map Prod.fst).map (indexWithMetric index) := by
    rw [List.map_map, List.map_map]
    rfl
  unfold transactionFields
  rw [List.map_cons, keys, List.nodup_cons]
  refine ⟨?_, distinct.map fun _ _ same => (indexWithMetric_inj same).2⟩
  intro member
  obtain ⟨metric, _, same⟩ := List.mem_map.mp member
  exact indexWithCred_ne _ _ _ _ same.symm

/-- The keys of different transactions are different. -/
private theorem index_of_transactionFields {first second : Nat} {credential other : String}
    {metrics others : Metrics} {otherField : Field}
    (here : (key, field) ∈ transactionFields first type credential metrics)
    (there : (key, otherField) ∈ transactionFields second type other others) : first = second := by
  rcases mem_transactionFields.mp here with ⟨rfl, _⟩ | ⟨metric, _, _, rfl, _⟩
  · rcases mem_transactionFields.mp there with ⟨same, _⟩ | ⟨_, _, _, same, _⟩
    · exact (indexWithCred_inj same).1
    · exact absurd same (indexWithCred_ne _ _ _ _)
  · rcases mem_transactionFields.mp there with ⟨same, _⟩ | ⟨_, _, _, same, _⟩
    · exact absurd same.symm (indexWithCred_ne _ _ _ _)
    · exact (indexWithMetric_inj same).1

/-- No key is written twice. -/
private theorem nodup_fieldsFrom
    (distinct : ∀ credential metrics, (credential, metrics) ∈ reports →
      (metrics.map Prod.fst).Nodup) :
    ((fieldsFrom type start reports).map Prod.fst).Nodup := by
  induction reports generalizing start with
  | nil => exact List.nodup_nil
  | cons report reports ih =>
      obtain ⟨credential, metrics⟩ := report
      unfold fieldsFrom
      rw [List.map_append, List.nodup_append']
      refine ⟨nodup_transactionFields (distinct credential metrics List.mem_cons_self),
        ih fun other others member => distinct other others (List.mem_cons_of_mem _ member), ?_⟩
      intro key here there
      obtain ⟨⟨_, field⟩, written, rfl⟩ := List.mem_map.mp here
      obtain ⟨⟨_, otherField⟩, writtenLater, rfl⟩ := List.mem_map.mp there
      obtain ⟨offset, other, others, _, member⟩ := mem_fieldsFrom.mp writtenLater
      have indices := index_of_transactionFields written member
      omega

/-- The posted table has the fields of the transactions, each under its own key, and nothing
else. -/
theorem get_formatTransactions (batch : ReportsBatch) (order : batch.reports.Traversal) :
    (formatTransactions batch order).get key = some field ↔
      ∃ index credential metrics, order.listed[index]? = some (credential, metrics) ∧
        (key = indexWithCred index batch.credentialsType ∧ field = .credential credential ∨
          ∃ metric value, (metric, value) ∈ metrics ∧ key = indexWithMetric index metric ∧
            field = .value value) := by
  unfold formatTransactions
  rw [addTransactions_eq, SharedDict.get_setAll_empty
    (nodup_fieldsFrom fun _ _ member => order.nodup_metrics member), mem_fieldsFrom]
  simp only [Nat.zero_add, mem_transactionFields]

/-- A credential of the posted table is the credential of its index. -/
theorem credential_formatTransactions {batch : ReportsBatch} {order : batch.reports.Traversal}
    {index : Nat} {credType : Option CredentialsType} {credential : String} :
    (formatTransactions batch order).get (indexWithCred index credType) =
        some (.credential credential) ↔
      credType = batch.credentialsType ∧
        ∃ metrics, order.listed[index]? = some (credential, metrics) := by
  rw [get_formatTransactions]
  constructor
  · intro ⟨other, found, metrics, listed, written⟩
    rcases written with ⟨same, named⟩ | ⟨_, _, _, same, _⟩
    · obtain ⟨rfl, rfl⟩ := indexWithCred_inj same
      cases named
      exact ⟨rfl, metrics, listed⟩
    · exact absurd same (indexWithCred_ne _ _ _ _)
  · intro ⟨same, metrics, listed⟩
    exact ⟨index, credential, metrics, listed, Or.inl ⟨same ▸ rfl, rfl⟩⟩

/-- An amount of the posted table is the amount of its metric for the credential of its index. -/
theorem value_formatTransactions {batch : ReportsBatch} {order : batch.reports.Traversal}
    {index : Nat} {metric : String} {value : Int} :
    (formatTransactions batch order).get (indexWithMetric index metric) = some (.value value) ↔
      ∃ credential metrics, order.listed[index]? = some (credential, metrics) ∧
        (metric, value) ∈ metrics := by
  rw [get_formatTransactions]
  constructor
  · intro ⟨other, credential, metrics, listed, written⟩
    rcases written with ⟨same, _⟩ | ⟨otherMetric, amount, member, same, counted⟩
    · exact absurd same.symm (indexWithCred_ne _ _ _ _)
    · obtain ⟨rfl, rfl⟩ := indexWithMetric_inj same
      cases counted
      exact ⟨credential, metrics, listed, member⟩
  · intro ⟨credential, metrics, listed, member⟩
    exact ⟨index, credential, metrics, listed, Or.inr ⟨metric, value, member, rfl, rfl⟩⟩

end Transactions

section Body

/-- The text of a value, where `tostring` prints a number. -/
def Field.text (tostring : Int → String) : Field → String
  | .credential text => text
  | .value amount => tostring amount

/-- A request that reports a batch: the orders in which the batch and the table that is posted
are gone through. -/
structure ReportsBatch.Post (batch : ReportsBatch) where
  order : batch.reports.Traversal
  fields : List (String × Field)
  listed : fields.Perm (formatTransactions batch order).pairs

/-- The body of the request, which `http_ng.serializers.urlencoded` encodes. -/
def ReportsBatch.Post.body {batch : ReportsBatch} (post : batch.Post)
    (tostring : Int → String) : String :=
  UriEscape.encodeArgs (post.fields.map fun (key, field) => (key, field.text tostring))

/-- Every amount has at most fourteen digits, so that it is printed with all of them. -/
def ReportsBatch.Printable (batch : ReportsBatch) : Prop :=
  ∀ credential metric value, batch.reports.entry credential metric = some value →
    value.natAbs < 10 ^ 14

instance (batch : ReportsBatch) : Decidable batch.Printable :=
  decidable_of_iff
    (∀ stored ∈ batch.reports.pairs, ∀ counted ∈ stored.2.pairs, counted.2.natAbs < 10 ^ 14) <| by
    constructor
    · intro small credential metric value found
      obtain ⟨table, stored, inTable⟩ := Option.bind_eq_some_iff.mp found
      exact small _ (SharedDict.mem_pairs.mpr stored) _ (SharedDict.mem_pairs.mpr inTable)
    · intro printable stored member counted inTable
      apply printable stored.1 counted.1
      unfold ReportTable.entry
      rw [SharedDict.mem_pairs.mp member, Option.bind_some]
      exact SharedDict.mem_pairs.mp inTable

variable {tostring : Int → String}

theorem ReportsBatch.Post.mem_fields {batch : ReportsBatch} (post : batch.Post) {key : String}
    {field : Field} :
    (key, field) ∈ post.fields ↔ (formatTransactions batch post.order).get key = some field := by
  rw [post.listed.mem_iff, SharedDict.mem_pairs]

/-- A field of one request is in every request with the same body, as far as its text goes. -/
private theorem exists_field {first second : ReportsBatch} {post : first.Post}
    {other : second.Post} (same : post.body tostring = other.body tostring) {key : String}
    {field : Field} (member : (key, field) ∈ post.fields) :
    ∃ otherField, (key, otherField) ∈ other.fields ∧
      otherField.text tostring = field.text tostring := by
  have texts := UriEscape.encodeArgs_injective same
  have encoded : (key, field.text tostring) ∈
      other.fields.map fun (key, field) => (key, field.text tostring) := by
    rw [← texts]
    exact List.mem_map.mpr ⟨(key, field), member, rfl⟩
  obtain ⟨⟨otherKey, otherField⟩, listed, pair⟩ := List.mem_map.mp encoded
  obtain ⟨rfl, text⟩ := Prod.mk.inj pair
  exact ⟨otherField, listed, text⟩

end Body

section Reported

variable {tostring : Int → String} {first second : ReportsBatch} {post : first.Post}
  {other : second.Post} {index : Nat} {credential metric : String} {metrics : Metrics}
  {value : Int}

/-- Requests with the same body have the same credential at each index. -/
private theorem credential_of_body (same : post.body tostring = other.body tostring)
    (listed : post.order.listed[index]? = some (credential, metrics)) :
    first.credentialsType = second.credentialsType ∧
      ∃ others, other.order.listed[index]? = some (credential, others) := by
  have posted : (indexWithCred index first.credentialsType, Field.credential credential) ∈
      post.fields :=
    post.mem_fields.mpr (credential_formatTransactions.mpr ⟨rfl, metrics, listed⟩)
  obtain ⟨field, member, text⟩ := exists_field same posted
  obtain ⟨otherIndex, named, others, otherListed, written⟩ :=
    (get_formatTransactions _ _).mp (other.mem_fields.mp member)
  rcases written with ⟨keys, rfl⟩ | ⟨_, _, _, keys, _⟩
  · obtain ⟨rfl, types⟩ := indexWithCred_inj keys
    cases text
    exact ⟨types, others, otherListed⟩
  · exact absurd keys (indexWithCred_ne _ _ _ _)

/-- Requests with the same body have the same amounts at each index. -/
private theorem value_of_body
    (printed : ∀ amount : Int, amount.natAbs < 10 ^ 14 → tostring amount = amount.repr)
    (firstPrintable : first.Printable) (secondPrintable : second.Printable)
    (same : post.body tostring = other.body tostring)
    (listed : post.order.listed[index]? = some (credential, metrics))
    (counted : (metric, value) ∈ metrics) :
    ∃ named others, other.order.listed[index]? = some (named, others) ∧
      (metric, value) ∈ others := by
  have posted : (indexWithMetric index metric, Field.value value) ∈ post.fields :=
    post.mem_fields.mpr (value_formatTransactions.mpr ⟨credential, metrics, listed, counted⟩)
  obtain ⟨field, member, text⟩ := exists_field same posted
  obtain ⟨otherIndex, named, others, otherListed, written⟩ :=
    (get_formatTransactions _ _).mp (other.mem_fields.mp member)
  rcases written with ⟨keys, _⟩ | ⟨otherMetric, amount, otherCounted, keys, rfl⟩
  · exact absurd keys.symm (indexWithCred_ne _ _ _ _)
  · obtain ⟨rfl, rfl⟩ := indexWithMetric_inj keys
    have firstEntry : first.reports.entry credential metric = some value :=
      post.order.entry_iff.mpr ⟨metrics, List.mem_of_getElem? listed, counted⟩
    have secondEntry : second.reports.entry named metric = some amount :=
      other.order.entry_iff.mpr ⟨others, List.mem_of_getElem? otherListed, otherCounted⟩
    have texts : amount.repr = value.repr := by
      rw [← printed _ (secondPrintable _ _ _ secondEntry),
        ← printed _ (firstPrintable _ _ _ firstEntry)]
      exact text
    cases Delimited.decimal_injective texts
    exact ⟨named, others, otherListed, otherCounted⟩

/-- What one request reports, every request with the same body reports. -/
private theorem entry_of_body
    (printed : ∀ amount : Int, amount.natAbs < 10 ^ 14 → tostring amount = amount.repr)
    (firstPrintable : first.Printable) (secondPrintable : second.Printable)
    (same : post.body tostring = other.body tostring)
    (found : first.reports.entry credential metric = some value) :
    second.reports.entry credential metric = some value := by
  obtain ⟨metrics, member, counted⟩ := post.order.entry_iff.mp found
  obtain ⟨index, listed⟩ := List.mem_iff_getElem?.mp member
  obtain ⟨_, others, sameCredential⟩ := credential_of_body same listed
  obtain ⟨named, theirs, otherListed, otherCounted⟩ :=
    value_of_body printed firstPrintable secondPrintable same listed counted
  cases sameCredential.symm.trans otherListed
  exact other.order.entry_iff.mpr ⟨others, List.mem_of_getElem? sameCredential, otherCounted⟩

/-- **The body of a report request determines what is reported.** Two requests with the same
body report the same amounts of the same metrics for the same credentials of the same type, in
whatever orders the batches and the posted tables were gone through. -/
theorem ReportsBatch.reports_of_body
    (printed : ∀ amount : Int, amount.natAbs < 10 ^ 14 → tostring amount = amount.repr)
    (firstPrintable : first.Printable) (secondPrintable : second.Printable)
    (same : post.body tostring = other.body tostring) :
    (∀ credential metric,
      first.reports.entry credential metric = second.reports.entry credential metric) ∧
      ((∃ credential, (first.reports.get credential).isSome) →
        first.credentialsType = second.credentialsType) := by
  refine ⟨fun credential metric => ?_, ?_⟩
  · apply Option.ext
    intro value
    exact ⟨entry_of_body printed firstPrintable secondPrintable same,
      entry_of_body printed secondPrintable firstPrintable same.symm⟩
  · intro ⟨credential, present⟩
    obtain ⟨table, stored⟩ := Option.isSome_iff_exists.mp present
    obtain ⟨metrics, member⟩ := post.order.complete credential table stored
    obtain ⟨index, listed⟩ := List.mem_iff_getElem?.mp member
    exact (credential_of_body same listed).1

/-- A batch of two applications, the first of which has two metrics, in two orders. -/
private def twoApplications (first second : String × Int) : ReportsBatch where
  serviceId := "service"
  credentialsType := some .appId
  reports := ((ReportTable.addValue ∅ "app" first.1 first.2).addValue "app" second.1
    second.2).addValue "other" "hits" 3

/-- Both batches are posted with the same body, and both applications have the same reports. -/
theorem ReportsBatch.reports_of_body_two_applications :
    (twoApplications ("hits", 2) ("errors", 1)).reports.entry "app" "hits" =
        (twoApplications ("errors", 1) ("hits", 2)).reports.entry "app" "hits" ∧
      (twoApplications ("hits", 2) ("errors", 1)).reports.entry "other" "hits" =
        (twoApplications ("errors", 1) ("hits", 2)).reports.entry "other" "hits" := by
  let earlier := twoApplications ("hits", 2) ("errors", 1)
  let later := twoApplications ("errors", 1) ("hits", 2)
  let post : earlier.Post := ⟨earlier.reports.inOrder, _, List.Perm.refl _⟩
  let other : later.Post := ⟨later.reports.inOrder, post.fields, by decide +kernel⟩
  have reported := @ReportsBatch.reports_of_body Int.repr earlier later post other
    (fun _ _ => rfl) (by decide +kernel) (by decide +kernel) rfl
  exact ⟨reported.1 "app" "hits", reported.1 "other" "hits"⟩

end Reported

end Apicast.Batcher
