import Apicast.Batcher.KeysHelper
import Apicast.Usage

/-!
# Batches of reports

The reports handed out for a service are grouped by credential and metric before
they are sent, and a batch that could not be sent is turned back into
transactions, one for each credential.
-/

namespace Apicast.Batcher

open Foundation

/-- What usage is counted for: one metric of one reporting identity of a service. -/
structure Account where
  service : String
  identity : String
  metric : String
  deriving DecidableEq, Repr

section Reports

/-- The report counts for an account. -/
def Report.CountsFor (report : Report) (account : Account) : Prop :=
  report.serviceId = account.service ∧ report.credentials.identity = some account.identity ∧
    report.metric = account.metric

instance (report : Report) (account : Account) : Decidable (report.CountsFor account) :=
  inferInstanceAs (Decidable (_ ∧ _ ∧ _))

/-- What a report counts for an account. -/
def Report.amount (account : Account) (report : Report) : Int :=
  if report.CountsFor account then report.value else 0

/-- What a list of reports counts for an account. -/
def reportsAmount (account : Account) (reports : List Report) : Int :=
  (reports.map (Report.amount account)).sum

end Reports

section Transactions

/-- What is reported of one call. -/
structure Transaction where
  serviceId : String
  credentials : Credentials
  usage : Usage

/-- The report of one metric of a transaction. -/
def Transaction.report (transaction : Transaction) (metric : String) : Report where
  serviceId := transaction.serviceId
  metric := metric
  credentials := transaction.credentials
  value := transaction.usage.delta metric

/-- What a transaction counts for an account. -/
def Transaction.amount (account : Account) (transaction : Transaction) : Int :=
  if transaction.serviceId = account.service ∧
      transaction.credentials.identity = some account.identity then
    transaction.usage.delta account.metric
  else 0

/-- The reports of all metrics of a transaction count what the transaction counts. -/
theorem Transaction.reportsAmount_report (transaction : Transaction) (account : Account) :
    reportsAmount account (transaction.usage.metrics.map transaction.report) =
      transaction.amount account := by
  unfold reportsAmount amount
  rw [List.map_map]
  by_cases own : transaction.serviceId = account.service ∧
      transaction.credentials.identity = some account.identity
  · rw [if_pos own, ← transaction.usage.sum_delta account.metric]
    apply congrArg List.sum
    apply List.map_congr_left
    intro metric _
    have counts : (transaction.report metric).CountsFor account ↔ metric = account.metric :=
      ⟨fun counts => counts.2.2, fun same => ⟨own.1, own.2, same⟩⟩
    change (if (transaction.report metric).CountsFor account then _ else 0) = _
    simp only [counts]
    rfl
  · rw [if_neg own]
    apply List.sum_eq_zero
    intro share member
    obtain ⟨metric, _, rfl⟩ := List.mem_map.mp member
    exact if_neg fun counts => own ⟨counts.1, counts.2.1⟩

end Transactions

section Tables

/-- Amounts by credential and metric. -/
abbrev ReportTable := SharedDict String (SharedDict String Int)

namespace ReportTable

def addValue (reports : ReportTable) (credential metric : String) (value : Int) : ReportTable :=
  let metrics := (reports.get credential).getD ∅
  reports.set credential (metrics.set metric ((metrics.get metric).getD 0 + value))

/-- The entry of a credential and a metric. -/
def entry (reports : ReportTable) (credential metric : String) : Option Int :=
  (reports.get credential).bind (·.get metric)

variable (reports : ReportTable) (credential metric other otherMetric : String) (value : Int)

@[simp] theorem entry_empty : entry ∅ credential metric = none := by
  unfold entry
  rw [SharedDict.get_empty, Option.bind_none]

theorem entry_addValue :
    (reports.addValue credential metric value).entry other otherMetric =
      if other = credential ∧ otherMetric = metric then
        some ((reports.entry credential metric).getD 0 + value)
      else reports.entry other otherMetric := by
  unfold entry addValue
  by_cases same : other = credential
  · subst same
    rw [SharedDict.get_set_self, Option.bind_some, SharedDict.get_set]
    by_cases sameMetric : otherMetric = metric
    · subst sameMetric
      simp only [and_self, ↓reduceIte]
      cases reports.get other with
      | none => rw [Option.getD_none, SharedDict.get_empty, Option.bind_none]
      | some metrics => rw [Option.getD_some, Option.bind_some]
    · simp only [sameMetric, and_false, ↓reduceIte]
      cases reports.get other with
      | none => rw [Option.getD_none, SharedDict.get_empty, Option.bind_none]
      | some metrics => rw [Option.getD_some, Option.bind_some]
  · simp only [SharedDict.get_set_of_ne _ _ same, same, false_and, ↓reduceIte]

/-- Adding a value raises the amount of its entry by it and no other amount. -/
theorem getD_entry_addValue :
    ((reports.addValue credential metric value).entry other otherMetric).getD 0 =
      (reports.entry other otherMetric).getD 0 +
        if other = credential ∧ otherMetric = metric then value else 0 := by
  rw [entry_addValue]
  by_cases same : other = credential ∧ otherMetric = metric
  · obtain ⟨rfl, rfl⟩ := same
    simp only [and_self, ↓reduceIte, Option.getD_some]
  · simp only [same, ↓reduceIte, Int.add_zero]

/-- Going on to the next credential leaves the entries of the others. -/
theorem entry_delete :
    entry (reports.delete credential) other otherMetric =
      if other = credential then none else reports.entry other otherMetric := by
  unfold entry
  rw [SharedDict.get_delete]
  by_cases same : other = credential
  · simp only [same, ↓reduceIte, Option.bind_none]
  · simp only [same, ↓reduceIte]

end ReportTable

end Tables

section Batches

/-- The reports of a service that are sent in one request. -/
structure ReportsBatch where
  serviceId : String
  credentialsType : Option CredentialsType
  reports : ReportTable

/-- The type of the credentials that a report has. -/
def Report.credentialsType (report : Report) : Option CredentialsType :=
  if report.credentials.userKey.isSome then some .userKey
  else if report.credentials.appId.isSome then some .appId
  else if report.credentials.accessToken.isSome then some .accessToken
  else none

/-- The loop of `ReportsBatch.new`, which raises an error at a report without a credential
of the type. -/
def ReportsBatch.addReports (type : Option CredentialsType) :
    ReportTable → List Report → Option ReportTable
  | table, [] => some table
  | table, report :: reports =>
      (type.bind report.credentials.credential).bind fun credential =>
        addReports type (table.addValue credential report.metric report.value) reports

def ReportsBatch.new (serviceId : String) (reports : List Report) : Option ReportsBatch :=
  let credentialsType := reports.head?.bind Report.credentialsType
  (addReports credentialsType ∅ reports).map fun table =>
    { serviceId, credentialsType, reports := table }

/-- What a batch counts for an account. -/
def ReportsBatch.amount (account : Account) (batch : ReportsBatch) : Int :=
  if batch.serviceId = account.service then
    (batch.reports.entry account.identity account.metric).getD 0
  else 0

/-- The transaction in which the reports of one credential are returned, whose metrics come
in the order in which the table is traversed. -/
def ReportsBatch.transaction (batch : ReportsBatch) (type : CredentialsType) (credential : String)
    (metrics : List (String × Int)) : Transaction where
  serviceId := batch.serviceId
  credentials := .only type credential
  usage := Usage.new.addAll metrics

/-- The batch without the reports of one credential. -/
def ReportsBatch.without (batch : ReportsBatch) (credential : String) : ReportsBatch :=
  { batch with reports := batch.reports.delete credential }

/-- Returning the reports of one credential splits the batch. -/
theorem ReportsBatch.amount_transaction {batch : ReportsBatch} {credential : String}
    {table : SharedDict String Int} {metrics : List (String × Int)} (type : CredentialsType)
    (found : batch.reports.get credential = some table) (listed : metrics.Perm table.pairs)
    (account : Account) :
    (batch.transaction type credential metrics).amount account +
      (batch.without credential).amount account = batch.amount account := by
  have identity : (Credentials.only type credential).identity = some credential := by
    rw [(Credentials.usesType_only type credential).identity_eq, Credentials.credential_only]
  have delta := Usage.delta_addAll_pairs account.metric listed
  unfold Transaction.amount amount transaction without
  simp only [identity, delta, ReportTable.entry_delete, Option.some.injEq]
  by_cases service : batch.serviceId = account.service
  · by_cases same : credential = account.identity
    · subst same
      simp only [service, and_self, ↓reduceIte, Option.getD_none, Int.add_zero]
      unfold ReportTable.entry
      rw [found, Option.bind_some]
    · simp only [service, same, Ne.symm same, and_false, ↓reduceIte, Int.zero_add]
  · simp only [service, false_and, ↓reduceIte, Int.add_zero]

end Batches

section Returnable

variable (serviceType : String → CredentialsType)

/-- A report has credentials of the type of its service, and the key under which it is
returned to the batcher reads back. -/
structure Report.Returnable (report : Report) : Prop where
  usesType : report.credentials.UsesType (serviceType report.serviceId)
  parsesBack : ∀ identity, report.credentials.identity = some identity →
    ParsesBack report.serviceId (.only (serviceType report.serviceId) identity) report.metric

/-- A batch has the type of its service, and the keys under which its reports are returned
read back. -/
structure ReportsBatch.Returnable (batch : ReportsBatch) : Prop where
  typed : batch.credentialsType = some (serviceType batch.serviceId)
  parsesBack : ∀ credential metric, (batch.reports.entry credential metric).isSome →
    ParsesBack batch.serviceId (.only (serviceType batch.serviceId) credential) metric

/-- A transaction has credentials of the type of its service, and the keys of its reports
read back, as they are and as they are when they are returned. -/
structure Transaction.Admissible (transaction : Transaction) : Prop where
  usesType : transaction.credentials.UsesType (serviceType transaction.serviceId)
  parsesBack : ∀ metric ∈ transaction.usage.metrics,
    ParsesBack transaction.serviceId transaction.credentials metric
  returns : ∀ metric ∈ transaction.usage.metrics, ∀ identity,
    transaction.credentials.identity = some identity →
      ParsesBack transaction.serviceId (.only (serviceType transaction.serviceId) identity) metric

instance (transaction : Transaction) : Decidable (transaction.Admissible serviceType) :=
  decidable_of_iff
    (transaction.credentials.UsesType (serviceType transaction.serviceId) ∧
      ∀ metric ∈ transaction.usage.metrics,
        ParsesBack transaction.serviceId transaction.credentials metric ∧
          ∀ identity ∈ transaction.credentials.identity,
            ParsesBack transaction.serviceId (.only (serviceType transaction.serviceId) identity)
              metric)
    ⟨fun ⟨uses, keys⟩ => ⟨uses, fun metric listed => (keys metric listed).1,
        fun metric listed => (keys metric listed).2⟩,
      fun admissible => ⟨admissible.usesType, fun metric listed =>
        ⟨admissible.parsesBack metric listed, admissible.returns metric listed⟩⟩⟩

variable {serviceType} {service : String}

theorem Report.Returnable.credentialsType_eq {report : Report}
    (returnable : report.Returnable serviceType) :
    report.credentialsType = some (serviceType report.serviceId) := by
  have present := returnable.usesType.present
  have single := returnable.usesType.single
  unfold credentialsType
  cases type : serviceType report.serviceId with
  | userKey =>
      rw [type] at present
      exact if_pos present
  | appId =>
      rw [type] at present single
      have userKey : report.credentials.userKey = none := single .userKey nofun
      rw [userKey]
      exact if_pos present
  | accessToken =>
      rw [type] at present single
      have userKey : report.credentials.userKey = none := single .userKey nofun
      have appId : report.credentials.appId = none := single .appId nofun
      rw [userKey, appId]
      exact if_pos present

/-- The loop over returnable reports of one service finds the credential of each of them. -/
theorem ReportsBatch.addReports_spec (table : ReportTable) (reports : List Report)
    (returnable : ∀ report ∈ reports, report.Returnable serviceType ∧ report.serviceId = service) :
    ∃ after, addReports (some (serviceType service)) table reports = some after ∧
      (∀ account : Account, account.service = service →
        (after.entry account.identity account.metric).getD 0 =
          (table.entry account.identity account.metric).getD 0 + reportsAmount account reports) ∧
      ∀ credential metric, (after.entry credential metric).isSome →
        (table.entry credential metric).isSome ∨
          ParsesBack service (.only (serviceType service) credential) metric := by
  induction reports generalizing table with
  | nil => exact ⟨table, rfl, fun _ _ => (Int.add_zero _).symm, fun _ _ present => Or.inl present⟩
  | cons report reports ih =>
      obtain ⟨own, rfl⟩ := returnable report List.mem_cons_self
      obtain ⟨identity, reported, present⟩ := own.usesType.exists_identity
      obtain ⟨after, added, amounts, entries⟩ :=
        ih (table.addValue identity report.metric report.value)
          fun other member => returnable other (List.mem_cons_of_mem _ member)
      refine ⟨after, ?_, ?_, ?_⟩
      · unfold addReports
        rw [Option.bind_some, present, Option.bind_some]
        exact added
      · intro account same
        have counts : (account.identity = identity ∧ account.metric = report.metric) ↔
            report.CountsFor account := by
          constructor
          · intro ⟨sameIdentity, sameMetric⟩
            exact ⟨same.symm, by rw [reported, sameIdentity], sameMetric.symm⟩
          · intro ⟨_, sameIdentity, sameMetric⟩
            rw [reported] at sameIdentity
            exact ⟨(Option.some.inj sameIdentity).symm, sameMetric.symm⟩
        have first : reportsAmount account (report :: reports) =
            report.amount account + reportsAmount account reports := rfl
        rw [amounts account same, ReportTable.getD_entry_addValue, first, Int.add_assoc]
        simp only [counts]
        rfl
      · intro credential metric found
        rcases entries credential metric found with present | parses
        · rw [ReportTable.entry_addValue] at present
          by_cases same : credential = identity ∧ metric = report.metric
          · obtain ⟨rfl, rfl⟩ := same
            exact Or.inr (own.parsesBack credential reported)
          · rw [if_neg same] at present
            exact Or.inl present
        · exact Or.inr parses

/-- A batch is built of returnable reports of one service, and counts what they count. -/
theorem ReportsBatch.new_spec {reports : List Report} (nonempty : reports ≠ [])
    (returnable : ∀ report ∈ reports, report.Returnable serviceType ∧ report.serviceId = service) :
    ∃ batch, new service reports = some batch ∧ batch.Returnable serviceType ∧
      ∀ account, batch.amount account = reportsAmount account reports := by
  obtain ⟨first, rest, rfl⟩ := List.exists_cons_of_ne_nil nonempty
  obtain ⟨own, same⟩ := returnable first List.mem_cons_self
  have typed : first.credentialsType = some (serviceType service) := by
    rw [own.credentialsType_eq, same]
  obtain ⟨table, added, amounts, entries⟩ := addReports_spec ∅ (first :: rest) returnable
  refine ⟨⟨service, some (serviceType service), table⟩, ?_, ?_, ?_⟩
  · unfold new
    rw [List.head?_cons, Option.bind_some, typed]
    dsimp only
    rw [added, Option.map_some]
  · refine ⟨rfl, ?_⟩
    intro credential metric present
    rcases entries credential metric present with absent | parses
    · rw [ReportTable.entry_empty] at absent
      cases absent
    · exact parses
  · intro account
    unfold amount
    by_cases own : service = account.service
    · rw [if_pos own, amounts account own.symm, ReportTable.entry_empty, Option.getD_none,
        Int.zero_add]
    · rw [if_neg own]
      symm
      apply List.sum_eq_zero
      intro share member
      obtain ⟨report, listed, rfl⟩ := List.mem_map.mp member
      apply if_neg
      intro counts
      exact own ((returnable report listed).2.symm.trans counts.1)

/-- The transactions in which a batch is returned can be added again. -/
theorem ReportsBatch.Returnable.transaction {batch : ReportsBatch} {credential : String}
    {table : SharedDict String Int} {metrics : List (String × Int)}
    (returnable : batch.Returnable serviceType)
    (found : batch.reports.get credential = some table) (listed : metrics.Perm table.pairs) :
    (batch.transaction (serviceType batch.serviceId) credential metrics).Admissible
      serviceType := by
  have parses : ∀ metric ∈ (Usage.new.addAll metrics).metrics,
      ParsesBack batch.serviceId (.only (serviceType batch.serviceId) credential) metric := by
    intro metric member
    rcases (Usage.mem_metrics_addAll Usage.new metric metrics).mp member with never | ⟨value, pair⟩
    · cases never
    · apply returnable.parsesBack
      unfold ReportTable.entry
      rw [found, Option.bind_some, SharedDict.mem_pairs.mp (listed.mem_iff.mp pair)]
      rfl
  have uses := Credentials.usesType_only (serviceType batch.serviceId) credential
  refine ⟨uses, parses, ?_⟩
  intro metric member identity reported
  have same : some credential = some identity := by
    rw [← reported]
    exact ((uses.identity_eq).trans (Credentials.credential_only credential)).symm
  rw [← Option.some.inj same]
  exact parses metric member

/-- What remains of a batch while it is returned can be returned as well. -/
theorem ReportsBatch.Returnable.without {batch : ReportsBatch}
    (returnable : batch.Returnable serviceType) (credential : String) :
    (batch.without credential).Returnable serviceType where
  typed := returnable.typed
  parsesBack := by
    intro other metric present
    apply returnable.parsesBack
    unfold ReportsBatch.without at present
    rw [ReportTable.entry_delete] at present
    by_cases same : other = credential
    · rw [if_pos same] at present
      cases present
    · rw [if_neg same] at present
      exact present

end Returnable

end Apicast.Batcher
