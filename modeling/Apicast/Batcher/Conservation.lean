import Apicast.Batcher.CriticalSections
import Apicast.Foundation.Ledger

/-!
# No usage is lost or counted twice

The batcher is a ledger: a request records its usage, the backend settles it, and
every other step only moves amounts between the dictionary and the threads.
-/

namespace Apicast.Batcher

open Foundation

section Amounts

variable (account : Account)

/-- What an entry of the dictionary counts for an account. -/
def entryAmount (key : String) (value : Int) : Int :=
  match reportFromKeyBatchedReport key value with
  | .ok report => report.amount account
  | .error _ => 0

/-- What is stored for an account. -/
def storedAmount (storage : Storage) : Int := storage.total (entryAmount account)

/-- What a thread has been handed out for an account and has neither delivered nor put
back. -/
def Phase.unresolved : Phase → Int
  | .handedOut _ reports => reportsAmount account reports
  | .reporting batch => batch.amount account
  | .returning batch => batch.amount account
  | _ => 0

/-- What a thread holds for an account, also in the middle of a section. -/
def Phase.held : Phase → Int
  | .adding transaction metrics rest =>
      reportsAmount account (metrics.map transaction.report) +
        (rest.map (ReportsBatch.amount account)).getD 0
  | .incrementing transaction metric metrics rest =>
      reportsAmount account ((metric :: metrics).map transaction.report) +
        (rest.map (ReportsBatch.amount account)).getD 0
  | .flushing _ _ reports => reportsAmount account reports
  | .deleting _ _ _ _ reports => reportsAmount account reports
  | phase => phase.unresolved account

variable {account}

/-- Outside of sections a thread only holds what it was handed out. -/
theorem Phase.held_eq_unresolved {phase : Phase} (outside : phase.lockedService = none) :
    phase.held account = phase.unresolved account := by
  cases phase with
  | adding | incrementing | flushing | deleting => cases outside
  | _ => rfl

theorem reportsAmount_append (reports others : List Report) :
    reportsAmount account (reports ++ others) =
      reportsAmount account reports + reportsAmount account others := by
  unfold reportsAmount
  rw [List.map_append, List.sum_append]

theorem entryAmount_of_parsed {key : String} {report : Report}
    (parsed : reportFromKeyBatchedReport key report.value = .ok report) :
    entryAmount account key report.value = report.amount account := by
  unfold entryAmount
  rw [parsed]

variable {serviceType : String → CredentialsType}

/-- An entry under the key of a transaction counts for the account of its report. -/
theorem Transaction.Admissible.entryAmount_eq {transaction : Transaction} {metric : String}
    (admissible : transaction.Admissible serviceType)
    (listed : metric ∈ transaction.usage.metrics) (value : Int) :
    entryAmount account (keyForBatchedReport transaction.serviceId transaction.credentials metric)
        value =
      if (transaction.report metric).CountsFor account then value else 0 := by
  have counts : Report.CountsFor
      { serviceId := transaction.serviceId, metric
        credentials := transaction.credentials.inKey, value } account ↔
      (transaction.report metric).CountsFor account := by
    unfold Report.CountsFor
    rw [admissible.usesType.identity_inKey]
    rfl
  unfold entryAmount
  rw [admissible.parsesBack metric listed value]
  exact if_congr counts rfl rfl

/-- The amount that a transaction has for a metric is the one of its report. -/
theorem Transaction.Admissible.entryAmount_report {transaction : Transaction} {metric : String}
    (admissible : transaction.Admissible serviceType)
    (listed : metric ∈ transaction.usage.metrics) :
    entryAmount account (keyForBatchedReport transaction.serviceId transaction.credentials metric)
        (transaction.usage.delta metric) =
      (transaction.report metric).amount account :=
  admissible.entryAmount_eq listed _

/-- What is added to an entry counts in addition to what was there. -/
theorem Transaction.Admissible.entryAmount_add {transaction : Transaction} {metric : String}
    (admissible : transaction.Admissible serviceType)
    (listed : metric ∈ transaction.usage.metrics) (value delta : Int) :
    entryAmount account (keyForBatchedReport transaction.serviceId transaction.credentials metric)
        (value + delta) =
      entryAmount account (keyForBatchedReport transaction.serviceId transaction.credentials
        metric) value +
      entryAmount account (keyForBatchedReport transaction.serviceId transaction.credentials
        metric) delta := by
  simp only [admissible.entryAmount_eq listed]
  split
  · rfl
  · rfl

theorem reportsAmount_cons (report : Report) (reports : List Report) :
    reportsAmount account (report :: reports) =
      report.amount account + reportsAmount account reports := by
  unfold reportsAmount
  rw [List.map_cons, List.sum_cons]

end Amounts

section Steps

variable {serviceType : String → CredentialsType} {storage : Storage} {phase : Phase}
  {action : Action} {outcome : Outcome}

/-- One step moves amounts between the dictionary and the thread, except for what a request
adds and what the backend accepts. -/
theorem Moved.conserved (moved : Moved serviceType storage phase action outcome)
    (wellFormed : phase.WellFormed serviceType storage) (account : Account) :
    storedAmount account outcome.storage + outcome.phase.held account +
        deliveredBy account phase action =
      storedAmount account storage + phase.held account + addedBy account action := by
  cases moved with
  | add transaction =>
      have counted := transaction.reportsAmount_report account
      simp only [Phase.held, Phase.unresolved, deliveredBy, addedBy, Option.map_none,
        Option.getD_none]
      omega
  | @stored transaction metric metrics rest absent =>
      obtain ⟨admissible, listed, _⟩ := wellFormed
      have raised : SharedDict.total _ (storage.set _ (transaction.usage.delta metric)) = _ :=
        SharedDict.total_set_of_get_eq_none (entryAmount account) absent
      have counted : entryAmount account _ _ = (transaction.report metric).amount account :=
        admissible.entryAmount_report (listed List.mem_cons_self)
      simp only [storedAmount, Phase.held, deliveredBy, addedBy, List.map_cons,
        reportsAmount_cons]
      omega
  | found present => rfl
  | @increased transaction metric metrics rest value present =>
      obtain ⟨admissible, listed, _⟩ := wellFormed
      have raised :
          SharedDict.total _ (storage.set _ (value + transaction.usage.delta metric)) + _ = _ :=
        SharedDict.total_set_of_get_eq_some (entryAmount account) present
      have split : entryAmount account _ _ = _ :=
        admissible.entryAmount_add (listed List.mem_cons_self) value
          (transaction.usage.delta metric)
      have counted : entryAmount account _ _ = (transaction.report metric).amount account :=
        admissible.entryAmount_report (listed List.mem_cons_self)
      simp only [storedAmount, Phase.held, deliveredBy, addedBy, List.map_cons,
        reportsAmount_cons]
      omega
  | added transaction rest =>
      have none_left : reportsAmount account ([].map transaction.report) = 0 := rfl
      cases rest with
      | none => rfl
      | some batch =>
          simp only [Phase.held, Phase.resume, Phase.unresolved, deliveredBy, addedBy, none_left,
            Option.map_some, Option.getD_some]
          omega
  | deleted service key report keys reports =>
      obtain ⟨_, present, parsed⟩ := wellFormed
      have removed := SharedDict.total_delete (entryAmount account) present
      have counted : entryAmount account key report.value = report.amount account :=
        entryAmount_of_parsed parsed
      have last : reportsAmount account [report] = report.amount account := by
        rw [reportsAmount_cons]
        exact Int.add_zero _
      simp only [storedAmount, Phase.held, deliveredBy, addedBy, reportsAmount_append]
      omega
  | sent returnable amounts =>
      have same := amounts account
      simp only [Phase.held, Phase.unresolved, deliveredBy, addedBy]
      omega
  | accepted batch =>
      simp only [Phase.held, Phase.unresolved, deliveredBy, addedBy]
      omega
  | @returnNext batch credential table metrics found listed =>
      have parts := ReportsBatch.amount_transaction (serviceType batch.serviceId) found listed
        account
      have counted := (batch.transaction (serviceType batch.serviceId) credential
        metrics).reportsAmount_report account
      simp only [Phase.held, Phase.unresolved, deliveredBy, addedBy, Option.map_some,
        Option.getD_some]
      omega
  | @returned batch empty =>
      have nothing : batch.amount account = 0 := by
        have absent : batch.reports.get account.identity = none := by
          apply AList.lookup_eq_none.mpr
          intro member
          change account.identity ∈ batch.reports.entries.map Sigma.fst at member
          rw [empty] at member
          cases member
        unfold ReportsBatch.amount ReportTable.entry
        rw [absent]
        exact ite_self 0
      simp only [Phase.held, Phase.unresolved, deliveredBy, addedBy]
      omega
  | _ => rfl

/-- A step records the usage of a request, settles the usage of a batch, or neither. -/
theorem Moved.cases_ledger (moved : Moved serviceType storage phase action outcome) :
    (∃ transaction : Transaction, ∀ account, addedBy account action = transaction.amount account ∧
        deliveredBy account phase action = 0) ∨
      (∃ batch : ReportsBatch, ∀ account, addedBy account action = 0 ∧
        deliveredBy account phase action = batch.amount account) ∨
      ∀ account, addedBy account action = 0 ∧ deliveredBy account phase action = 0 := by
  cases moved with
  | add transaction => exact Or.inl ⟨transaction, fun _ => ⟨rfl, rfl⟩⟩
  | accepted batch => exact Or.inr (Or.inl ⟨batch, fun _ => ⟨rfl, rfl⟩⟩)
  | _ => exact Or.inr (Or.inr fun _ => ⟨rfl, rfl⟩)

end Steps

section Runs

variable {Thread : Type*} [DecidableEq Thread] [Fintype Thread]
  {serviceType : String → CredentialsType}

/-- The batcher as a ledger: what is stored and what the threads hold is outstanding. -/
def BatcherState.ledger (state : BatcherState Thread) : Ledger Account Int where
  outstanding account :=
    storedAmount account state.storage + ThreadPool.total (Phase.held account) state.threads
  settled := state.delivered
  recorded := state.added

/-- A step changes the outstanding amounts by what it adds and what it delivers. -/
theorem BatcherState.Sound.outstanding {before after : BatcherState Thread} {thread : Thread}
    {action : Action} (sound : before.Sound serviceType)
    (stepped : before.next (thread, action) = some after) (account : Account) :
    after.ledger.outstanding account + deliveredBy account (before.threads thread) action =
      before.ledger.outstanding account + addedBy account action := by
  obtain ⟨outcome, moved, storage, threads, _⟩ := sound.moved stepped
  have step := moved.conserved (sound.wellFormed thread) account
  have held := ThreadPool.total_update (Phase.held account) before.threads thread outcome.phase
  unfold ledger
  dsimp only
  rw [storage, threads]
  omega

/-- Every step of the batcher is one of a ledger or leaves the ledger alone. -/
theorem batcher_simulates_ledger :
    Machine.Simulation (batcher Thread) (Steps serviceType) (Ledger.machine Account Int)
      BatcherState.ledger where
  initial := by
    have threads : ∀ account, ThreadPool.total (Phase.held account)
        (batcher Thread).initial.threads = 0 := fun account =>
      ThreadPool.total_eq_zero fun _ => rfl
    unfold BatcherState.ledger
    simp only [threads]
    rfl
  step := by
    intro before step after reachable _ stepped
    obtain ⟨thread, action⟩ := step
    have sound := sound_invariant.of_reachable reachable
    have outstanding := sound.outstanding stepped
    obtain ⟨outcome, moved, _, _, _, added, delivered⟩ := sound.moved stepped
    have ledger_eq {ledger : Ledger Account Int}
        (same : ∀ account, after.ledger.outstanding account = ledger.outstanding account ∧
          after.delivered account = ledger.settled account ∧
          after.added account = ledger.recorded account) : after.ledger = ledger := by
      obtain ⟨outstanding, settled, recorded⟩ := ledger
      obtain rfl : after.ledger.outstanding = outstanding := funext fun account => (same account).1
      obtain rfl : after.delivered = settled := funext fun account => (same account).2.1
      obtain rfl : after.added = recorded := funext fun account => (same account).2.2
      rfl
    rcases moved.cases_ledger with ⟨transaction, records⟩ | ⟨batch, settles⟩ | quiet
    · right
      refine ⟨.record fun account => transaction.amount account, ?_⟩
      apply congrArg some
      symm
      apply ledger_eq
      intro account
      obtain ⟨adds, delivers⟩ := records account
      have amounts := outstanding account
      rw [added account, delivered account, adds, delivers]
      rw [adds, delivers] at amounts
      refine ⟨?_, Int.add_zero _, rfl⟩
      rw [← Int.add_zero (after.ledger.outstanding account), amounts]
      rfl
    · right
      refine ⟨.settle fun account => batch.amount account, ?_⟩
      apply congrArg some
      symm
      apply ledger_eq
      intro account
      obtain ⟨adds, delivers⟩ := settles account
      have amounts := outstanding account
      rw [added account, delivered account, adds, delivers]
      rw [adds, delivers] at amounts
      refine ⟨?_, rfl, Int.add_zero _⟩
      change _ = before.ledger.outstanding account - batch.amount account
      omega
    · left
      apply ledger_eq
      intro account
      obtain ⟨adds, delivers⟩ := quiet account
      have amounts := outstanding account
      rw [added account, delivered account, adds, delivers]
      rw [adds, delivers] at amounts
      refine ⟨?_, Int.add_zero _, Int.add_zero _⟩
      omega

/-- Whatever threads run and however the backend answers, at every moment at which no thread
is in a section the amounts that are stored, that are handed out and not resolved, and that
have been delivered add up to what requests have passed to the batcher. -/
theorem usage_conserved {state : BatcherState Thread}
    (reachable : (batcher Thread).ReachableWithin (Steps serviceType) state)
    (quiescent : ∀ thread, (state.threads thread).lockedService = none) (account : Account) :
    storedAmount account state.storage +
        ThreadPool.total (Phase.unresolved account) state.threads + state.delivered account =
      state.added account := by
  have balanced := Ledger.outstanding_add_settled
    (batcher_simulates_ledger.reachable reachable) account
  have unresolved : ThreadPool.total (Phase.held account) state.threads =
      ThreadPool.total (Phase.unresolved account) state.threads :=
    ThreadPool.total_congr fun thread => Phase.held_eq_unresolved (quiescent thread)
  rw [← unresolved]
  exact balanced

/-- A request of a user, for some hits. -/
private def hits (amount : Int) : Transaction where
  serviceId := "1"
  credentials := { userKey := some "u" }
  usage := Usage.new.add "hits" amount

/-- A timer hands out three hits, two more are batched before the backend refuses the report,
and nothing has been put back yet. -/
private def refusedReport : List (Bool × Action) :=
  [(false, .add (hits 3)), (false, .safeAdd), (false, .unlock),
    (true, .getAll "1"), (true, .getKeys ["service_id:1,user_key:u,metric:hits"]), (true, .get),
    (true, .delete), (true, .unlock), (true, .report),
    (false, .add (hits 2)), (false, .safeAdd), (false, .unlock),
    (true, .answer false)]

/-- With three hits on their way back to the batcher, all five are accounted for. -/
theorem usage_conserved_refused :
    ∃ state : BatcherState Bool,
      storedAmount ⟨"1", "u", "hits"⟩ state.storage = 2 ∧
        state.added ⟨"1", "u", "hits"⟩ = 5 ∧
        storedAmount ⟨"1", "u", "hits"⟩ state.storage +
            ThreadPool.total (Phase.unresolved ⟨"1", "u", "hits"⟩) state.threads +
            state.delivered ⟨"1", "u", "hits"⟩ =
          state.added ⟨"1", "u", "hits"⟩ := by
  have executed : ((batcher Bool).runWithin (Steps fun _ => .userKey) (batcher Bool).initial
      refusedReport).any fun state =>
        (∀ thread, (state.threads thread).lockedService = none) ∧
          storedAmount ⟨"1", "u", "hits"⟩ state.storage = 2 ∧
          state.added ⟨"1", "u", "hits"⟩ = 5 := by
    decide
  obtain ⟨state, reached, facts⟩ := (Option.any_eq_true _ _).mp executed
  obtain ⟨quiescent, stored, added⟩ := of_decide_eq_true facts
  exact ⟨state, stored, added, usage_conserved (.run .initial reached) quiescent _⟩

end Runs

end Apicast.Batcher
