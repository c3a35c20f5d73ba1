import Apicast.Batcher.ReportsBatcher

/-!
# The critical sections of the reports batcher

Under the lock of a service a thread only touches keys that read back to that
service. So what a thread has seen of the dictionary in its section stays true
while others act, and none of the branches is reached in which an amount would be
dropped.
-/

namespace Apicast.Batcher

open Foundation

section Keys

/-- The key is one of a report of the service. -/
def KeyOf (key service : String) : Prop :=
  ∃ value report, reportFromKeyBatchedReport key value = .ok report ∧ report.serviceId = service

/-- A report read from a key has the value it was read with. -/
theorem value_of_reportFromKey {key : String} {value : Int} {report : Report}
    (parsed : reportFromKeyBatchedReport key value = .ok report) : report.value = value := by
  rw [reportFromKeyBatchedReport_value] at parsed
  cases read : reportFromKeyBatchedReport key 0 with
  | error err =>
      rw [read] at parsed
      cases parsed
  | ok fields =>
      rw [read] at parsed
      cases parsed
      rfl

/-- Reading a key with another value changes nothing but the value. -/
theorem reportFromKey_of_value {key : String} {value other : Int} {report : Report}
    (parsed : reportFromKeyBatchedReport key value = .ok report) :
    reportFromKeyBatchedReport key other = .ok { report with value := other } := by
  rw [reportFromKeyBatchedReport_value] at parsed ⊢
  cases read : reportFromKeyBatchedReport key 0 with
  | error err =>
      rw [read] at parsed
      cases parsed
  | ok fields =>
      rw [read] at parsed
      cases parsed
      rfl

/-- A key belongs to one service. -/
theorem KeyOf.unique {key service other : String} (first : KeyOf key service)
    (second : KeyOf key other) : service = other := by
  obtain ⟨value, report, parsed, rfl⟩ := first
  obtain ⟨otherValue, otherReport, otherParsed, rfl⟩ := second
  rw [reportFromKey_of_value parsed, Except.ok.injEq] at otherParsed
  rw [← otherParsed]

theorem ParsesBack.keyOf {service metric : String} {credentials : Credentials}
    (parses : ParsesBack service credentials metric) :
    KeyOf (keyForBatchedReport service credentials metric) service :=
  ⟨0, _, parses 0, rfl⟩

end Keys

section WellFormed

variable (serviceType : String → CredentialsType)

/-- Every stored key reads back to a report that can be returned. -/
def Storage.WellFormed (storage : Storage) : Prop :=
  ∀ key value, storage.get key = some value →
    ∃ report, reportFromKeyBatchedReport key value = .ok report ∧ report.Returnable serviceType

/-- The reports are of one service and can be returned. -/
def Collected (service : String) (reports : List Report) : Prop :=
  ∀ report ∈ reports, report.Returnable serviceType ∧ report.serviceId = service

/-- What a thread relies on at each place. -/
def Phase.WellFormed (storage : Storage) : Phase → Prop
  | .idle => True
  | .adding transaction metrics rest =>
      transaction.Admissible serviceType ∧ metrics ⊆ transaction.usage.metrics ∧
        ∀ batch, rest = some batch → batch.Returnable serviceType
  | .incrementing transaction metric metrics rest =>
      transaction.Admissible serviceType ∧ metric :: metrics ⊆ transaction.usage.metrics ∧
        (∀ batch, rest = some batch → batch.Returnable serviceType) ∧
        (storage.get (keyForBatchedReport transaction.serviceId transaction.credentials
          metric)).isSome
  | .listing _ => True
  | .flushing service _ reports => Collected serviceType service reports
  | .deleting service key report _ reports =>
      Collected serviceType service (reports ++ [report]) ∧
        storage.get key = some report.value ∧
        reportFromKeyBatchedReport key report.value = .ok report
  | .handedOut service reports => Collected serviceType service reports
  | .reporting batch => batch.Returnable serviceType
  | .returning batch => batch.Returnable serviceType

/-- The service whose lock a thread holds. -/
def Phase.lockedService : Phase → Option String
  | .adding transaction _ _ => some transaction.serviceId
  | .incrementing transaction _ _ _ => some transaction.serviceId
  | .listing service => some service
  | .flushing service _ _ => some service
  | .deleting service _ _ _ _ => some service
  | _ => none

variable {serviceType}

/-- What a thread relies on does not depend on the keys of other services. -/
theorem Phase.WellFormed.of_unchanged {before after : Storage} {phase : Phase}
    (wellFormed : phase.WellFormed serviceType before)
    (unchanged : ∀ key service, phase.lockedService = some service → KeyOf key service →
      after.get key = before.get key) : phase.WellFormed serviceType after := by
  cases phase with
  | incrementing transaction metric metrics rest =>
      obtain ⟨admissible, listed, returnable, present⟩ := wellFormed
      have parses := admissible.parsesBack metric (listed List.mem_cons_self)
      refine ⟨admissible, listed, returnable, ?_⟩
      rw [unchanged _ _ rfl parses.keyOf]
      exact present
  | deleting service key report keys reports =>
      obtain ⟨collected, present, parsed⟩ := wellFormed
      have same := (collected report (List.mem_append_right reports List.mem_cons_self)).2
      refine ⟨collected, ?_, parsed⟩
      rw [unchanged key service rfl ⟨_, report, parsed, same⟩]
      exact present
  | _ => exact wellFormed

end WellFormed

section Moves

variable {serviceType : String → CredentialsType}

/-- The steps of threads that are where they should be. -/
inductive Moved (serviceType : String → CredentialsType) (storage : Storage) :
    Phase → Action → Outcome → Prop
  | add (transaction : Transaction) :
      Moved serviceType storage .idle (.add transaction)
        ⟨storage, .adding transaction transaction.usage.metrics none,
          .lock transaction.serviceId⟩
  | stored {transaction : Transaction} {metric : String} {metrics : List String}
      {rest : Option ReportsBatch}
      (absent : storage.get (keyForBatchedReport transaction.serviceId transaction.credentials
        metric) = none) :
      Moved serviceType storage (.adding transaction (metric :: metrics) rest) .safeAdd
        ⟨storage.set (keyForBatchedReport transaction.serviceId transaction.credentials metric)
          (transaction.usage.delta metric), .adding transaction metrics rest, .keep⟩
  | found {transaction : Transaction} {metric : String} {metrics : List String}
      {rest : Option ReportsBatch} {value : Int}
      (present : storage.get (keyForBatchedReport transaction.serviceId transaction.credentials
        metric) = some value) :
      Moved serviceType storage (.adding transaction (metric :: metrics) rest) .safeAdd
        ⟨storage, .incrementing transaction metric metrics rest, .keep⟩
  | increased {transaction : Transaction} {metric : String} {metrics : List String}
      {rest : Option ReportsBatch} {value : Int}
      (present : storage.get (keyForBatchedReport transaction.serviceId transaction.credentials
        metric) = some value) :
      Moved serviceType storage (.incrementing transaction metric metrics rest) .incr
        ⟨storage.set (keyForBatchedReport transaction.serviceId transaction.credentials metric)
          (value + transaction.usage.delta metric), .adding transaction metrics rest, .keep⟩
  | added (transaction : Transaction) (rest : Option ReportsBatch) :
      Moved serviceType storage (.adding transaction [] rest) .unlock
        ⟨storage, .resume rest, .unlock transaction.serviceId⟩
  | getAll (service : String) :
      Moved serviceType storage .idle (.getAll service)
        ⟨storage, .listing service, .lock service⟩
  | listed (service : String) (keys : List String) :
      Moved serviceType storage (.listing service) (.getKeys keys)
        ⟨storage, .flushing service keys [], .keep⟩
  | skipped (service key : String) (keys : List String) (reports : List Report) :
      Moved serviceType storage (.flushing service (key :: keys) reports) .get
        ⟨storage, .flushing service keys reports, .keep⟩
  | collected {service key : String} {keys : List String} {reports : List Report}
      {report : Report} (present : storage.get key = some report.value)
      (parsed : reportFromKeyBatchedReport key report.value = .ok report)
      (same : report.serviceId = service) :
      Moved serviceType storage (.flushing service (key :: keys) reports) .get
        ⟨storage, .deleting service key report keys reports, .keep⟩
  | deleted (service key : String) (report : Report) (keys : List String)
      (reports : List Report) :
      Moved serviceType storage (.deleting service key report keys reports) .delete
        ⟨storage.delete key, .flushing service keys (reports ++ [report]), .keep⟩
  | gotAll (service : String) (reports : List Report) :
      Moved serviceType storage (.flushing service [] reports) .unlock
        ⟨storage, .handedOut service reports, .unlock service⟩
  | nothing (service : String) :
      Moved serviceType storage (.handedOut service []) .report ⟨storage, .idle, .keep⟩
  | sent {service : String} {reports : List Report} {batch : ReportsBatch}
      (returnable : batch.Returnable serviceType)
      (amounts : ∀ account, batch.amount account = reportsAmount account reports) :
      Moved serviceType storage (.handedOut service reports) .report
        ⟨storage, .reporting batch, .keep⟩
  | accepted (batch : ReportsBatch) :
      Moved serviceType storage (.reporting batch) (.answer true) ⟨storage, .idle, .keep⟩
  | refused (batch : ReportsBatch) :
      Moved serviceType storage (.reporting batch) (.answer false)
        ⟨storage, .returning batch, .keep⟩
  | returnNext {batch : ReportsBatch} {credential : String} {table : SharedDict String Int}
      {metrics : List (String × Int)} (found : batch.reports.get credential = some table)
      (listed : metrics.Perm table.pairs) :
      Moved serviceType storage (.returning batch) (.returnNext credential metrics)
        ⟨storage, .adding
          (batch.transaction (serviceType batch.serviceId) credential metrics)
          (batch.transaction (serviceType batch.serviceId) credential metrics).usage.metrics
          (batch.without credential), .lock batch.serviceId⟩
  | returned {batch : ReportsBatch} (empty : batch.reports.entries = []) :
      Moved serviceType storage (.returning batch) .returned ⟨storage, .idle, .keep⟩

variable {storage : Storage}

theorem moved_safeAddReport (transaction : Transaction) (metric : String) (metrics : List String)
    (rest : Option ReportsBatch) :
    Moved serviceType storage (.adding transaction (metric :: metrics) rest) .safeAdd
      (safeAddReport storage transaction metric metrics rest) := by
  unfold safeAddReport
  dsimp only
  cases present : storage.get (keyForBatchedReport transaction.serviceId transaction.credentials
      metric) with
  | none =>
      rw [SharedDict.add_of_get_eq_none present]
      exact .stored present
  | some value =>
      rw [SharedDict.add_of_get_eq_some present]
      exact .found present

theorem moved_incrReport {transaction : Transaction} {metric : String} {metrics : List String}
    {rest : Option ReportsBatch}
    (wellFormed : Phase.WellFormed serviceType storage
      (.incrementing transaction metric metrics rest)) :
    Moved serviceType storage (.incrementing transaction metric metrics rest) .incr
      (incrReport storage transaction metric metrics rest) := by
  obtain ⟨value, present⟩ := Option.isSome_iff_exists.mp wellFormed.2.2.2
  unfold incrReport
  dsimp only
  rw [SharedDict.incr_of_get_eq_some none present]
  exact .increased present

theorem moved_getReport (service key : String) (keys : List String) (reports : List Report) :
    Moved serviceType storage (.flushing service (key :: keys) reports) .get
      (getReport storage service key keys reports) := by
  unfold getReport
  cases present : storage.get key with
  | none => exact .skipped service key keys reports
  | some value =>
      dsimp only
      cases parsed : reportFromKeyBatchedReport key value with
      | error err => exact .skipped service key keys reports
      | ok report =>
          dsimp only
          by_cases own : value > 0 ∧ report.serviceId = service
          · rw [if_pos own]
            have same := value_of_reportFromKey parsed
            subst same
            exact .collected present parsed own.2
          · rw [if_neg own]
            exact .skipped service key keys reports

theorem moved_sendReports {service : String} {reports : List Report}
    (collected : Collected serviceType service reports) :
    Moved serviceType storage (.handedOut service reports) .report
      (sendReports storage service reports) := by
  cases reports with
  | nil => exact .nothing service
  | cons report reports =>
      obtain ⟨batch, built, returnable, amounts⟩ :=
        ReportsBatch.new_spec (List.cons_ne_nil report reports) collected
      unfold sendReports
      dsimp only
      rw [built]
      exact .sent returnable amounts

theorem moved_returnReports {batch : ReportsBatch} {credential : String}
    {metrics : List (String × Int)} {outcome : Outcome} (returnable : batch.Returnable serviceType)
    (moved : returnReports storage batch credential metrics = some outcome) :
    Moved serviceType storage (.returning batch) (.returnNext credential metrics) outcome := by
  unfold returnReports at moved
  rw [returnable.typed] at moved
  cases found : batch.reports.get credential with
  | none =>
      rw [found] at moved
      cases moved
  | some table =>
      rw [found] at moved
      obtain ⟨listed, same⟩ := Option.ite_none_right_eq_some.mp moved
      cases same
      exact .returnNext found listed

/-- Threads that are where they should be never take one of the branches in which an amount
would be dropped. -/
theorem moved_of_move {phase : Phase} {action : Action} {outcome : Outcome}
    (wellFormed : phase.WellFormed serviceType storage)
    (move_eq : move storage phase action = some outcome) :
    Moved serviceType storage phase action outcome := by
  revert move_eq
  fun_cases move storage phase action with
  | case1 transaction =>
      intro move_eq
      cases move_eq
      exact .add transaction
  | case2 transaction metric metrics rest =>
      intro move_eq
      cases move_eq
      exact moved_safeAddReport transaction metric metrics rest
  | case3 transaction metric metrics rest =>
      intro move_eq
      cases move_eq
      exact moved_incrReport wellFormed
  | case4 transaction rest =>
      intro move_eq
      cases move_eq
      exact .added transaction rest
  | case5 service =>
      intro move_eq
      cases move_eq
      exact .getAll service
  | case6 service keys =>
      intro move_eq
      cases move_eq
      exact .listed service keys
  | case8 service key keys reports =>
      intro move_eq
      cases move_eq
      exact moved_getReport service key keys reports
  | case9 service key report keys reports =>
      intro move_eq
      cases move_eq
      exact .deleted service key report keys reports
  | case10 service reports =>
      intro move_eq
      cases move_eq
      exact .gotAll service reports
  | case11 service reports =>
      intro move_eq
      cases move_eq
      exact moved_sendReports wellFormed
  | case12 batch ok =>
      intro move_eq
      cases move_eq
      cases ok with
      | true => exact .accepted batch
      | false => exact .refused batch
  | case13 batch credential metrics => exact moved_returnReports wellFormed
  | case14 batch empty =>
      intro move_eq
      cases move_eq
      exact .returned empty
  | case7 | case15 | case16 =>
      intro move_eq
      cases move_eq

end Moves

section Steps

variable {serviceType : String → CredentialsType} {storage : Storage} {phase : Phase}
  {action : Action} {outcome : Outcome}

/-- A step touches no keys of services whose lock the thread does not hold. -/
theorem Moved.get_eq (moved : Moved serviceType storage phase action outcome)
    (wellFormed : phase.WellFormed serviceType storage) {key service : String}
    (keyOf : KeyOf key service) (other : phase.lockedService ≠ some service) :
    outcome.storage.get key = storage.get key := by
  cases moved with
  | stored absent =>
      apply SharedDict.get_set_of_ne
      rintro rfl
      exact other (congrArg some
        ((wellFormed.1.parsesBack _ (wellFormed.2.1 List.mem_cons_self)).keyOf.unique keyOf))
  | increased present =>
      apply SharedDict.get_set_of_ne
      rintro rfl
      exact other (congrArg some
        ((wellFormed.1.parsesBack _ (wellFormed.2.1 List.mem_cons_self)).keyOf.unique keyOf))
  | deleted ownService ownKey report keys reports =>
      obtain ⟨collected, _, parsed⟩ := wellFormed
      have own : KeyOf ownKey ownService := ⟨_, report, parsed,
        (collected report (List.mem_append_right reports List.mem_cons_self)).2⟩
      apply SharedDict.get_delete_of_ne
      rintro rfl
      exact other (congrArg some (own.unique keyOf))
  | _ => rfl

/-- What a request passes to the batcher can be reported and returned. -/
def Action.Allowed (serviceType : String → CredentialsType) : Action → Prop
  | .add transaction => transaction.Admissible serviceType
  | _ => True

instance (action : Action) : Decidable (action.Allowed serviceType) :=
  match action with
  | .add transaction => inferInstanceAs (Decidable (transaction.Admissible serviceType))
  | .safeAdd | .incr | .unlock | .getAll _ | .getKeys _ | .get | .delete | .report | .answer _
  | .returnNext _ _ | .returned => .isTrue trivial

/-- The report that is stored under the key of a transaction. -/
theorem Transaction.Admissible.report {transaction : Transaction}
    (admissible : transaction.Admissible serviceType) {metric : String}
    (listed : metric ∈ transaction.usage.metrics) (value : Int) :
    ∃ report, reportFromKeyBatchedReport (keyForBatchedReport transaction.serviceId
        transaction.credentials metric) value = .ok report ∧ report.Returnable serviceType := by
  refine ⟨_, admissible.parsesBack metric listed value, admissible.usesType.inKey, ?_⟩
  intro identity reported
  apply admissible.returns metric listed
  rw [← admissible.usesType.identity_inKey]
  exact reported

/-- Every step leaves the dictionary well formed. -/
theorem Moved.storage_wellFormed (moved : Moved serviceType storage phase action outcome)
    (stored : storage.WellFormed serviceType) (wellFormed : phase.WellFormed serviceType storage) :
    Storage.WellFormed serviceType outcome.storage := by
  -- Keys are only ever written with amounts of an admissible transaction.
  have written {transaction : Transaction} {metric : String} {metrics : List String}
      (admissible : transaction.Admissible serviceType)
      (listed : metric :: metrics ⊆ transaction.usage.metrics) (value : Int) :
      Storage.WellFormed serviceType (storage.set (keyForBatchedReport transaction.serviceId
        transaction.credentials metric) value) := by
    intro key found present
    rw [SharedDict.get_set] at present
    by_cases same : key = keyForBatchedReport transaction.serviceId transaction.credentials metric
    · rw [same]
      exact admissible.report (listed List.mem_cons_self) found
    · rw [if_neg same] at present
      exact stored key found present
  cases moved with
  | stored absent => exact written wellFormed.1 wellFormed.2.1 _
  | increased present => exact written wellFormed.1 wellFormed.2.1 _
  | deleted service deletedKey report keys reports =>
      intro key found present
      have kept := SharedDict.get_delete storage deletedKey key
      rw [present] at kept
      by_cases same : key = deletedKey
      · rw [if_pos same] at kept
        cases kept
      · rw [if_neg same] at kept
        exact stored key found kept.symm
  | _ => exact stored

/-- Every step leads to a place on which the thread can rely. -/
theorem Moved.phase_wellFormed (moved : Moved serviceType storage phase action outcome)
    (allowed : action.Allowed serviceType) (stored : storage.WellFormed serviceType)
    (wellFormed : phase.WellFormed serviceType storage) :
    outcome.phase.WellFormed serviceType outcome.storage := by
  cases moved with
  | add transaction => exact ⟨allowed, List.Subset.refl _, nofun⟩
  | stored absent =>
      obtain ⟨admissible, listed, returnable⟩ := wellFormed
      exact ⟨admissible, (List.cons_subset.mp listed).2, returnable⟩
  | found present =>
      obtain ⟨admissible, listed, returnable⟩ := wellFormed
      exact ⟨admissible, listed, returnable, by rw [present]; rfl⟩
  | increased present =>
      obtain ⟨admissible, listed, returnable, _⟩ := wellFormed
      exact ⟨admissible, (List.cons_subset.mp listed).2, returnable⟩
  | added transaction rest =>
      cases rest with
      | none => trivial
      | some batch => exact wellFormed.2.2 batch rfl
  | getAll service => trivial
  | listed service keys => exact fun _ => List.not_mem_nil.elim
  | skipped service key keys reports => exact wellFormed
  | @collected service key keys reports report present parsed same =>
      refine ⟨?_, present, parsed⟩
      intro other member
      rcases List.mem_append.mp member with earlier | last
      · exact wellFormed other earlier
      · obtain rfl := List.mem_singleton.mp last
        obtain ⟨read, readParsed, returnable⟩ := stored key _ present
        rw [parsed, Except.ok.injEq] at readParsed
        rw [readParsed]
        exact ⟨returnable, readParsed ▸ same⟩
  | deleted service key report keys reports => exact wellFormed.1
  | gotAll service reports => exact wellFormed
  | nothing service => trivial
  | sent returnable amounts => exact returnable
  | accepted batch => trivial
  | refused batch => exact wellFormed
  | returnNext found listed =>
      refine ⟨wellFormed.transaction found listed, List.Subset.refl _, ?_⟩
      intro batch same
      cases same
      exact wellFormed.without _
  | returned empty => trivial

/-- The use of a lock in a step fits the sections before and after it. -/
def Locking.Fits (before after : Option String) : Locking → Prop
  | .keep => after = before
  | .lock service => before = none ∧ after = some service
  | .unlock service => before = some service ∧ after = none

/-- Locks are taken and given back where a section begins and ends. -/
theorem Moved.locking_fits (moved : Moved serviceType storage phase action outcome) :
    outcome.locking.Fits phase.lockedService outcome.phase.lockedService := by
  cases moved with
  | added transaction rest => cases rest <;> exact ⟨rfl, rfl⟩
  | add | getAll | gotAll | returnNext => exact ⟨rfl, rfl⟩
  | _ => rfl

end Steps

section Runs

variable {Thread : Type*} [DecidableEq Thread] {serviceType : String → CredentialsType}

/-- The dictionary and the threads are well formed, and a lock is held by the one thread
that is in a section of its service. -/
structure BatcherState.Sound (serviceType : String → CredentialsType)
    (state : BatcherState Thread) : Prop where
  stored : state.storage.WellFormed serviceType
  wellFormed : ∀ thread, (state.threads thread).WellFormed serviceType state.storage
  locked : ∀ service thread,
    state.locks service = some thread ↔ (state.threads thread).lockedService = some service

/-- A step of the batcher is a move of one thread that gets the lock it asks for. -/
theorem BatcherState.Sound.moved {before after : BatcherState Thread} {thread : Thread}
    {action : Action} (sound : before.Sound serviceType)
    (stepped : before.next (thread, action) = some after) :
    ∃ outcome, Moved serviceType before.storage (before.threads thread) action outcome ∧
      after.storage = outcome.storage ∧
      after.threads = Function.update before.threads thread outcome.phase ∧
      relock before.locks thread outcome.locking = some after.locks ∧
      (∀ account, after.added account = before.added account + addedBy account action) ∧
      ∀ account, after.delivered account =
        before.delivered account + deliveredBy account (before.threads thread) action := by
  obtain ⟨outcome, move_eq, rest⟩ := Option.bind_eq_some_iff.mp stepped
  obtain ⟨locks, relocked, rfl⟩ := Option.map_eq_some_iff.mp rest
  exact ⟨outcome, moved_of_move (sound.wellFormed thread) move_eq, rfl, rfl, relocked,
    fun _ => rfl, fun _ => rfl⟩

/-- The lock table follows the sections of the threads. -/
theorem locked_of_relock {locks after : String → Option Thread} {threads : Thread → Phase}
    {thread : Thread} {phase : Phase} {locking : Locking}
    (locked : ∀ service other,
      locks service = some other ↔ (threads other).lockedService = some service)
    (relocked : relock locks thread locking = some after)
    (fits : locking.Fits (threads thread).lockedService phase.lockedService) :
    ∀ service other, after service = some other ↔
      (Function.update threads thread phase other).lockedService = some service := by
  intro service other
  cases locking with
  | keep =>
      obtain rfl := Option.some.inj relocked
      rw [locked]
      by_cases own : other = thread
      · rw [own, Function.update_self, fits]
      · rw [Function.update_of_ne own]
  | lock taken =>
      obtain ⟨free, updated⟩ := Option.ite_none_right_eq_some.mp relocked
      obtain rfl := Option.some.inj updated
      by_cases own : other = thread
      · rw [own, Function.update_self, fits.2]
        by_cases same : service = taken
        · rw [same, Function.update_self]
          exact iff_of_true rfl rfl
        · rw [Function.update_of_ne same, locked, fits.1]
          exact iff_of_false nofun fun equal => same (Option.some.inj equal).symm
      · rw [Function.update_of_ne own, ← locked]
        by_cases same : service = taken
        · rw [same, Function.update_self, free]
          exact iff_of_false (fun equal => own (Option.some.inj equal).symm) nofun
        · rw [Function.update_of_ne same]
  | unlock released =>
      obtain rfl := Option.some.inj relocked
      have held := (locked released thread).mpr fits.1
      by_cases own : other = thread
      · rw [own, Function.update_self, fits.2]
        by_cases same : service = released
        · rw [same, Function.update_self]
          exact iff_of_false nofun nofun
        · rw [Function.update_of_ne same, locked, fits.1]
          exact iff_of_false (fun equal => same (Option.some.inj equal).symm) nofun
      · rw [Function.update_of_ne own, ← locked]
        by_cases same : service = released
        · rw [same, Function.update_self, held]
          exact iff_of_false nofun fun equal => own (Option.some.inj equal).symm
        · rw [Function.update_of_ne same]

/-- One step keeps a sound batcher sound: what the other threads rely on belongs to services
whose lock the moving thread does not hold. -/
theorem BatcherState.Sound.next {before after : BatcherState Thread} {thread : Thread}
    {action : Action} (sound : before.Sound serviceType) (allowed : action.Allowed serviceType)
    (stepped : before.next (thread, action) = some after) : after.Sound serviceType := by
  obtain ⟨outcome, moved, storage, threads, relocked, _⟩ := sound.moved stepped
  have own := sound.wellFormed thread
  refine ⟨?_, ?_, ?_⟩
  · rw [storage]
    exact moved.storage_wellFormed sound.stored own
  · intro other
    rw [storage, threads]
    by_cases same : other = thread
    · rw [same, Function.update_self]
      exact moved.phase_wellFormed allowed sound.stored own
    · rw [Function.update_of_ne same]
      apply (sound.wellFormed other).of_unchanged
      intro key service section_eq keyOf
      apply moved.get_eq own keyOf
      intro overlap
      have first := (sound.locked service other).mpr section_eq
      have second := (sound.locked service thread).mpr overlap
      rw [first] at second
      exact same (Option.some.inj second)
  · rw [threads]
    exact locked_of_relock sound.locked relocked moved.locking_fits

/-- The steps in which requests only pass admissible transactions. -/
def Steps (serviceType : String → CredentialsType) (_ : BatcherState Thread)
    (step : Thread × Action) : Prop :=
  step.2.Allowed serviceType

instance (state : BatcherState Thread) (step : Thread × Action) :
    Decidable (Steps serviceType state step) :=
  inferInstanceAs (Decidable (step.2.Allowed serviceType))

/-- The batcher is sound in every run. -/
theorem sound_invariant :
    (batcher Thread).InvariantWithin (Steps serviceType) (·.Sound serviceType) where
  initial := by
    refine ⟨?_, fun _ => trivial, fun service thread => iff_of_false nofun nofun⟩
    intro key value present
    have absent : SharedDict.get (∅ : Storage) key = some value := present
    rw [SharedDict.get_empty] at absent
    cases absent
  step := fun _ _ _ sound allowed stepped => sound.next allowed stepped

end Runs

end Apicast.Batcher
