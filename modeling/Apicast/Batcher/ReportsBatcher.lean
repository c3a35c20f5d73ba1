import Apicast.Batcher.ReportsBatch
import Apicast.Foundation.ThreadPool
import Apicast.Foundation.TransitionSystem

/-!
# The reports batcher under concurrency

Requests and reporting timers run `ReportsBatcher:add`, `ReportsBatcher:get_all`
and `reporter.report` over one shared dictionary. A step is one operation on the
dictionary, one use of a lock or one answer of the backend, so operations of
different services interleave freely, also in the middle of the loops. Locks are
always obtained in the end and never expire, and the dictionary neither evicts nor
runs out of memory.
-/

namespace Apicast.Batcher

open Foundation

/-- The shared dictionary with the amounts of the batched reports. -/
abbrev Storage := SharedDict String Int

/-- Where a thread is. While the reports of a batch are returned, `returning` is what
remains of it. -/
inductive Phase
  | idle
  | adding (transaction : Transaction) (metrics : List String) (returning : Option ReportsBatch)
  | incrementing (transaction : Transaction) (metric : String) (metrics : List String)
      (returning : Option ReportsBatch)
  | listing (service : String)
  | flushing (service : String) (keys : List String) (reports : List Report)
  | deleting (service : String) (key : String) (report : Report) (keys : List String)
      (reports : List Report)
  | handedOut (service : String) (reports : List Report)
  | reporting (batch : ReportsBatch)
  | returning (batch : ReportsBatch)

/-- What a thread does next, with the choices that are not its own. -/
inductive Action
  | add (transaction : Transaction)
  | safeAdd
  | incr
  | unlock
  | getAll (service : String)
  | getKeys (keys : List String)
  | get
  | delete
  | report
  | answer (ok : Bool)
  | returnNext (credential : String) (metrics : List (String × Int))
  | returned

/-- The use of the lock of a service in a step. -/
inductive Locking
  | keep
  | lock (service : String)
  | unlock (service : String)

/-- What one step of a thread does to the dictionary, to the thread and to the locks. -/
structure Outcome where
  storage : Storage
  phase : Phase
  locking : Locking := .keep

/-- Where a thread goes on after `ReportsBatcher:add` has returned. -/
def Phase.resume : Option ReportsBatch → Phase
  | none => .idle
  | some batch => .returning batch

/-- The next metric of the loop of `ReportsBatcher:add`. The dictionary may refuse to
overwrite an entry, which is incremented in a second operation. -/
def safeAddReport (storage : Storage) (transaction : Transaction) (metric : String)
    (metrics : List String) (returning : Option ReportsBatch) : Outcome :=
  let key := keyForBatchedReport transaction.serviceId transaction.credentials metric
  match storage.add key (transaction.usage.delta metric) with
  | (storage, .ok ()) => { storage, phase := .adding transaction metrics returning }
  | (storage, .error .exists) =>
      { storage, phase := .incrementing transaction metric metrics returning }
  | (storage, .error _) => { storage, phase := .adding transaction metrics returning }

def incrReport (storage : Storage) (transaction : Transaction) (metric : String)
    (metrics : List String) (returning : Option ReportsBatch) : Outcome :=
  let key := keyForBatchedReport transaction.serviceId transaction.credentials metric
  { storage := (storage.incr key (transaction.usage.delta metric) none).1
    phase := .adding transaction metrics returning }

/-- The next key of the loop of `ReportsBatcher:get_all`. -/
def getReport (storage : Storage) (service key : String) (keys : List String)
    (reports : List Report) : Outcome :=
  match storage.get key with
  | none => { storage, phase := .flushing service keys reports }
  | some value =>
      match reportFromKeyBatchedReport key value with
      | .error _ => { storage, phase := .flushing service keys reports }
      | .ok report =>
          if value > 0 ∧ report.serviceId = service then
            { storage, phase := .deleting service key report keys reports }
          else { storage, phase := .flushing service keys reports }

/-- The start of `reporter.report`. A batch that cannot be built ends the thread. -/
def sendReports (storage : Storage) (service : String) (reports : List Report) : Outcome :=
  match reports with
  | [] => { storage, phase := .idle }
  | report :: reports =>
      match ReportsBatch.new service (report :: reports) with
      | some batch => { storage, phase := .reporting batch }
      | none => { storage, phase := .idle }

/-- The next credential of the loop of `return_reports`, which goes through the tables in
any order. -/
def returnReports (storage : Storage) (batch : ReportsBatch) (credential : String)
    (metrics : List (String × Int)) : Option Outcome :=
  match batch.reports.get credential, batch.credentialsType with
  | some table, some type =>
      if metrics.Perm table.pairs then
        let transaction := batch.transaction type credential metrics
        some
          { storage
            phase := .adding transaction transaction.usage.metrics (batch.without credential)
            locking := .lock batch.serviceId }
      else none
  | _, _ => none

/-- One step of a thread. -/
def move (storage : Storage) : Phase → Action → Option Outcome
  | .idle, .add transaction =>
      some
        { storage
          phase := .adding transaction transaction.usage.metrics none
          locking := .lock transaction.serviceId }
  | .adding transaction (metric :: metrics) returning, .safeAdd =>
      some (safeAddReport storage transaction metric metrics returning)
  | .incrementing transaction metric metrics returning, .incr =>
      some (incrReport storage transaction metric metrics returning)
  | .adding transaction [] returning, .unlock =>
      some { storage, phase := .resume returning, locking := .unlock transaction.serviceId }
  | .idle, .getAll service =>
      some { storage, phase := .listing service, locking := .lock service }
  | .listing service, .getKeys keys =>
      if keys.Nodup ∧ ∀ key ∈ keys, (storage.get key).isSome then
        some { storage, phase := .flushing service keys [] }
      else none
  | .flushing service (key :: keys) reports, .get =>
      some (getReport storage service key keys reports)
  | .deleting service key report keys reports, .delete =>
      some { storage := storage.delete key, phase := .flushing service keys (reports ++ [report]) }
  | .flushing service [] reports, .unlock =>
      some { storage, phase := .handedOut service reports, locking := .unlock service }
  | .handedOut service reports, .report => some (sendReports storage service reports)
  | .reporting batch, .answer ok =>
      some { storage, phase := if ok then .idle else .returning batch }
  | .returning batch, .returnNext credential metrics =>
      returnReports storage batch credential metrics
  | .returning batch, .returned =>
      if batch.reports.entries = [] then some { storage, phase := .idle } else none
  | _, _ => none

section Machine

variable (Thread : Type*) [DecidableEq Thread]

/-- The dictionary, the locks and the threads, together with what transactions of requests
have added and what the backend has accepted so far. -/
structure BatcherState where
  storage : Storage
  locks : String → Option Thread
  threads : Thread → Phase
  added : Account → Int
  delivered : Account → Int

variable {Thread}

/-- The locks after a thread has used one, unless it has to wait. -/
def relock (locks : String → Option Thread) (thread : Thread) :
    Locking → Option (String → Option Thread)
  | .keep => some locks
  | .lock service =>
      if locks service = none then some (Function.update locks service (some thread)) else none
  | .unlock service => some (Function.update locks service none)

/-- What a step passes to the batcher for a request. -/
def addedBy (account : Account) : Action → Int
  | .add transaction => transaction.amount account
  | _ => 0

/-- What a step delivers to the backend with success. -/
def deliveredBy (account : Account) : Phase → Action → Int
  | .reporting batch, .answer true => batch.amount account
  | _, _ => 0

/-- A step of one of the threads. -/
def BatcherState.next (state : BatcherState Thread) (step : Thread × Action) :
    Option (BatcherState Thread) :=
  let phase := state.threads step.1
  (move state.storage phase step.2).bind fun outcome =>
    (relock state.locks step.1 outcome.locking).map fun locks =>
      { storage := outcome.storage
        locks
        threads := Function.update state.threads step.1 outcome.phase
        added := fun account => state.added account + addedBy account step.2
        delivered := fun account => state.delivered account + deliveredBy account phase step.2 }

variable (Thread)

/-- All interleavings of the threads, from an empty dictionary on. -/
def batcher : Machine (BatcherState Thread) (Thread × Action) where
  initial :=
    { storage := ∅
      locks := fun _ => none
      threads := fun _ => .idle
      added := fun _ => 0
      delivered := fun _ => 0 }
  next := BatcherState.next

end Machine

end Apicast.Batcher
