import Mathlib.Data.List.Sort
import Mathlib.Data.List.Destutter
import Mathlib.Data.PNat.Basic
import AegisCognition.Foundation.Machine
import AegisCognition.Foundation.OrderedMap

/-!
# The task ledger

Task cards keyed by their id, the status machine they follow, and the retry policy.
Every operation returns its result together with the next ledger.

The ledger also carries the caches of its priority computation. The operations below
never read them; they drop those that a change makes stale, as the source does.
-/

namespace Aegis.Task

open Std Foundation

structure RetryPolicy where
  maxTotalAttempts : Nat
  initialBackoffMs : Nat
  maxBackoffMs : Nat
  deriving DecidableEq

/-- `RetryPolicy::default`. -/
def RetryPolicy.standard : RetryPolicy where
  maxTotalAttempts := 3
  initialBackoffMs := 2000
  maxBackoffMs := 4000

/-- The exponent is at most 63, so the checked shift of the source always succeeds. -/
def RetryPolicy.delayAfter (policy : RetryPolicy) (completedAttemptId : Nat) : Option Nat :=
  if completedAttemptId = 0 ∨ policy.maxTotalAttempts ≤ completedAttemptId then none
  else
    let multiplier := 2 ^ min (completedAttemptId - 1) 63
    let delay := min (saturatingMul u64Max policy.initialBackoffMs multiplier)
      policy.maxBackoffMs
    if 0 < delay then some delay else none

inductive TaskStatus where
  | pending
  | ready
  | admitted
  | running
  | retryWait
  | cancelling
  | done
  | failed
  | cancelled
  | timedOut
  | needsReconciliation
  deriving DecidableEq

namespace TaskStatus

def canTransitionTo : TaskStatus → TaskStatus → Bool
  | .pending, .ready | .pending, .cancelled | .pending, .timedOut => true
  | .ready, .admitted | .ready, .cancelled | .ready, .timedOut => true
  | .admitted, .running | .admitted, .cancelling | .admitted, .timedOut
  | .admitted, .needsReconciliation => true
  | .running, .done | .running, .failed | .running, .retryWait | .running, .cancelling
  | .running, .timedOut | .running, .needsReconciliation => true
  | .retryWait, .cancelled | .retryWait, .timedOut => true
  | .cancelling, .cancelled | .cancelling, .failed | .cancelling, .needsReconciliation => true
  | _, _ => false

def isTerminal : TaskStatus → Bool
  | .done | .failed | .cancelled | .timedOut => true
  | _ => false

/-- The derived debug form, which error messages embed. -/
def debug : TaskStatus → String
  | .pending => "Pending"
  | .ready => "Ready"
  | .admitted => "Admitted"
  | .running => "Running"
  | .retryWait => "RetryWait"
  | .cancelling => "Cancelling"
  | .done => "Done"
  | .failed => "Failed"
  | .cancelled => "Cancelled"
  | .timedOut => "TimedOut"
  | .needsReconciliation => "NeedsReconciliation"

end TaskStatus

structure TaskCard where
  taskId : Nat
  attemptId : Nat
  status : TaskStatus
  dependencyIds : List Nat
  deterministicPriorityScore : Nat
  suggestedPriority : Option Int
  criticalPathLen : Nat
  blockedDescendantCount : Nat
  evidenceUnblockCount : Nat
  hardDeadlineMs : Option Nat
  retryNotBeforeMs : Option ℕ+
  insertionOrder : Nat
  deriving DecidableEq

namespace TaskCard

def new (taskId : Nat) (dependencyIds : List Nat) (evidenceUnblockCount : Nat)
    (hardDeadlineMs : Option Nat) (suggestedPriority : Option Int) : TaskCard where
  taskId := taskId
  attemptId := 1
  status := .pending
  dependencyIds := dependencyIds
  deterministicPriorityScore := 0
  suggestedPriority := suggestedPriority
  criticalPathLen := 0
  blockedDescendantCount := 0
  evidenceUnblockCount := evidenceUnblockCount
  hardDeadlineMs := hardDeadlineMs
  retryNotBeforeMs := none
  insertionOrder := 0

/-- A retry may not start: no start time is known, or it lies ahead. -/
def backoffPending (task : TaskCard) (nowMs : Nat) : Bool :=
  task.retryNotBeforeMs.all fun notBeforeMs => nowMs < notBeforeMs

def deadlinePassed (task : TaskCard) (nowMs : Nat) : Bool :=
  task.hardDeadlineMs.any (· ≤ nowMs)

/-- The card under a new status; only a waiting retry keeps its start time. -/
def withStatus (task : TaskCard) (status : TaskStatus) : TaskCard :=
  if task.status = status then task
  else
    { task with
      status := status
      retryNotBeforeMs := if status = .retryWait then task.retryNotBeforeMs else none }

end TaskCard

inductive TaskLedgerError where
  | duplicateTask (taskId : Nat)
  | missingTask (taskId : Nat)
  | missingDependency (taskId : Nat)
  | invalidTask (taskId : Nat)
  | invalidAttempt (taskId : Nat)
  | invalidStatusTransition (taskId : Nat) (source target : TaskStatus)
  | cycleDetected
  deriving DecidableEq

/-- The derived debug form. -/
def TaskLedgerError.debug : TaskLedgerError → String
  | .duplicateTask taskId => "DuplicateTask(" ++ toString taskId ++ ")"
  | .missingTask taskId => "MissingTask(" ++ toString taskId ++ ")"
  | .missingDependency taskId => "MissingDependency(" ++ toString taskId ++ ")"
  | .invalidTask taskId => "InvalidTask(" ++ toString taskId ++ ")"
  | .invalidAttempt taskId => "InvalidAttempt(" ++ toString taskId ++ ")"
  | .invalidStatusTransition taskId source target =>
      "InvalidStatusTransition \x7b task_id: " ++ toString taskId ++ ", from: " ++
        source.debug ++ ", to: " ++ target.debug ++ " \x7d"
  | .cycleDetected => "CycleDetected"

structure TaskGraphCache where
  topologicalOrder : List Nat
  childrenByIndex : List (List Nat)
  isDependencyForest : Bool
  topologicalOrderMatchesTaskOrder : Bool
  deriving DecidableEq

structure PriorityMetricCache where
  stateEpoch : Nat
  criticalPathByIndex : List Nat
  blockedDescendantsByIndex : List Nat
  deriving DecidableEq

structure ReadyCandidateCache where
  stateEpoch : Nat
  taskIds : List Nat
  deriving DecidableEq

structure ReadyQueueCache where
  nowMs : Nat
  stateEpoch : Nat
  taskIds : List Nat
  deriving DecidableEq

structure TaskLedger where
  tasks : ExtTreeMap Nat TaskCard
  retryPolicy : RetryPolicy
  deadlineHorizonMs : Nat
  nextInsertionOrder : Nat
  stateEpoch : Nat
  graphCache : Option TaskGraphCache
  priorityMetricCache : Option PriorityMetricCache
  readyCandidateCache : Option ReadyCandidateCache
  readyCache : Option ReadyQueueCache
  deriving DecidableEq

namespace TaskLedger

def new (deadlineHorizonMs : Nat) : TaskLedger where
  tasks := ∅
  retryPolicy := .standard
  deadlineHorizonMs := deadlineHorizonMs
  nextInsertionOrder := 1
  stateEpoch := 0
  graphCache := none
  priorityMetricCache := none
  readyCandidateCache := none
  readyCache := none

section

variable (ledger : TaskLedger)

def bumpStateEpoch : TaskLedger :=
  { ledger with
    stateEpoch := saturatingAdd u64Max ledger.stateEpoch 1
    priorityMetricCache := none
    readyCandidateCache := none
    readyCache := none }

/-- The ledger with one card replaced, in a new epoch. -/
def put (taskId : Nat) (task : TaskCard) : TaskLedger :=
  bumpStateEpoch { ledger with tasks := ledger.tasks.insert taskId task }

def task (taskId : Nat) : Option TaskCard :=
  ledger.tasks[taskId]?

/-- The card as the ledger stores it: dependencies in order and without repetition. -/
def filed (task : TaskCard) : TaskCard :=
  { task with
    dependencyIds := (task.dependencyIds.insertionSort (· ≤ ·)).destutter (· ≠ ·)
    insertionOrder := ledger.nextInsertionOrder }

def insertTask (task : TaskCard) : Except TaskLedgerError Unit × TaskLedger :=
  if task.taskId = 0 ∨ task.dependencyIds.any (fun id => id = 0 ∨ id = task.taskId) then
    (.error (.invalidTask task.taskId), ledger)
  else if task.attemptId = 0 ∨ ledger.retryPolicy.maxTotalAttempts < task.attemptId then
    (.error (.invalidAttempt task.taskId), ledger)
  else if (ledger.task task.taskId).isSome then
    (.error (.duplicateTask task.taskId), ledger)
  else
    (.ok (),
      put
        { ledger with
          nextInsertionOrder := saturatingAdd u64Max ledger.nextInsertionOrder 1
          graphCache := none }
        task.taskId (ledger.filed task))

/-- Setting the status a task already has changes nothing, not even the epoch. -/
def setStatus (taskId : Nat) (status : TaskStatus) : Except TaskLedgerError Unit × TaskLedger :=
  match ledger.task taskId with
  | none => (.error (.missingTask taskId), ledger)
  | some task =>
      if task.status = status then (.ok (), ledger)
      else (.ok (), ledger.put taskId (task.withStatus status))

def validateStatusTransition (taskId : Nat) (status : TaskStatus) : Except TaskLedgerError Unit :=
  match ledger.task taskId with
  | none => .error (.missingTask taskId)
  | some task =>
      if task.status = status ∨ task.status.canTransitionTo status then .ok ()
      else .error (.invalidStatusTransition taskId task.status status)

def transitionStatus (taskId : Nat) (status : TaskStatus) :
    Except TaskLedgerError Unit × TaskLedger :=
  match ledger.validateStatusTransition taskId status with
  | .error error => (.error error, ledger)
  | .ok () => ledger.setStatus taskId status

def retryDelayAfterCurrentAttempt (taskId : Nat) : Option Nat :=
  (ledger.task taskId).bind fun task => ledger.retryPolicy.delayAfter task.attemptId

def validateRetryWait (taskId notBeforeMs : Nat) : Except TaskLedgerError Unit :=
  match ledger.task taskId with
  | none => .error (.missingTask taskId)
  | some task =>
      if task.status ≠ .running ∨ task.status.canTransitionTo .retryWait = false ∨
          ledger.retryPolicy.delayAfter task.attemptId = none ∨
          task.deadlinePassed notBeforeMs then
        .error (.invalidStatusTransition taskId task.status .retryWait)
      else .ok ()

def scheduleRetryWait (taskId notBeforeMs : Nat) : Except TaskLedgerError Unit × TaskLedger :=
  if h : 0 < notBeforeMs then
    match ledger.validateRetryWait taskId notBeforeMs with
    | .error error => (.error error, ledger)
    | .ok () =>
        match ledger.task taskId with
        | none => (.error (.missingTask taskId), ledger)
        | some task =>
            (.ok (),
              ledger.put taskId
                { task with retryNotBeforeMs := some ⟨notBeforeMs, h⟩, status := .retryWait })
  else (.error (.invalidAttempt taskId), ledger)

def validateRetryStart (taskId attemptId nowMs : Nat) : Except TaskLedgerError Unit :=
  match ledger.task taskId with
  | none => .error (.missingTask taskId)
  | some task =>
      if task.status ≠ .retryWait ∨ checkedAdd u64Max task.attemptId 1 ≠ some attemptId ∨
          ledger.retryPolicy.maxTotalAttempts < attemptId ∨ task.backoffPending nowMs ∨
          task.deadlinePassed nowMs then
        .error (.invalidAttempt taskId)
      else if TaskStatus.canTransitionTo .ready .admitted &&
          TaskStatus.canTransitionTo .admitted .running then
        .ok ()
      else .error (.invalidStatusTransition taskId task.status .running)

def startRetryAttempt (taskId attemptId nowMs : Nat) : Except TaskLedgerError Unit × TaskLedger :=
  match ledger.validateRetryStart taskId attemptId nowMs with
  | .error error => (.error error, ledger)
  | .ok () =>
      match ledger.task taskId with
      | none => (.error (.missingTask taskId), ledger)
      | some task =>
          (.ok (),
            ledger.put taskId
              { task with attemptId := attemptId, retryNotBeforeMs := none, status := .running })

def dependenciesAreDone (task : TaskCard) : Bool :=
  task.dependencyIds.all fun dependencyId =>
    ((ledger.task dependencyId).map fun dependency =>
      decide (dependency.status = .done)).getD false

end

end TaskLedger

end Aegis.Task
