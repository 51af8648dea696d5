import AegisCognition.Replay.Event
import AegisCognition.Task.Graph
import AegisCognition.Task.Transition

/-!
# The ready queue

The tasks that may start are kept as a list of candidates, and once more in the order of their
priorities at one time. The proof of a selection binds the queue and the whole ledger by hashes.
The hash function is a parameter.
-/

namespace Aegis.Task

open Std Foundation OrderedMap Replay

/-- Higher scores first, then earlier deadlines, then smaller ids. -/
def priorityOrder (left right : TaskCard) : Ordering :=
  (compare right.deterministicPriorityScore left.deterministicPriorityScore).then <|
    (compare (left.hardDeadlineMs.getD u64Max) (right.hardDeadlineMs.getD u64Max)).then <|
      (compare left.taskId right.taskId).then (compare left.insertionOrder right.insertionOrder)

/-- The ids of tasks in the order of their priorities. -/
def sortByPriority (tasks : ExtTreeMap Nat TaskCard) (taskIds : List Nat) : List Nat :=
  ((taskIds.filterMap (tasks[·]?)).mergeSort fun left right =>
    (priorityOrder left right).isLE).map TaskCard.taskId

namespace TaskLedger

/-- The tasks that may start, in the order of their ids. -/
def candidateIds (ledger : TaskLedger) : List Nat :=
  ((OrderedMap.valueList ledger.tasks).filter fun task =>
    task.status.canEnterReadyQueue && ledger.dependenciesAreDone task).map TaskCard.taskId

/-- The candidates, and the ledger that keeps them. -/
def readyCandidateIds (ledger : TaskLedger) : List Nat × TaskLedger :=
  let current := ledger.readyCandidateCache.filter fun cache =>
    cache.stateEpoch = ledger.stateEpoch
  match current with
  | some cache => (cache.taskIds, ledger)
  | none =>
      let taskIds := ledger.candidateIds
      (taskIds, { ledger with readyCandidateCache := some ⟨ledger.stateEpoch, taskIds⟩ })

def orderedReadyTasks (ledger : TaskLedger) (nowMs : Nat) :
    Except TaskLedgerError (List Nat) × TaskLedger :=
  let current := ledger.readyCache.filter fun cache =>
    cache.nowMs = nowMs ∧ cache.stateEpoch = ledger.stateEpoch
  match current with
  | some cache => (.ok cache.taskIds, ledger)
  | none =>
      match ledger.recomputePriorities nowMs with
      | (.error error, ledger) => (.error error, ledger)
      | (.ok (), ledger) =>
          let (readyIds, ledger) := ledger.readyCandidateIds
          let taskIds := sortByPriority ledger.tasks readyIds
          (.ok taskIds, { ledger with readyCache := some ⟨nowMs, ledger.stateEpoch, taskIds⟩ })

def selectNextTask (ledger : TaskLedger) (nowMs : Nat) :
    Except TaskLedgerError (Option Nat) × TaskLedger :=
  let (ready, ledger) := ledger.orderedReadyTasks nowMs
  (ready.map List.head?, ledger)

end TaskLedger

/-! ### What a selection proof binds -/

def u32Le : Nat → List UInt8 := leBytes 4
def u64Le : Nat → List UInt8 := leBytes 8
def u128Le : Nat → List UInt8 := leBytes 16

/-- An optional number, with a tag byte before it. -/
def optionalU64 : Option Nat → List UInt8
  | none => [0]
  | some value => 1 :: u64Le value

/-- Two's complement. -/
def optionalI64 : Option Int → List UInt8
  | none => [0]
  | some value => 1 :: u64Le (BitVec.ofInt 64 value).toNat

def TaskStatus.code : TaskStatus → UInt8
  | .pending => 1
  | .ready => 2
  | .admitted => 3
  | .running => 4
  | .retryWait => 5
  | .cancelling => 6
  | .done => 7
  | .failed => 8
  | .cancelled => 9
  | .timedOut => 10
  | .needsReconciliation => 11

section Hashing

def taskDependencyMessage (dependencyIds : List Nat) : List UInt8 :=
  utf8Bytes "aegis-task-dependency-set-v1" ++ u64Le dependencyIds.length ++
    dependencyIds.flatMap u128Le

variable (blake3 : Hasher)

def taskDependencyHash (dependencyIds : List Nat) : Hash :=
  blake3 (taskDependencyMessage dependencyIds)

def taskCardStateMessage (task : TaskCard) : List UInt8 :=
  utf8Bytes "aegis-task-card-state-v2" ++ u128Le task.taskId ++ u64Le task.attemptId ++
    [task.status.code] ++ (taskDependencyHash blake3 task.dependencyIds).bytes ++
    u64Le task.deterministicPriorityScore ++ optionalI64 task.suggestedPriority ++
    u32Le task.criticalPathLen ++ u32Le task.blockedDescendantCount ++
    u32Le task.evidenceUnblockCount ++ optionalU64 task.hardDeadlineMs ++
    optionalU64 (task.retryNotBeforeMs.map PNat.val) ++ u64Le task.insertionOrder

def taskCardStateHash (task : TaskCard) : Hash := blake3 (taskCardStateMessage blake3 task)

/-- The id of a task and the hash of its card. -/
def taskEntryBytes (entry : Nat × TaskCard) : List UInt8 :=
  u128Le entry.1 ++ (taskCardStateHash blake3 entry.2).bytes

def taskLedgerStateMessage (stateEpoch deadlineHorizonMs : Nat) (retryPolicy : RetryPolicy)
    (tasks : ExtTreeMap Nat TaskCard) : List UInt8 :=
  utf8Bytes "aegis-task-ledger-state-v2" ++ u64Le stateEpoch ++ u64Le deadlineHorizonMs ++
    u64Le retryPolicy.maxTotalAttempts ++ u64Le retryPolicy.initialBackoffMs ++
    u64Le retryPolicy.maxBackoffMs ++ u64Le tasks.size ++
    tasks.toList.flatMap (taskEntryBytes blake3)

def taskLedgerStateHash (stateEpoch deadlineHorizonMs : Nat) (retryPolicy : RetryPolicy)
    (tasks : ExtTreeMap Nat TaskCard) : Hash :=
  blake3 (taskLedgerStateMessage blake3 stateEpoch deadlineHorizonMs retryPolicy tasks)

/-- What the queue hash takes of one ready task. -/
def readyTaskBytes (tasks : ExtTreeMap Nat TaskCard) (taskId : Nat) :
    Except TaskLedgerError (List UInt8) :=
  match tasks[taskId]? with
  | none => .error (.missingTask taskId)
  | some task =>
      .ok (u128Le taskId ++ u64Le task.deterministicPriorityScore ++
        optionalU64 task.hardDeadlineMs ++ u64Le task.insertionOrder ++
        (taskDependencyHash blake3 task.dependencyIds).bytes ++
        (taskCardStateHash blake3 task).bytes)

def taskReadyQueueHash (nowMs stateEpoch deadlineHorizonMs : Nat) (readyTaskIds : List Nat)
    (tasks : ExtTreeMap Nat TaskCard) : Except TaskLedgerError Hash := do
  let entries ← readyTaskIds.mapM (readyTaskBytes blake3 tasks)
  return blake3 (utf8Bytes "aegis-task-ready-queue-v2" ++ u64Le nowMs ++ u64Le stateEpoch ++
    u64Le deadlineHorizonMs ++ u64Le readyTaskIds.length ++ entries.flatten)

structure TaskSelectionProof where
  nowMs : Nat
  stateEpoch : Nat
  deadlineHorizonMs : Nat
  taskCount : Nat
  readyCount : Nat
  selectedTaskId : Nat
  selectedPriorityScore : Nat
  selectedDependencyHash : Hash
  ledgerStateHash : Hash
  readyQueueHash : Hash
  proofHash : Hash
  deriving DecidableEq

namespace TaskSelectionProof

/-- `task_selection_proof_hash`. -/
def computedHash (proof : TaskSelectionProof) : Hash :=
  blake3 (utf8Bytes "aegis-task-selection-proof-v2" ++ u64Le proof.nowMs ++
    u64Le proof.stateEpoch ++ u64Le proof.deadlineHorizonMs ++ u32Le proof.taskCount ++
    u32Le proof.readyCount ++ u128Le proof.selectedTaskId ++ u64Le proof.selectedPriorityScore ++
    proof.selectedDependencyHash.bytes ++ proof.ledgerStateHash.bytes ++
    proof.readyQueueHash.bytes)

def hasValidFields (proof : TaskSelectionProof) : Bool :=
  0 < proof.taskCount && 0 < proof.readyCount && proof.readyCount ≤ proof.taskCount &&
    0 < proof.selectedTaskId && nonzeroHash proof.selectedDependencyHash &&
    nonzeroHash proof.ledgerStateHash && nonzeroHash proof.readyQueueHash &&
    proof.proofHash = proof.computedHash blake3 && nonzeroHash proof.proofHash

end TaskSelectionProof

namespace TaskLedger

def ledgerStateHash (ledger : TaskLedger) : Except TaskLedgerError Hash := do
  ledger.validateDependencies
  return taskLedgerStateHash blake3 ledger.stateEpoch ledger.deadlineHorizonMs ledger.retryPolicy
    ledger.tasks

/-- The proof that the first of the ready tasks is selected. -/
def proveSelection (ledger : TaskLedger) (nowMs : Nat) (readyTaskIds : List Nat) :
    Except TaskLedgerError (Option TaskSelectionProof) :=
  match readyTaskIds.head? with
  | none => .ok none
  | some selectedTaskId =>
      match ledger.task selectedTaskId with
      | none => .error (.missingTask selectedTaskId)
      | some selectedTask => do
          let ledgerStateHash ← ledger.ledgerStateHash blake3
          let readyQueueHash ← taskReadyQueueHash blake3 nowMs ledger.stateEpoch
            ledger.deadlineHorizonMs readyTaskIds ledger.tasks
          let unbound : TaskSelectionProof := {
            nowMs := nowMs
            stateEpoch := ledger.stateEpoch
            deadlineHorizonMs := ledger.deadlineHorizonMs
            taskCount := min ledger.tasks.size u32Max
            readyCount := min readyTaskIds.length u32Max
            selectedTaskId := selectedTaskId
            selectedPriorityScore := selectedTask.deterministicPriorityScore
            selectedDependencyHash := taskDependencyHash blake3 selectedTask.dependencyIds
            ledgerStateHash := ledgerStateHash
            readyQueueHash := readyQueueHash
            proofHash := .zero }
          let proof := { unbound with proofHash := unbound.computedHash blake3 }
          if proof.hasValidFields blake3 then .ok (some proof)
          else .error (.invalidTask selectedTaskId)

def selectNextTaskProof (ledger : TaskLedger) (nowMs : Nat) :
    Except TaskLedgerError (Option TaskSelectionProof) × TaskLedger :=
  match ledger.orderedReadyTasks nowMs with
  | (.error error, ledger) => (.error error, ledger)
  | (.ok readyTaskIds, ledger) => (ledger.proveSelection blake3 nowMs readyTaskIds, ledger)

end TaskLedger

end Hashing

/-! ### Completion -/

/-- The status that a task takes next on its way to `done`. -/
def TaskStatus.towardsDone : TaskStatus → Option TaskStatus
  | .pending => some .ready
  | .ready => some .admitted
  | .admitted => some .running
  | .running => some .done
  | .retryWait => some .ready
  | .done | .failed | .cancelled | .timedOut | .cancelling | .needsReconciliation => none

/-- The steps that lie between a status and `done`; none lead there from an outcome. -/
def TaskStatus.stepsToDone : TaskStatus → Nat
  | .pending | .retryWait => 4
  | .ready => 3
  | .admitted => 2
  | .running => 1
  | _ => 0

/-- The statuses from which a task gets to `done`. A task that waits for a retry does not: the
step that the loop tries is not allowed. -/
def TaskStatus.completes : TaskStatus → Bool
  | .pending | .ready | .admitted | .running | .done => true
  | _ => false

theorem TaskStatus.completes_ahead {status : TaskStatus} (h : status.completes = true)
    (hdone : status ≠ .done) :
    ∃ next, status.towardsDone = some next ∧ status.canTransitionTo next = true ∧
      next ≠ .retryWait ∧ next.completes = true ∧ next.stepsToDone < status.stepsToDone := by
  cases status <;> first | exact absurd rfl hdone | exact ⟨_, rfl, by decide⟩ | cases h

theorem TaskStatus.not_allowed_of_not_completes {status next : TaskStatus}
    (h : status.completes = false) (towards : status.towardsDone = some next) :
    ¬ (status = next ∨ status.canTransitionTo next = true) := by
  cases status <;> cases h <;> cases towards
  decide

theorem TaskCard.withStatus_done {card : TaskCard} {status : TaskStatus}
    (hdone : card.status ≠ .done) (kept : status ≠ .retryWait) :
    (card.withStatus status).withStatus .done = card.withStatus .done := by
  by_cases last : status = .done
  · rw [last, withStatus_withStatus]
  · by_cases same : card.status = status
    · rw [withStatus.eq_def card status, if_pos same]
    · simp [withStatus, same, last, kept, hdone]

namespace TaskLedger

/-- At most four steps lie between a status and `done`, and one more finds the task there. -/
def completeLoop : Nat → TaskLedger → Nat → Except TaskLedgerError Unit × TaskLedger
  | 0, ledger, taskId => (.error (.missingTask taskId), ledger)
  | fuel + 1, ledger, taskId =>
      match ledger.task taskId with
      | none => (.error (.missingTask taskId), ledger)
      | some task =>
          if task.status = .done then (.ok (), ledger)
          else
            match task.status.towardsDone with
            | none => (.error (.invalidStatusTransition taskId task.status .done), ledger)
            | some status =>
                match ledger.transitionStatus taskId status with
                | (.error error, ledger) => (.error error, ledger)
                | (.ok (), ledger) => completeLoop fuel ledger taskId

def completeTask (ledger : TaskLedger) (taskId : Nat) : Except TaskLedgerError Unit × TaskLedger :=
  completeLoop 5 ledger taskId

/-- Every round of the loop takes a task that completes one step further. -/
theorem completeLoop_of_completes {ledger : TaskLedger} {taskId fuel : Nat} {card : TaskCard}
    (found : ledger.task taskId = some card) (h : card.status.completes = true)
    (enough : card.status.stepsToDone < fuel) :
    ∃ next, completeLoop fuel ledger taskId = (.ok (), next) ∧
      Replaced ledger taskId (card.withStatus .done) next := by
  induction fuel generalizing ledger card with
  | zero => exact absurd enough (Nat.not_lt_zero _)
  | succ fuel ih =>
      simp only [completeLoop, found]
      by_cases hdone : card.status = .done
      · refine ⟨ledger, if_pos hdone, ?_, rfl⟩
        rw [TaskCard.withStatus, if_pos hdone]
        exact (insert_self found).symm
      · obtain ⟨status, towards, allowed, kept, completes, ahead⟩ :=
          TaskStatus.completes_ahead h hdone
        obtain ⟨middle, moved, replaced⟩ :=
          transitionStatus_of_allowed found (.inr allowed)
        obtain ⟨next, he, later⟩ := ih replaced.task_self
          (by rwa [TaskCard.withStatus_status])
          (by rw [TaskCard.withStatus_status]; omega)
        rw [if_neg hdone, towards]
        simp only [moved]
        rw [TaskCard.withStatus_done hdone kept] at later
        exact ⟨next, he, replaced.trans later⟩

theorem completeTask_all_or_nothing (ledger : TaskLedger) (taskId : Nat) :
    (∃ card next, ledger.task taskId = some card ∧ card.status.completes = true ∧
      ledger.completeTask taskId = (.ok (), next) ∧
      Replaced ledger taskId (card.withStatus .done) next) ∨
    (∃ card status, ledger.task taskId = some card ∧ card.status.completes = false ∧
      ledger.completeTask taskId =
        (.error (.invalidStatusTransition taskId card.status status), ledger)) ∨
    (ledger.task taskId = none ∧
      ledger.completeTask taskId = (.error (.missingTask taskId), ledger)) := by
  cases found : ledger.task taskId with
  | none => exact .inr (.inr ⟨rfl, by simp only [completeTask, completeLoop, found]⟩)
  | some card =>
      cases completes : card.status.completes with
      | true =>
          have enough : card.status.stepsToDone < 5 := by cases card.status <;> decide
          obtain ⟨next, he, replaced⟩ := completeLoop_of_completes found completes enough
          exact .inl ⟨card, next, rfl, completes, he, replaced⟩
      | false =>
          have hdone : card.status ≠ .done := by
            intro done
            rw [done] at completes
            cases completes
          cases towards : card.status.towardsDone with
          | none =>
              refine .inr (.inl ⟨card, .done, rfl, completes, ?_⟩)
              simp only [completeTask, completeLoop, found, if_neg hdone, towards]
          | some status =>
              have refused := TaskStatus.not_allowed_of_not_completes completes towards
              refine .inr (.inl ⟨card, status, rfl, completes, ?_⟩)
              simp only [completeTask, completeLoop, found, if_neg hdone, towards,
                transitionStatus, validateStatusTransition, if_neg refused]

def markStatus (ledger : TaskLedger) (taskId : Nat) (status : TaskStatus) :
    Except TaskLedgerError Unit × TaskLedger :=
  ledger.transitionStatus taskId status

end TaskLedger

end Aegis.Task
