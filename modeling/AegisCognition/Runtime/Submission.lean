import AegisCognition.Runtime.Operation

/-!
# Failed submissions

A submission that fails its first checks changes nothing. After them the card is filed and made
ready, and only then the attempt is tried: on a full lane it has to join the queue, and where the
queue does not take it the submission fails with the card left in the ledger. A free lane never
leads to an error.
-/

namespace Aegis.Runtime

open Std Foundation Resource Aegis.Task

namespace AuthoritativeRuntime

variable {runtime : AuthoritativeRuntime} {task card : TaskCard} {request : ResourceRequest}
variable {nowMs : Nat} {attemptKind : AttemptKind}

/-- The queue takes the request. -/
def Enqueueable (controller : AdmissionController) (request : ResourceRequest) (nowMs : Nat) :
    Prop :=
  request.validate nowMs = .ok () ∧ controller.queuedRequests.length < controller.queueLimit

instance {controller : AdmissionController} {nowMs : Nat} :
    Decidable (Enqueueable controller request nowMs) :=
  inferInstanceAs (Decidable (_ ∧ _))

/-- An attempt that passes the checks before admission fails only on a full lane, for a request that
the queue does not take. -/
theorem admitExisting_error_iff (fresh : request.key ∉ runtime.admission.queuedAttempts)
    (passes : runtime.attemptRefusal request nowMs attemptKind = none) :
    (∃ error, (runtime.admitExisting request nowMs attemptKind).1 = some (.error error)) ↔
      runtime.lanes.hasRoom (laneForWorkKind request.workKind) = false ∧
        ¬ Enqueueable runtime.admission request nowMs := by
  obtain ⟨card, ledger, -, -, -, starts, -⟩ :=
    attemptRefusal_none passes (runtime.admission.issueLease request nowMs) rfl rfl
  simp only [admitExisting, passes]
  obtain ⟨acquire, full⟩ | ⟨limit, -, -, room, acquire⟩ :=
    runtime.lanes.tryAcquire_cases (laneForWorkKind request.workKind)
  · simp only [acquire]
    obtain ⟨error, he, refused⟩ | ⟨position, he, taken⟩ := enqueue_of_fresh fresh nowMs
    · rw [he]
      exact iff_of_true ⟨_, rfl⟩ ⟨full, refused⟩
    · rw [he]
      exact iff_of_false (fun failed => by cases failed.choose_spec) fun lost => lost.2 taken
  · simp only [acquire]
    refine iff_of_false ?_ fun lost => by
      rw [room] at lost
      cases lost.1
    rintro ⟨error, failed⟩
    obtain ⟨reason, he, -⟩ | ⟨position, reason, next, he, -⟩ | ⟨he, -⟩ | ⟨he, -⟩ :=
      runtime.admission.admitRequest_cases request nowMs
    · simp only [he] at failed
      cases failed
    · simp only [he] at failed
      cases failed
    · simp only [he, starts] at failed
      cases failed
    · simp only [he] at failed
      cases failed

/-- A submission that passes the first checks goes on to admission with its card filed. -/
theorem submit_of_files (files : Files runtime task request) (nowMs : Nat) :
    ∃ ledger, runtime.submit task request nowMs =
        (runtime.withLedger ledger).admitExisting
          (constrainRequestToTaskDeadline request task.hardDeadlineMs) nowMs .initial ∧
      TaskLedger.Replaced runtime.ledger task.taskId (runtime.submittedCard task) ledger ∧
      runtime.ledger.task task.taskId = none := by
  obtain ⟨taskId, attemptId, status, inserted⟩ := files
  obtain ⟨error, he⟩ | ⟨filed, he, replaced, fresh, -⟩ :=
    TaskLedger.insertTask_cases runtime.ledger task
  · rw [he] at inserted
    cases inserted
  · have pending : (runtime.ledger.filed task).status = .pending := status
    have allowed : (runtime.ledger.filed task).status = .ready ∨
        (runtime.ledger.filed task).status.canTransitionTo .ready = true :=
      .inr (by rw [pending]; rfl)
    obtain ⟨ledger, ready, moved⟩ :=
      TaskLedger.transitionStatus_of_allowed replaced.task_self allowed
    refine ⟨ledger, ?_, replaced.trans moved, fresh⟩
    rw [taskId] at ready
    simp only [submit, taskId, attemptId, status, he, ne_eq, not_true_eq_false, if_false,
      constrain_taskId, ready]
    rfl

/-- The submission passes the first checks, its lane is full, and the queue does not take it. -/
structure Strands (runtime : AuthoritativeRuntime) (task : TaskCard) (request : ResourceRequest)
    (nowMs : Nat) : Prop where
  files : Files runtime task request
  full : runtime.lanes.hasRoom (laneForWorkKind request.workKind) = false
  turnedAway : ¬ Enqueueable runtime.admission
    (constrainRequestToTaskDeadline request task.hardDeadlineMs) nowMs

/-- What a submission files passes the checks before admission, and its attempt is not queued. -/
theorem Consistent.submitted {ledger : TaskLedger} (h : Consistent runtime)
    (files : Files runtime task request)
    (replaced : TaskLedger.Replaced runtime.ledger task.taskId (runtime.submittedCard task) ledger)
    (fresh : runtime.ledger.task task.taskId = none) (nowMs : Nat) :
    let constrained := constrainRequestToTaskDeadline request task.hardDeadlineMs
    constrained.key ∉ (runtime.withLedger ledger).admission.queuedAttempts ∧
      (runtime.withLedger ledger).attemptRefusal constrained nowMs .initial = none := by
  obtain ⟨-, unqueued⟩ := h.filed replaced fresh
  have found : (runtime.withLedger ledger).ledger.task request.taskId =
      some (runtime.submittedCard task) := files.taskId ▸ replaced.task_self
  refine ⟨?_, attemptRefusal_initial found (by simp [submittedCard]) ?_⟩
  · rw [constrain_key, ResourceRequest.key, ← files.taskId]
    exact unqueued _
  · simp only [submittedCard, TaskCard.withStatus_attemptId]
    exact files.attemptId

theorem Consistent.submit_unchanged_iff (h : Consistent runtime) (task : TaskCard)
    (request : ResourceRequest) (nowMs : Nat) :
    (∀ error, (runtime.submit task request nowMs).1 = some (.error error) →
      (runtime.submit task request nowMs).2 = runtime) ↔ ¬ Strands runtime task request nowMs := by
  constructor
  · rintro unchanged ⟨files, full, turnedAway⟩
    obtain ⟨ledger, he, replaced, fresh⟩ := submit_of_files files nowMs
    obtain ⟨unqueued, passes⟩ := h.submitted files replaced fresh nowMs
    obtain ⟨error, failed⟩ := (admitExisting_error_iff unqueued passes).mpr ⟨full, turnedAway⟩
    rw [he] at unchanged
    have kept := unchanged error failed
    -- A failed admission leaves the filed card where it is.
    have stays : runtime.withLedger ledger ≠ runtime := fun same => by
      have gone : ledger.task task.taskId = none :=
        (congrArg (fun other => other.ledger.task task.taskId) same).trans fresh
      exact nomatch replaced.task_self.symm.trans gone
    obtain ⟨outcome, same, -⟩ | ⟨outcome, same, -⟩ | ⟨position, reason, card, same, -⟩ |
      ⟨card, ledger', limit, same, -⟩ := admitExisting_cases unqueued nowMs .initial
    · rw [same] at kept
      exact stays kept
    · rw [same] at kept
      exact stays kept
    · rw [same] at failed
      cases failed
    · rw [same] at failed
      cases failed
  · intro spared error failed
    obtain ⟨error', he⟩ | ⟨ledger, he, replaced, fresh, files⟩ :=
      submit_cases runtime task request nowMs
    · rw [he]
    · rw [he] at failed
      obtain ⟨unqueued, passes⟩ := h.submitted files replaced fresh nowMs
      obtain ⟨full, turnedAway⟩ := (admitExisting_error_iff unqueued passes).mp ⟨error, failed⟩
      exact absurd ⟨files, full, turnedAway⟩ spared

/-- In every state that operations reach, a failed submission leaves the runtime as it was if and
only if it is not one that files its card and then finds its lane full and the queue closed. -/
theorem run_submit_unchanged_iff (deadlineHorizonMs : Nat) (profile : HardwareProfile)
    (ops : List RuntimeOp) (task : TaskCard) (request : ResourceRequest) (nowMs : Nat) :
    (∀ error, ((run step (new deadlineHorizonMs profile) ops).submit task request nowMs).1 =
        some (.error error) →
      ((run step (new deadlineHorizonMs profile) ops).submit task request nowMs).2 =
        run step (new deadlineHorizonMs profile) ops) ↔
      ¬ Strands (run step (new deadlineHorizonMs profile) ops) task request nowMs :=
  (run_consistent deadlineHorizonMs profile ops).submit_unchanged_iff task request nowMs

/-- Two tasks that fill the native lane of the small host. -/
def fullLane : List RuntimeOp :=
  [.submit (.new 1 [] 0 none none) (.minimal 1 .nativeTask) 0,
    .submit (.new 2 [] 0 none none) (.minimal 2 .nativeTask) 0]

/-- A request without memory is an error on the full lane. Its task stays behind, ready and not
queued, and cannot be submitted again with a better request. -/
theorem fullLane_strands_task :
    ((run step (new 1000 .small) fullLane).submit (.new 3 [] 0 none none)
        { ResourceRequest.minimal 3 .nativeTask with hostMemoryBytes := 0 } 0).1 =
      some (.error (.resource (.invalidRequest "memory and IO budgets must be non-zero"))) ∧
    ((run step (new 1000 .small) fullLane).submit (.new 3 [] 0 none none)
        { ResourceRequest.minimal 3 .nativeTask with hostMemoryBytes := 0 } 0).2 ≠
      run step (new 1000 .small) fullLane ∧
    (((run step (new 1000 .small) fullLane).submit (.new 3 [] 0 none none)
        { ResourceRequest.minimal 3 .nativeTask with hostMemoryBytes := 0 } 0).2.submit
          (.new 3 [] 0 none none) (.minimal 3 .nativeTask) 1).1 =
      some (.error (.task (.duplicateTask 3))) := by
  decide

end AuthoritativeRuntime

end Aegis.Runtime
