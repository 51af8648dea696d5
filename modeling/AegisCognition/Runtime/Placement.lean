import AegisCognition.Runtime.Operation

/-!
# Ready tasks and the admission queue

A submitted task becomes `Ready` before admission is attempted. If admission neither
starts nor queues it, nothing moves it again: it has no queue entry, and its id cannot be
submitted a second time. The same happens to a queued task that a drain takes off the
queue and admission then refuses, while a queued retry in that position is timed out.

The condition under which this does not happen is on the state before a call: whatever
is submitted, or waits in the queue of a drain for a `Ready` task, can start or wait.
-/

namespace Aegis.Runtime

open Std Foundation Resource Aegis.Task List Option

namespace AuthoritativeRuntime

/-- Every `Ready` task has exactly one queue entry for its attempt. -/
def ReadyQueued (runtime : AuthoritativeRuntime) : Prop :=
  ∀ taskId card, runtime.ledger.task taskId = some card → card.status = .ready →
    runtime.admission.queuedRequests.countP
      (fun request => request.taskId = taskId ∧ request.attemptId = card.attemptId) = 1

/-- The request is well formed at this time, and not denied on a free lane. -/
structure Admissible (runtime : AuthoritativeRuntime) (request : ResourceRequest)
    (nowMs : Nat) : Prop where
  valid : request.validate nowMs = .ok ()
  capable : runtime.lanes.hasRoom (laneForWorkKind request.workKind) = true →
    runtime.admission.acceleratorDenial request = none

/-- What is submitted can start or wait, and the queued requests of `Ready` tasks are
still admissible when the queue is drained. -/
def PlacementGate (runtime : AuthoritativeRuntime) : RuntimeOp → Prop
  | .submit task request nowMs => Files runtime task request →
      Startable runtime (constrainRequestToTaskDeadline request task.hardDeadlineMs) nowMs ∨
      Queueable runtime (constrainRequestToTaskDeadline request task.hardDeadlineMs) nowMs
  | .drainQueued nowMs => QueueGate runtime nowMs
  | .pollQueued taskId attemptId nowMs =>
      runtime.pendingAdmissions[(taskId, attemptId)]? = none → QueueGate runtime nowMs
  | _ => True
where
  /-- The condition for every entry of the queue that belongs to a `Ready` task. -/
  QueueGate (runtime : AuthoritativeRuntime) (nowMs : Nat) : Prop :=
    ∀ request ∈ runtime.admission.queuedRequests, ∀ card,
      runtime.ledger.task request.taskId = some card → card.status = .ready →
      Admissible runtime request nowMs

variable {runtime other : AuthoritativeRuntime} {request : ResourceRequest} {nowMs : Nat}
variable {card : TaskCard} {ledger : TaskLedger} {taskId : Nat} {attemptKind : AttemptKind}

/-- Every `Ready` task, one of them possibly excepted, is in the index of the queue. -/
def ReadyIndexed (excepted : Option Nat) (runtime : AuthoritativeRuntime) : Prop :=
  ∀ taskId card, runtime.ledger.task taskId = some card → card.status = .ready →
    excepted ≠ some taskId → (taskId, card.attemptId) ∈ runtime.admission.queuedAttempts

theorem Consistent.readyQueued (consistent : Consistent runtime)
    (h : ReadyIndexed none runtime) : ReadyQueued runtime := by
  intro taskId card found status
  have indexed := h taskId card found status (some_ne_none _).symm
  obtain ⟨request, hmem, hkey⟩ := (consistent.index _).mp indexed
  have hcount := count_eq_one_of_mem consistent.keys_nodup
    (mem_map.mpr ⟨request, hmem, hkey⟩)
  rw [List.count, countP_map] at hcount
  rw [← hcount]
  refine countP_congr fun queued _ => ?_
  simp [ResourceRequest.key, Prod.ext_iff]

namespace ReadyIndexed

theorem of_eq {excepted : Option Nat} (h : ReadyIndexed excepted runtime)
    (hledger : other.ledger = runtime.ledger)
    (hindex : other.admission.queuedAttempts = runtime.admission.queuedAttempts) :
    ReadyIndexed excepted other := by
  intro taskId card found status hne
  rw [hindex]
  exact h taskId card (hledger ▸ found) status hne

theorem except (h : ReadyIndexed none runtime) (taskId : Nat) :
    ReadyIndexed (some taskId) runtime :=
  fun otherId card found status _ => h otherId card found status (some_ne_none _).symm

/-- The exception is lifted when its task does not end up `Ready`. -/
theorem of_replaced (h : ReadyIndexed (some taskId) runtime)
    (replaced : TaskLedger.Replaced runtime.ledger taskId card other.ledger)
    (status : card.status ≠ .ready)
    (hindex : other.admission.queuedAttempts = runtime.admission.queuedAttempts) :
    ReadyIndexed none other := by
  intro otherId found hfound hready _
  obtain ⟨-, rfl⟩ | ⟨hne, hfound⟩ := replaced.task_eq_some_iff.mp hfound
  · exact absurd hready status
  · rw [hindex]
    exact h otherId found hfound hready fun same => hne (Option.some.inj same)

/-- Admission restores the property for the task it was excepted for, if an initial
attempt can start or wait. A retry waits outside of `Ready` in any case. -/
theorem admitExisting (h : ReadyIndexed (some request.taskId) runtime)
    (fresh : request.key ∉ runtime.admission.queuedAttempts)
    (found : runtime.ledger.task request.taskId = some card)
    (waiting : Waiting card request.attemptId attemptKind)
    (placed : attemptKind = .initial →
      Startable runtime request nowMs ∨ Queueable runtime request nowMs) :
    ReadyIndexed none (runtime.admitExisting request nowMs attemptKind).2 := by
  have unready : card.status ≠ .ready → ReadyIndexed none runtime := by
    intro status otherId other hother hready _
    refine h otherId other hother hready fun same => status ?_
    rw [← Option.some.inj same, found] at hother
    cases hother
    exact hready
  obtain ⟨outcome, he, -, refused⟩ | ⟨outcome, he, -, unstartable, unqueueable⟩ |
    ⟨position, reason, card', he, -⟩ | ⟨card', ledger, limit, he, -, -, replaced, -⟩ :=
    admitExisting_cases fresh nowMs attemptKind
  · rw [he]
    cases waiting with
    | initial status attempt =>
        rw [attemptRefusal_initial found status attempt] at refused
        cases refused
    | retry status _ => exact unready (by rw [status]; decide)
  · rw [he]
    cases waiting with
    | initial status attempt =>
        obtain startable | queueable := placed rfl
        · exact absurd startable unstartable
        · exact absurd queueable unqueueable
    | retry status _ => exact unready (by rw [status]; decide)
  · rw [he]
    intro otherId other hother hready _
    refine Finset.mem_insert.mpr ?_
    by_cases same : request.taskId = otherId
    · left
      subst same
      have hcard : some card = some other := found.symm.trans hother
      cases hcard
      cases waiting with
      | initial _ attempt => rw [ResourceRequest.key, attempt]
      | retry status _ => rw [status] at hready; cases hready
    · right
      exact h otherId other hother hready fun h => same (Option.some.inj h)
  · rw [he]
    exact h.of_replaced replaced TaskStatus.noConfusion rfl

theorem releases (h : ReadyIndexed none runtime) (step : Releases runtime other) :
    ReadyIndexed none other := by
  obtain ⟨leaseId, lease, limit, card, settled, ledger, active, hlimit, positive, found,
    settles, replaced⟩ := step
  exact (h.except lease.taskId).of_replaced replaced settles.not_ready rfl

/-- Taking the front entry off excepts its task. -/
theorem dropFront (h : ReadyIndexed none runtime) {rest : List ResourceRequest}
    (queue : runtime.admission.queuedRequests = request :: rest) :
    ReadyIndexed (some request.taskId) runtime.dropFront := by
  rw [dropFront_eq queue]
  intro taskId card found status hne
  refine Finset.mem_erase.mpr ⟨fun same => hne ?_, h taskId card found status
    (some_ne_none _).symm⟩
  exact congrArg some (congrArg Prod.fst same).symm

end ReadyIndexed

namespace PlacementGate.QueueGate

/-- The gate passes to a state with fewer entries, the same waiting cards, and no lane
with new room. -/
theorem of_move (gate : QueueGate runtime nowMs)
    (queue : ∀ request ∈ other.admission.queuedRequests,
      request ∈ runtime.admission.queuedRequests ∧
        other.ledger.task request.taskId = runtime.ledger.task request.taskId)
    (room : ∀ lane, other.lanes.hasRoom lane = true → runtime.lanes.hasRoom lane = true)
    (denial : other.admission.acceleratorDenial = runtime.admission.acceleratorDenial) :
    QueueGate other nowMs := by
  intro request hmem card found ready
  obtain ⟨hqueued, same⟩ := queue request hmem
  have admissible := gate request hqueued card (same ▸ found) ready
  refine ⟨admissible.valid, fun hroom => ?_⟩
  rw [denial]
  exact admissible.capable (room _ hroom)

theorem drainOnce (consistent : Consistent runtime) (h : ReadyIndexed none runtime)
    (gate : QueueGate runtime nowMs) :
    ReadyIndexed none (runtime.drainOnce nowMs).2 ∧
      QueueGate (runtime.drainOnce nowMs).2 nowMs := by
  have queued := consistent.drainOnce_queue nowMs
  obtain he | ⟨request, rest, card, attemptKind, queue, found, waiting, hmove⟩ :=
    drainOnce_cases consistent nowMs
  · rw [he]
    exact ⟨h, gate⟩
  · obtain ⟨-, fresh, -⟩ := consistent.dropFront queue
    have popped := h.dropFront queue
    have denial : runtime.dropFront.admission.acceleratorDenial =
        runtime.admission.acceleratorDenial := by
      rw [dropFront_eq queue]
      rfl
    obtain ⟨ledger, he, replaced, rfl⟩ | he := hmove
    · rw [he] at queued ⊢
      exact ⟨popped.of_replaced replaced (by simp) rfl,
        gate.of_move queued (fun _ h => h) denial⟩
    · have placed : attemptKind = .initial → Startable runtime.dropFront request nowMs ∨
          Queueable runtime.dropFront request nowMs := by
        rintro rfl
        cases waiting with
        | initial status _ =>
            have admissible := gate request (queue ▸ mem_cons_self) card found status
            refine .inr ⟨admissible.valid, ?_, ?_⟩
            · rw [denial]
              exact admissible.capable
            · have bounded := consistent.bounded
              rw [queue, length_cons] at bounded
              rw [dropFront_eq queue]
              exact bounded
      rw [he, readmitFront_state] at queued ⊢
      refine ⟨popped.admitExisting fresh found waiting placed, ?_⟩
      obtain ⟨outcome, he, -⟩ | ⟨outcome, he, -⟩ | ⟨position, reason, card, he, -⟩ |
        ⟨card, ledger, limit, he, -, -, replaced, hlimit, -⟩ :=
        admitExisting_cases fresh nowMs attemptKind
      · rw [he] at queued ⊢
        exact gate.of_move queued (fun _ h => h) denial
      · rw [he] at queued ⊢
        exact gate.of_move queued (fun _ h => h) denial
      · rw [he] at queued ⊢
        exact gate.of_move queued (fun _ h => h) denial
      · rw [he] at queued ⊢
        exact gate.of_move queued
          (fun _ h => ExecutionLaneRegistry.hasRoom_of_acquired hlimit h) denial

theorem drainQueued (consistent : Consistent runtime) (h : ReadyIndexed none runtime)
    (gate : QueueGate runtime nowMs) : ReadyIndexed none (runtime.drainQueued nowMs).2 := by
  have keep : ∀ s, Consistent s ∧ ReadyIndexed none s ∧ QueueGate s nowMs →
      Consistent (s.drainOnce nowMs).2 ∧ ReadyIndexed none (s.drainOnce nowMs).2 ∧
        QueueGate (s.drainOnce nowMs).2 nowMs := by
    rintro s ⟨hs, hready, hgate⟩
    exact ⟨(hs.drainOnce nowMs).1, hgate.drainOnce hs hready⟩
  exact (drainLoop_invariant keep _ ⟨consistent, h, gate⟩).2.1

end PlacementGate.QueueGate

theorem ReadyIndexed.step (consistent : Consistent runtime) (h : ReadyIndexed none runtime)
    {op : RuntimeOp} (gate : PlacementGate runtime op) :
    ReadyIndexed none (runtime.step op) := by
  cases op with
  | submit task request nowMs =>
      simp only [AuthoritativeRuntime.step]
      obtain ⟨error, he⟩ | ⟨ledger, he, replaced, fresh, files⟩ :=
        submit_cases runtime task request nowMs
      · rwa [he]
      · obtain ⟨filed, unqueued⟩ := consistent.filed replaced fresh
        have excepted : ReadyIndexed (some request.taskId) (runtime.withLedger ledger) := by
          intro otherId found hfound hready hne
          rw [← files.taskId] at hne
          obtain ⟨rfl, -⟩ | ⟨-, hfound⟩ := replaced.task_eq_some_iff.mp hfound
          · exact absurd rfl hne
          · exact h otherId found hfound hready (some_ne_none _).symm
        have found : (runtime.withLedger ledger).ledger.task request.taskId =
            some (runtime.submittedCard task) := by
          rw [← files.taskId]
          exact replaced.task_self
        have waiting : Waiting (runtime.submittedCard task) request.attemptId .initial := by
          refine .initial (by simp [submittedCard]) ?_
          rw [submittedCard, TaskCard.withStatus_attemptId]
          exact files.attemptId
        rw [he]
        refine ReadyIndexed.admitExisting excepted ?_ found waiting fun _ => ?_
        · rw [constrain_key, ResourceRequest.key, ← files.taskId]
          exact unqueued _
        · obtain startable | queueable := gate files
          · exact .inl ⟨startable.room, startable.valid, startable.capable, startable.prompt,
              startable.fits⟩
          · exact .inr ⟨queueable.valid, queueable.capable, queueable.space⟩
  | retry taskId request nowMs =>
      simp only [AuthoritativeRuntime.step]
      obtain ⟨outcome, pending, he, -⟩ | ⟨pending, card, he, found, rfl, waiting, fresh⟩ :=
        retry_cases consistent taskId request nowMs
      · rw [he]
        exact h.of_eq rfl rfl
      · rw [he]
        have kept : ReadyIndexed (some request.taskId) (runtime.withPending pending) :=
          (h.except request.taskId).of_eq rfl rfl
        refine ReadyIndexed.admitExisting kept ?_ found waiting AttemptKind.noConfusion
        exact fresh
  | finish token outcome nowMs =>
      simp only [AuthoritativeRuntime.step]
      obtain ⟨error, he⟩ | ⟨next, he, released⟩ := runtime.finishAt_cases token outcome nowMs
      · rwa [he]
      · rw [he]
        exact h.releases released
  | drainQueued nowMs => exact PlacementGate.QueueGate.drainQueued consistent h gate
  | pollQueued taskId attemptId nowMs =>
      simp only [AuthoritativeRuntime.step]
      obtain ⟨admission, pending, he, -⟩ | ⟨pending, he, absent⟩ :=
        pollQueued_cases runtime taskId attemptId nowMs
      · rw [he]
        exact h.of_eq rfl rfl
      · rw [he]
        exact (PlacementGate.QueueGate.drainQueued consistent h (gate absent)).of_eq rfl rfl
  | cancelQueued taskId attemptId =>
      simp only [AuthoritativeRuntime.step]
      obtain ⟨result, he⟩ | ⟨card, attemptKind, pending, ledger, he, found, waiting,
        replaced⟩ := cancelQueued_cases runtime taskId attemptId
      · rwa [he]
      · rw [he]
        intro otherId other hother hready _
        obtain ⟨-, rfl⟩ | ⟨hne, hother⟩ := replaced.task_eq_some_iff.mp hother
        · rw [TaskCard.withStatus_status] at hready
          cases hready
        · refine Finset.mem_erase.mpr ⟨fun same => hne ?_, h otherId other hother hready
            (some_ne_none _).symm⟩
          exact (congrArg Prod.fst same).symm
  | reapExpired nowMs => exact reapExpired_invariant (fun _ _ h => h.releases) h nowMs
  | observeResourceSample sample => exact h.of_eq rfl rfl

/-- In every run whose calls all pass the gate, every `Ready` task has exactly one entry in
the admission queue. -/
theorem gated_run_queues_ready_tasks (deadlineHorizonMs : Nat) (profile : HardwareProfile)
    (ops : List RuntimeOp)
    (gated : Along step PlacementGate (new deadlineHorizonMs profile) ops) :
    ReadyQueued (run step (new deadlineHorizonMs profile) ops) := by
  have keep : ∀ s op, Consistent s ∧ ReadyIndexed none s → PlacementGate s op →
      Consistent (s.step op) ∧ ReadyIndexed none (s.step op) :=
    fun s op h gate => ⟨h.1.step op, h.2.step h.1 gate⟩
  have start : ReadyIndexed none (new deadlineHorizonMs profile) := by
    intro taskId card found
    simp [new, TaskLedger.new, TaskLedger.task] at found
  obtain ⟨consistent, indexed⟩ :=
    run_invariant_along keep gated ⟨consistent_new deadlineHorizonMs profile, start⟩
  exact consistent.readyQueued indexed

/-- The request of task 1 is past its deadline when it is submitted. -/
def lateSubmission : RuntimeOp :=
  .submit (.new 1 [] 0 none none) { ResourceRequest.minimal 1 .nativeTask with
    deadlineMs := some 5 } 10

theorem lateSubmission_strands_task :
    ¬ ∀ (deadlineHorizonMs : Nat) (profile : HardwareProfile) (ops : List RuntimeOp),
      ReadyQueued (run step (new deadlineHorizonMs profile) ops) := by
  intro claim
  have queued := claim 1000 .small [lateSubmission] 1
    { TaskCard.new 1 [] 0 none none with status := .ready, insertionOrder := 1 }
    (by decide) rfl
  revert queued
  decide

/-- A third submission on a lane for two waits in the queue. -/
def waitingSubmission : List RuntimeOp :=
  [.submit (.new 1 [] 0 none none) (.minimal 1 .nativeTask) 0,
    .submit (.new 2 [] 0 none none) (.minimal 2 .nativeTask) 0,
    .submit (.new 3 [] 0 none none) (.minimal 3 .nativeTask) 0]

theorem waitingSubmission_queues_ready_tasks :
    (run step (new 1000 .small) waitingSubmission).admission.queuedRequests.length = 1 ∧
    ReadyQueued (run step (new 1000 .small) waitingSubmission) := by
  refine ⟨by decide, gated_run_queues_ready_tasks 1000 .small waitingSubmission ⟨?_, ?_, ?_,
    trivial⟩⟩
  · exact fun _ => .inl ⟨by decide, by decide, by decide, by decide, by decide⟩
  · exact fun _ => .inl ⟨by decide, by decide, by decide, by decide, by decide⟩
  · exact fun _ => .inr ⟨by decide, by decide, by decide⟩

end AuthoritativeRuntime

end Aegis.Runtime
