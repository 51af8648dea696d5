import AegisCognition.Resource.Conservation
import AegisCognition.Runtime.Operation

/-!
# Dependencies of started tasks

The runtime stores the dependency ids of a task but never looks at them: whatever
admission lets through is started. Starts therefore respect dependencies only as far as
the callers see to it. The condition of this module is on the state before a call: an
attempt that could start right now belongs to a task whose dependencies are all done.
Completed tasks stay completed, and a drain only makes starting harder for the entries
it has not reached, so the condition before the drain covers all of its iterations.
-/

namespace Aegis.Runtime

open Std Foundation Resource Aegis.Task GrantedResources TaskCard TaskLedger

namespace AuthoritativeRuntime

/-- Every task that a call moves to `Running` has its dependencies done. No call both
starts and completes tasks, so the state after the call is that of the moment. -/
def StartsRespectDependencies (before after : AuthoritativeRuntime) : Prop :=
  ∀ taskId card, after.ledger.task taskId = some card → card.status = .running →
    (∀ old, before.ledger.task taskId = some old → old.status ≠ .running) →
    ∀ dependencyId ∈ card.dependencyIds, ∃ dependency,
      after.ledger.task dependencyId = some dependency ∧ dependency.status = .done

/-- An attempt that could start now has its dependencies done. -/
def DependencyGate (runtime : AuthoritativeRuntime) : RuntimeOp → Prop
  | .submit task request nowMs => Files runtime task request →
      Startable runtime (constrainRequestToTaskDeadline request task.hardDeadlineMs) nowMs →
      runtime.ledger.dependenciesAreDone task = true
  | .retry taskId request nowMs => ∀ card, runtime.ledger.task taskId = some card →
      Waiting card request.attemptId .retry → Due card nowMs .retry →
      Startable runtime (constrainRequestToTaskDeadline request card.hardDeadlineMs) nowMs →
      runtime.ledger.dependenciesAreDone card = true
  | .drainQueued nowMs => QueueGate runtime nowMs
  | .pollQueued taskId attemptId nowMs =>
      runtime.pendingAdmissions[(taskId, attemptId)]? = none → QueueGate runtime nowMs
  | _ => True
where
  /-- The same condition for every entry of the queue. -/
  QueueGate (runtime : AuthoritativeRuntime) (nowMs : Nat) : Prop :=
    ∀ request ∈ runtime.admission.queuedRequests, ∀ card attemptKind,
      runtime.ledger.task request.taskId = some card →
      Waiting card request.attemptId attemptKind → Due card nowMs attemptKind →
      Startable runtime request nowMs → runtime.ledger.dependenciesAreDone card = true

variable {runtime middle other : AuthoritativeRuntime} {request : ResourceRequest} {nowMs : Nat}
variable {card : TaskCard} {ledger : TaskLedger} {taskId : Nat} {attemptKind : AttemptKind}

/-- Completed tasks stay completed, and what runs either ran before with the same
dependencies or has them done. -/
structure Respects (before after : AuthoritativeRuntime) : Prop where
  done : ∀ taskId card, before.ledger.task taskId = some card → card.status = .done →
    ∃ kept, after.ledger.task taskId = some kept ∧ kept.status = .done
  started : ∀ taskId card, after.ledger.task taskId = some card → card.status = .running →
    (∃ old, before.ledger.task taskId = some old ∧ old.status = .running ∧
      old.dependencyIds = card.dependencyIds) ∨
    after.ledger.dependenciesAreDone card = true

namespace Respects

theorem of_ledger (h : other.ledger = runtime.ledger) : Respects runtime other where
  done := fun _ card found status => ⟨card, h ▸ found, status⟩
  started := fun _ card found status => .inl ⟨card, h ▸ found, status, rfl⟩

theorem dependenciesAreDone (h : Respects runtime other) {later : TaskCard}
    (same : card.dependencyIds = later.dependencyIds)
    (hdone : runtime.ledger.dependenciesAreDone card = true) :
    other.ledger.dependenciesAreDone later = true := by
  rw [dependenciesAreDone_iff] at hdone ⊢
  intro dependencyId hmem
  obtain ⟨dependency, found, status⟩ := hdone dependencyId (same ▸ hmem)
  exact h.done dependencyId dependency found status

theorem trans (h : Respects runtime middle) (h' : Respects middle other) :
    Respects runtime other := by
  constructor
  · intro taskId card found status
    obtain ⟨kept, hkept, hstatus⟩ := h.done taskId card found status
    exact h'.done taskId kept hkept hstatus
  · intro taskId card found status
    obtain ⟨old, hold, hstatus, same⟩ | hdone := h'.started taskId card found status
    · obtain ⟨older, holder, hrunning, hsame⟩ | hdone := h.started taskId old hold hstatus
      · exact .inl ⟨older, holder, hrunning, hsame.trans same⟩
      · exact .inr (h'.dependenciesAreDone same hdone)
    · exact .inr hdone

/-- The card of a task that is not done is replaced; if the new card runs, its
dependencies were done. -/
theorem of_replaced (hledger : other.ledger = ledger)
    (replaced : TaskLedger.Replaced runtime.ledger taskId card ledger)
    (unfinished : ∀ old, runtime.ledger.task taskId = some old → old.status = .done →
      card.status = .done)
    (gated : card.status = .running → runtime.ledger.dependenciesAreDone card = true) :
    Respects runtime other := by
  subst hledger
  have kept : ∀ otherId old, runtime.ledger.task otherId = some old → old.status = .done →
      ∃ kept, other.ledger.task otherId = some kept ∧ kept.status = .done := by
    intro otherId old found status
    by_cases same : taskId = otherId
    · subst same
      exact ⟨card, replaced.task_self, unfinished old found status⟩
    · exact ⟨old, (replaced.task_of_ne same).trans found, status⟩
  refine ⟨kept, ?_⟩
  intro otherId found hfound status
  obtain ⟨-, rfl⟩ | ⟨-, hfound⟩ := replaced.task_eq_some_iff.mp hfound
  · right
    have hdone := gated status
    rw [dependenciesAreDone_iff] at hdone ⊢
    intro dependencyId hmem
    obtain ⟨dependency, hdependency, hstatus⟩ := hdone dependencyId hmem
    exact kept dependencyId dependency hdependency hstatus
  · exact .inl ⟨found, hfound, status, rfl⟩

theorem releases (step : Releases runtime other) : Respects runtime other := by
  obtain ⟨leaseId, lease, limit, card, settled, ledger, active, hlimit, positive, found,
    settles, replaced⟩ := step
  refine of_replaced rfl replaced ?_ fun running => absurd running settles.not_running
  intro old hold hdone
  rw [found] at hold
  cases hold
  exact settles.done hdone

/-- Admission respects dependencies if whatever it may start has them done. -/
theorem admitExisting (fresh : request.key ∉ runtime.admission.queuedAttempts)
    (gated : ∀ card, runtime.ledger.task request.taskId = some card →
      Waiting card request.attemptId attemptKind → Due card nowMs attemptKind →
      Startable runtime request nowMs → runtime.ledger.dependenciesAreDone card = true) :
    Respects runtime (runtime.admitExisting request nowMs attemptKind).2 := by
  obtain ⟨outcome, he, -⟩ | ⟨outcome, he, -⟩ | ⟨position, reason, card, he, -⟩ |
    ⟨card, ledger, limit, he, found, waiting, replaced, -, startable, due⟩ :=
    admitExisting_cases fresh nowMs attemptKind
  · rw [he]
    exact of_ledger rfl
  · rw [he]
    exact of_ledger rfl
  · rw [he]
    exact of_ledger rfl
  · rw [he]
    refine of_replaced rfl replaced ?_ fun _ => gated card found waiting due startable
    intro old hold hdone
    rw [found] at hold
    cases hold
    cases waiting with
    | initial status _ => rw [hdone] at status; cases status
    | retry status _ => rw [hdone] at status; cases status

theorem startsRespect (h : Respects runtime other) : StartsRespectDependencies runtime other := by
  intro taskId card found running idle
  obtain ⟨old, hold, hrunning, -⟩ | hdone := h.started taskId card found running
  · exact absurd hrunning (idle old hold)
  · exact dependenciesAreDone_iff.mp hdone

end Respects

/-- A started attempt takes a lane slot and resources, so nothing new becomes startable. -/
theorem Startable.of_withStarted {started : ResourceRequest} {limit : LaneLimit}
    (hlimit : runtime.lanes.lanes[laneForWorkKind started.workKind]? = some limit)
    (first : Startable runtime started nowMs)
    (h : Startable (runtime.withStarted started nowMs ledger limit) request nowMs) :
    Startable runtime request nowMs := by
  refine ⟨?_, h.valid, h.capable, h.prompt, ?_⟩
  · exact ExecutionLaneRegistry.hasRoom_of_acquired hlimit h.room
  · have taken := fitsWithin_iff.mp first.fits
    have fits := fitsWithin_iff.mp h.fits
    refine fitsWithin_iff.mpr fun d => ?_
    have hused : (runtime.withStarted started nowMs ledger limit).admission.used.amount d =
        runtime.admission.used.amount d + (fromRequest started).amount d :=
      addResources_amount (taken d).1
    have hfits := fits d
    rw [hused] at hfits
    have hcapacity : (runtime.withStarted started nowMs ledger limit).admission.capacity =
        runtime.admission.capacity := rfl
    rw [hcapacity] at hfits
    omega

namespace DependencyGate.QueueGate

/-- The gate passes to a state with fewer entries, the same waiting cards, and nothing
newly startable. -/
theorem of_move (gate : QueueGate runtime nowMs) (respects : Respects runtime other)
    (queue : ∀ request ∈ other.admission.queuedRequests,
      request ∈ runtime.admission.queuedRequests ∧
        other.ledger.task request.taskId = runtime.ledger.task request.taskId)
    (startable : ∀ request, Startable other request nowMs → Startable runtime request nowMs) :
    QueueGate other nowMs := by
  intro request hmem card attemptKind found waiting due hstart
  obtain ⟨hqueued, same⟩ := queue request hmem
  refine respects.dependenciesAreDone rfl ?_
  exact gate request hqueued card attemptKind (same ▸ found) waiting due
    (startable request hstart)

theorem drainOnce (consistent : Consistent runtime) (gate : QueueGate runtime nowMs) :
    Respects runtime (runtime.drainOnce nowMs).2 ∧
      QueueGate (runtime.drainOnce nowMs).2 nowMs := by
  have queued := consistent.drainOnce_queue nowMs
  obtain he | ⟨request, rest, card, attemptKind, queue, found, waiting, hmove⟩ :=
    drainOnce_cases consistent nowMs
  · rw [he]
    exact ⟨.of_ledger rfl, gate⟩
  · obtain ⟨dropped, fresh, -⟩ := consistent.dropFront queue
    have startable : ∀ queued, Startable runtime.dropFront queued nowMs →
        Startable runtime queued nowMs := by
      intro queued h
      rw [dropFront_eq queue] at h
      exact ⟨h.room, h.valid, h.capable, h.prompt, h.fits⟩
    obtain ⟨ledger, he, replaced, rfl⟩ | he := hmove
    · have respects : Respects runtime (runtime.dropFront.withLedger ledger) := by
        refine .of_replaced rfl replaced ?_ fun running => ?_
        · intro old hold hdone
          rw [found] at hold
          cases hold
          cases waiting with
          | retry status _ => rw [hdone] at status; cases status
        · rw [withStatus_status] at running
          cases running
      rw [he] at queued ⊢
      refine ⟨respects, gate.of_move respects queued ?_⟩
      intro queued h
      exact startable queued ⟨h.room, h.valid, h.capable, h.prompt, h.fits⟩
    · have respects : Respects runtime
          (runtime.dropFront.admitExisting request nowMs attemptKind).2 := by
        have popped : Respects runtime runtime.dropFront := .of_ledger rfl
        refine popped.trans (.admitExisting fresh ?_)
        intro card found waiting due h
        exact gate request (queue ▸ List.mem_cons_self) card attemptKind found waiting due
          (startable request h)
      rw [he, readmitFront_state] at queued ⊢
      refine ⟨respects, gate.of_move respects queued ?_⟩
      obtain ⟨outcome, he, -⟩ | ⟨outcome, he, -⟩ | ⟨position, reason, card, he, -⟩ |
        ⟨card, ledger, limit, he, -, -, -, hlimit, first, -⟩ :=
        admitExisting_cases fresh nowMs attemptKind
      · rw [he]
        exact startable
      · rw [he]
        exact startable
      · rw [he]
        exact fun queued h =>
          startable queued ⟨h.room, h.valid, h.capable, h.prompt, h.fits⟩
      · rw [he]
        exact fun queued h => startable queued (.of_withStarted hlimit first h)

theorem drainQueued (consistent : Consistent runtime) (gate : QueueGate runtime nowMs) :
    Respects runtime (runtime.drainQueued nowMs).2 := by
  have keep : ∀ s, Consistent s ∧ QueueGate s nowMs ∧ Respects runtime s →
      Consistent (s.drainOnce nowMs).2 ∧ QueueGate (s.drainOnce nowMs).2 nowMs ∧
        Respects runtime (s.drainOnce nowMs).2 := by
    rintro s ⟨hs, hgate, respects⟩
    obtain ⟨step, next⟩ := hgate.drainOnce hs
    exact ⟨(hs.drainOnce nowMs).1, next, respects.trans step⟩
  exact (drainLoop_invariant keep _ ⟨consistent, gate, .of_ledger rfl⟩).2.2

end DependencyGate.QueueGate

theorem filed_dependenciesAreDone {task : TaskCard}
    (h : runtime.ledger.dependenciesAreDone task = true) :
    runtime.ledger.dependenciesAreDone (runtime.submittedCard task) = true := by
  rw [dependenciesAreDone_iff] at h ⊢
  intro dependencyId hmem
  refine h dependencyId ?_
  rw [submittedCard, withStatus_dependencyIds] at hmem
  have hsorted := (List.destutter_sublist _ _).subset hmem
  rwa [List.mem_insertionSort] at hsorted

theorem Respects.submit (consistent : Consistent runtime) {task : TaskCard}
    (gate : DependencyGate runtime (.submit task request nowMs)) :
    Respects runtime (runtime.submit task request nowMs).2 := by
  obtain ⟨error, he⟩ | ⟨ledger, he, replaced, fresh, files⟩ :=
    submit_cases runtime task request nowMs
  · rw [he]
    exact .of_ledger rfl
  · have filed : Respects runtime (runtime.withLedger ledger) := by
      refine .of_replaced rfl replaced ?_ fun running => ?_
      · intro old hold
        rw [fresh] at hold
        cases hold
      · rw [submittedCard, withStatus_status] at running
        cases running
    obtain ⟨-, unqueued⟩ := consistent.filed replaced fresh
    rw [he]
    refine filed.trans (.admitExisting ?_ ?_)
    · rw [constrain_key, ResourceRequest.key, ← files.taskId]
      exact unqueued _
    · intro card found _ _ startable
      rw [constrain_taskId, ← files.taskId, withLedger, replaced.task_self] at found
      cases found
      refine filed.dependenciesAreDone rfl (filed_dependenciesAreDone ?_)
      exact gate files ⟨startable.room, startable.valid, startable.capable, startable.prompt,
        startable.fits⟩

theorem Respects.step (consistent : Consistent runtime) {op : RuntimeOp}
    (gate : DependencyGate runtime op) : Respects runtime (runtime.step op) := by
  cases op with
  | submit task request nowMs => exact .submit consistent gate
  | retry taskId request nowMs =>
      simp only [AuthoritativeRuntime.step]
      obtain ⟨outcome, pending, he, -⟩ | ⟨pending, card, he, found, htask, -, fresh⟩ :=
        retry_cases consistent taskId request nowMs
      · rw [he]
        exact .of_ledger rfl
      · rw [he]
        have kept : Respects runtime (runtime.withPending pending) := .of_ledger rfl
        refine kept.trans (.admitExisting ?_ ?_)
        · exact fresh
        intro card' found' waiting due startable
        rw [constrain_taskId, htask] at found'
        have same : some card = some card' := found.symm.trans found'
        cases same
        exact gate card found waiting due ⟨startable.room, startable.valid, startable.capable,
          startable.prompt, startable.fits⟩
  | finish token outcome nowMs =>
      simp only [AuthoritativeRuntime.step]
      obtain ⟨error, he⟩ | ⟨next, he, released⟩ := runtime.finishAt_cases token outcome nowMs
      · rw [he]
        exact .of_ledger rfl
      · rw [he]
        exact .releases released
  | drainQueued nowMs => exact DependencyGate.QueueGate.drainQueued consistent gate
  | pollQueued taskId attemptId nowMs =>
      simp only [AuthoritativeRuntime.step]
      obtain ⟨admission, pending, he, -⟩ | ⟨pending, he, absent⟩ :=
        pollQueued_cases runtime taskId attemptId nowMs
      · rw [he]
        exact .of_ledger rfl
      · rw [he]
        exact (DependencyGate.QueueGate.drainQueued consistent (gate absent)).trans
          (.of_ledger rfl)
  | cancelQueued taskId attemptId =>
      simp only [AuthoritativeRuntime.step]
      obtain ⟨result, he⟩ | ⟨card, attemptKind, pending, ledger, he, found, waiting,
        replaced⟩ := cancelQueued_cases runtime taskId attemptId
      · rw [he]
        exact .of_ledger rfl
      · rw [he]
        refine .of_replaced rfl replaced ?_ fun running => ?_
        · intro old hold hdone
          rw [found] at hold
          cases hold
          cases waiting with
          | initial status _ => rw [hdone] at status; cases status
          | retry status _ => rw [hdone] at status; cases status
        · rw [withStatus_status] at running
          cases running
  | reapExpired nowMs =>
      exact reapExpired_invariant (fun _ _ h released => h.trans (.releases released))
        (.of_ledger rfl) nowMs
  | observeResourceSample sample => exact .of_ledger rfl

/-- In every run whose calls all pass the gate, every call that moves tasks to `Running`
finds their dependencies in the ledger and done. -/
theorem gated_run_respects_dependencies (deadlineHorizonMs : Nat) (profile : HardwareProfile)
    (before : List RuntimeOp) (op : RuntimeOp)
    (gated : Along step DependencyGate (new deadlineHorizonMs profile) (before ++ [op])) :
    StartsRespectDependencies (run step (new deadlineHorizonMs profile) before)
      (run step (new deadlineHorizonMs profile) (before ++ [op])) := by
  rw [run_append]
  have consistent := run_consistent deadlineHorizonMs profile before
  exact (Respects.step consistent gated.at_step).startsRespect

/-- Task 1 waits for task 2, which nobody has submitted. -/
def dependentSubmission : RuntimeOp :=
  .submit (.new 1 [2] 0 none none) (.minimal 1 .nativeTask) 0

theorem dependentSubmission_ignores_dependency :
    ¬ ∀ (deadlineHorizonMs : Nat) (profile : HardwareProfile) (before : List RuntimeOp)
      (op : RuntimeOp),
      StartsRespectDependencies (run step (new deadlineHorizonMs profile) before)
        (run step (new deadlineHorizonMs profile) (before ++ [op])) := by
  intro claim
  have starts := claim 1000 .small [] dependentSubmission
  have unknown : (new 1000 .small).ledger.task 1 = none := by decide
  have absent : (step (new 1000 .small) dependentSubmission).ledger.task 2 = none := by decide
  obtain ⟨dependency, found, -⟩ := starts 1
    { TaskCard.new 1 [2] 0 none none with status := .running, insertionOrder := 1 }
    (by decide) rfl (fun old h => absurd (unknown.symm.trans h) (by simp)) 2 (by decide)
  exact absurd (absent.symm.trans found) (by simp)

/-- Task 2 is completed before task 1 is submitted. -/
def completedBefore : List RuntimeOp :=
  [.submit (.new 2 [] 0 none none) (.minimal 2 .nativeTask) 0,
    .finish ⟨leaseTokenSchemaV1, 1, 1, 1⟩ .done 5]

theorem completedBefore_respects_dependencies :
    StartsRespectDependencies (run step (new 1000 .small) completedBefore)
      (run step (new 1000 .small) (completedBefore ++ [dependentSubmission])) := by
  refine gated_run_respects_dependencies 1000 .small completedBefore dependentSubmission
    ⟨fun _ _ => by decide, trivial, fun _ _ => by decide, trivial⟩

end AuthoritativeRuntime

end Aegis.Runtime
