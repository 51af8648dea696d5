import AegisCognition.Runtime.Consistency

/-!
# Operations of a consistent runtime

In a consistent runtime every operation is described by a few moves: a new card is
filed, a waiting attempt goes through admission, the front of the queue is taken off, a
lease is given back, or a waiting task is withdrawn. Each operation gets one lemma here,
and consistency itself is carried over all of them.
-/

namespace Aegis.Runtime

open Std Foundation Resource Aegis.Task List Option
open AdmissionController AuthoritativeRuntime TaskLedger

namespace AuthoritativeRuntime

variable {runtime other : AuthoritativeRuntime} {request : ResourceRequest} {nowMs : Nat}
variable {card : TaskCard} {ledger : TaskLedger} {taskId : Nat} {attemptKind : AttemptKind}

def withLedger (runtime : AuthoritativeRuntime) (ledger : TaskLedger) : AuthoritativeRuntime :=
  { runtime with ledger := ledger }

def withPending (runtime : AuthoritativeRuntime)
    (pending : ExtTreeMap (Nat × Nat) RuntimeAdmission pairCompare) : AuthoritativeRuntime :=
  { runtime with pendingAdmissions := pending }

theorem Consistent.withPending (h : Consistent runtime)
    (pending : ExtTreeMap (Nat × Nat) RuntimeAdmission pairCompare) :
    Consistent (runtime.withPending pending) :=
  h.of_eq rfl rfl rfl rfl rfl

/-- Admission keeps a runtime consistent, whichever way the attempt leaves it. -/
theorem Consistent.admitExisting (h : Consistent runtime)
    (fresh : request.key ∉ runtime.admission.queuedAttempts) :
    Consistent (runtime.admitExisting request nowMs attemptKind).2 ∧
      (runtime.admitExisting request nowMs attemptKind).1 ≠ none := by
  obtain ⟨outcome, he, -⟩ | ⟨outcome, he, -⟩ | ⟨position, reason, card, he, found, waiting, -,
    queueable⟩ | ⟨card, ledger, limit, he, found, waiting, replaced, -⟩ :=
    admitExisting_cases fresh nowMs attemptKind
  · rw [he]
    exact ⟨h, some_ne_none _⟩
  · rw [he]
    exact ⟨h, some_ne_none _⟩
  · rw [he]
    exact ⟨h.withQueued fresh queueable.space found waiting, some_ne_none _⟩
  · rw [he]
    exact ⟨h.withStarted fresh found waiting replaced, some_ne_none _⟩

section Submit

section

variable (request : ResourceRequest) (deadlineMs : Option Nat)

@[simp] theorem constrain_taskId :
    (constrainRequestToTaskDeadline request deadlineMs).taskId = request.taskId := rfl

@[simp] theorem constrain_attemptId :
    (constrainRequestToTaskDeadline request deadlineMs).attemptId = request.attemptId := rfl

@[simp] theorem constrain_key :
    (constrainRequestToTaskDeadline request deadlineMs).key = request.key := rfl

end

/-- The submission passes the checks made before admission. -/
structure Files (runtime : AuthoritativeRuntime) (task : TaskCard)
    (request : ResourceRequest) : Prop where
  taskId : task.taskId = request.taskId
  attemptId : task.attemptId = request.attemptId
  status : task.status = .pending
  inserted : (runtime.ledger.insertTask task).1 = .ok ()

/-- The card of a submitted task when its admission begins. -/
def submittedCard (runtime : AuthoritativeRuntime) (task : TaskCard) : TaskCard :=
  (runtime.ledger.filed task).withStatus .ready

theorem attemptRefusal_initial (found : runtime.ledger.task request.taskId = some card)
    (status : card.status = .ready) (attempt : card.attemptId = request.attemptId) :
    runtime.attemptRefusal request nowMs .initial = none := by
  have hvalid : runtime.ledger.validateStatusTransition request.taskId .admitted = .ok () := by
    simp [validateStatusTransition, found, status, TaskStatus.canTransitionTo]
  simp [attemptRefusal, found, status, attempt, hvalid, TaskStatus.canTransitionTo]

/-- A submission is turned away, or files a fresh card and passes on to admission. -/
theorem submit_cases (runtime : AuthoritativeRuntime) (task : TaskCard)
    (request : ResourceRequest) (nowMs : Nat) :
    (∃ error, runtime.submit task request nowMs = (some (.error error), runtime)) ∨
    (∃ ledger, runtime.submit task request nowMs =
        (runtime.withLedger ledger).admitExisting
          (constrainRequestToTaskDeadline request task.hardDeadlineMs) nowMs .initial ∧
      TaskLedger.Replaced runtime.ledger task.taskId (runtime.submittedCard task) ledger ∧
      runtime.ledger.task task.taskId = none ∧ Files runtime task request) := by
  unfold submit
  by_cases htask : task.taskId = request.taskId
  · by_cases hattempt : task.attemptId = request.attemptId
    · by_cases hstatus : task.status = .pending
      · obtain ⟨error, he⟩ | ⟨filed, he, hfiled, hfresh, -⟩ :=
          insertTask_cases runtime.ledger task
        · refine .inl ⟨.task error, ?_⟩
          simp [htask, hattempt, hstatus, he]
        · have hpending : (runtime.ledger.filed task).status = .pending := hstatus
          have allowed : (runtime.ledger.filed task).status = .ready ∨
              (runtime.ledger.filed task).status.canTransitionTo .ready = true :=
            .inr (by rw [hpending]; rfl)
          obtain ⟨ledger, hready, hledger⟩ :=
            transitionStatus_of_allowed hfiled.task_self allowed
          refine .inr ⟨ledger, ?_, hfiled.trans hledger, hfresh, htask, hattempt, hstatus,
            congrArg Prod.fst he⟩
          rw [htask] at hready
          simp only [htask, hattempt, hstatus, he, ne_eq, not_true_eq_false, if_false,
            constrain_taskId, hready]
          rfl
      · exact .inl ⟨.invalidTransition task.status, by simp [htask, hattempt, hstatus]⟩
    · exact .inl ⟨.attemptMismatch, by simp [htask, hattempt]⟩
  · exact .inl ⟨.taskRequestMismatch, by simp [htask]⟩

theorem Consistent.filed (h : Consistent runtime)
    (replaced : TaskLedger.Replaced runtime.ledger taskId card ledger)
    (fresh : runtime.ledger.task taskId = none) :
    Consistent (runtime.withLedger ledger) ∧
      ∀ attemptId, (taskId, attemptId) ∉ (runtime.withLedger ledger).admission.queuedAttempts := by
  have unqueued : ∀ queued ∈ runtime.admission.queuedRequests, queued.taskId ≠ taskId := by
    intro queued hmem htask
    obtain ⟨waits, _, hfound, -⟩ := h.waiting queued hmem
    rw [htask, fresh] at hfound
    cases hfound
  refine ⟨h.replace ?_ unqueued replaced, ?_⟩
  · intro card hfound
    rw [fresh] at hfound
    cases hfound
  · intro attemptId hmem
    obtain ⟨queued, hqueued, hkey⟩ := (h.index _).mp hmem
    exact unqueued queued hqueued (congrArg Prod.fst hkey)

end Submit

section Retry

theorem Consistent.queuedAttempt_none (h : Consistent runtime) {attemptId : Nat}
    (hnone : runtime.admission.queuedAttempt taskId attemptId = none) :
    (taskId, attemptId) ∉ runtime.admission.queuedAttempts := by
  intro hmem
  obtain ⟨queued, hqueued, hkey⟩ := (h.index _).mp hmem
  simp only [queuedAttempt, hmem, not_true_eq_false, if_false,
    map_eq_none_iff, List.find?_eq_none] at hnone
  obtain ⟨position, hposition⟩ := mem_iff_getElem?.mp hqueued
  refine hnone _ (mk_mem_zipIdx_iff_getElem?.mpr hposition) ?_
  simpa [ResourceRequest.key] using hkey

theorem consumeRejection_eq (runtime : AuthoritativeRuntime) (key : Nat × Nat) :
    ∃ pending, runtime.consumeRejection key = runtime.withPending pending := by
  unfold consumeRejection
  split
  · exact ⟨_, rfl⟩
  · exact ⟨runtime.pendingAdmissions, rfl⟩

/-- Results of a retry that changes nothing but the kept results. -/
inductive Unstarted : Except RuntimeError RuntimeAdmission → Prop where
  | failed (error : RuntimeError) : Unstarted (.error error)
  | queued (position : Nat) (reason : String) : Unstarted (.ok (.queued position reason))

/-- A retry is turned away, finds its own queue entry, or passes on to admission. -/
theorem retry_cases (h : Consistent runtime) (taskId : Nat) (request : ResourceRequest)
    (nowMs : Nat) :
    (∃ outcome pending, runtime.retry taskId request nowMs =
        (some outcome, runtime.withPending pending) ∧ Unstarted outcome) ∨
    (∃ pending card, runtime.retry taskId request nowMs =
        (runtime.withPending pending).admitExisting
          (constrainRequestToTaskDeadline request card.hardDeadlineMs) nowMs .retry ∧
      runtime.ledger.task taskId = some card ∧ request.taskId = taskId ∧
      Waiting card request.attemptId .retry ∧
      request.key ∉ runtime.admission.queuedAttempts) := by
  unfold retry
  by_cases htask : request.taskId = taskId
  · rw [if_neg (not_not.mpr htask)]
    cases hfound : runtime.ledger.task taskId with
    | none => exact .inl ⟨_, runtime.pendingAdmissions, rfl, .failed _⟩
    | some card =>
        by_cases hstatus : card.status = .retryWait
        · by_cases hattempt : checkedAdd u64Max card.attemptId 1 = some request.attemptId
          · simp only [hstatus, hattempt, ne_eq, not_true_eq_false, if_false, constrain_attemptId]
            obtain ⟨pending, hpending⟩ :=
              consumeRejection_eq runtime (taskId, request.attemptId)
            rw [hpending]
            cases hqueued : runtime.admission.queuedAttempt taskId request.attemptId with
            | some entry =>
                obtain ⟨position, queued⟩ := entry
                by_cases hsame : queued =
                    constrainRequestToTaskDeadline request card.hardDeadlineMs
                · refine .inl ⟨_, pending.erase (taskId, request.attemptId), ?_,
                    .queued position "retry attempt is already queued"⟩
                  simp only [withPending, hqueued, hsame, if_true, dropPending]
                · refine .inl ⟨.error (.resource (.invalidRequest
                    "queued retry attempt already has a different resource request")),
                    pending, ?_, .failed _⟩
                  simp only [withPending, hqueued, hsame, if_false]
            | none =>
                have fresh := h.queuedAttempt_none hqueued
                simp only [withPending, hqueued]
                refine .inr ⟨_, card, rfl, rfl, htask, .retry hstatus hattempt, ?_⟩
                rw [ResourceRequest.key, htask]
                exact fresh
          · refine .inl ⟨.error .attemptMismatch, runtime.pendingAdmissions, ?_, .failed _⟩
            simp [hstatus, hattempt, withPending]
        · refine .inl ⟨.error (.invalidTransition card.status), runtime.pendingAdmissions, ?_,
            .failed _⟩
          simp [hstatus, withPending]
  · exact .inl ⟨_, runtime.pendingAdmissions, if_pos htask, .failed _⟩

end Retry

section Drain

theorem dropFront_eq {rest : List ResourceRequest}
    (queue : runtime.admission.queuedRequests = request :: rest) :
    runtime.dropFront =
      { runtime with
        admission :=
          { runtime.admission with
            queuedRequests := rest
            queuedAttempts := runtime.admission.queuedAttempts.erase request.key } } := by
  simp [dropFront, popQueued, queue]

/-- Taking the front entry off keeps a runtime consistent, and frees its key. -/
theorem Consistent.dropFront (h : Consistent runtime) {rest : List ResourceRequest}
    (queue : runtime.admission.queuedRequests = request :: rest) :
    Consistent runtime.dropFront ∧
      request.key ∉ runtime.dropFront.admission.queuedAttempts ∧
      runtime.dropFront.admission.queuedRequests = rest := by
  have hnodup := h.keys_nodup
  rw [queue, map_cons, nodup_cons] at hnodup
  have hbounded := h.bounded
  rw [queue, length_cons] at hbounded
  rw [dropFront_eq queue]
  refine ⟨⟨h.holder, h.single, ?_, hnodup.2, ?_, ?_⟩, Finset.notMem_erase _ _, rfl⟩
  · intro key
    simp only [Finset.mem_erase, h.index, queue]
    constructor
    · rintro ⟨hne, queued, hmem, hkey⟩
      obtain rfl | hmem := mem_cons.mp hmem
      · exact absurd hkey.symm hne
      · exact ⟨queued, hmem, hkey⟩
    · rintro ⟨queued, hmem, hkey⟩
      refine ⟨?_, queued, mem_cons_of_mem _ hmem, hkey⟩
      rintro rfl
      exact hnodup.1 (mem_map.mpr ⟨queued, hmem, hkey⟩)
  · simp only
    omega
  · intro queued hmem
    exact h.waiting queued (queue ▸ mem_cons_of_mem _ hmem)

theorem queuedAttemptKind_of_waiting (found : runtime.ledger.task request.taskId = some card)
    (waiting : Waiting card request.attemptId attemptKind) :
    runtime.queuedAttemptKind request = .ok attemptKind := by
  cases waiting with
  | initial status attempt => simp [queuedAttemptKind, found, status, attempt]
  | retry status attempt => simp [queuedAttemptKind, found, status, attempt]

/-- One iteration of a drain stops, times an expired retry out, or takes the front of
the queue through admission again. -/
theorem drainOnce_cases (h : Consistent runtime) (nowMs : Nat) :
    runtime.drainOnce nowMs = (.stop, runtime) ∨
    ∃ request rest card attemptKind, runtime.admission.queuedRequests = request :: rest ∧
      runtime.ledger.task request.taskId = some card ∧
      Waiting card request.attemptId attemptKind ∧
      ((∃ ledger, runtime.drainOnce nowMs =
          (.yield ⟨request.taskId, request.attemptId, .rejected .deadlineExceeded⟩ true,
            runtime.dropFront.withLedger ledger) ∧
        TaskLedger.Replaced runtime.ledger request.taskId (card.withStatus .timedOut) ledger ∧
        attemptKind = .retry) ∨
      runtime.drainOnce nowMs = runtime.readmitFront request nowMs attemptKind) := by
  unfold drainOnce peekQueued
  cases hqueue : runtime.admission.queuedRequests with
  | nil => exact .inl rfl
  | cons request rest =>
      obtain ⟨card, attemptKind, found, waiting⟩ :=
        h.waiting request (hqueue ▸ mem_cons_self)
      simp only [List.head?_cons, queuedAttemptKind_of_waiting found waiting]
      cases attemptKind with
      | initial => exact .inr ⟨request, rest, card, .initial, rfl, found, waiting, .inr rfl⟩
      | retry =>
          simp only [found]
          split
          · have allowed : card.status = .timedOut ∨
                card.status.canTransitionTo .timedOut = true := by
              cases waiting with
              | retry status _ => exact .inr (by rw [status]; rfl)
            obtain ⟨ledger, he, replaced⟩ :=
              transitionStatus_of_allowed found allowed
            refine .inr ⟨request, rest, card, .retry, rfl, found, waiting,
              .inl ⟨ledger, ?_, replaced, rfl⟩⟩
            simp only [he]
            rfl
          · split
            · exact .inl rfl
            · exact .inr ⟨request, rest, card, .retry, rfl, found, waiting, .inr rfl⟩

theorem readmitFront_state (runtime : AuthoritativeRuntime) (request : ResourceRequest)
    (nowMs : Nat) (attemptKind : AttemptKind) :
    (runtime.readmitFront request nowMs attemptKind).2 =
      (runtime.dropFront.admitExisting request nowMs attemptKind).2 := by
  unfold readmitFront
  split <;> rename_i he <;> rw [he]

/-- An invariant of one iteration is an invariant of the whole drain. -/
theorem drainLoop_invariant {Inv : AuthoritativeRuntime → Prop}
    (keep : ∀ runtime, Inv runtime → Inv (runtime.drainOnce nowMs).2) (remaining : Nat)
    (start : Inv runtime) : Inv (drainLoop nowMs remaining runtime).2 := by
  induction remaining generalizing runtime with
  | zero => exact start
  | succ remaining ih =>
      have next := keep runtime start
      simp only [drainLoop]
      split <;> rename_i he <;> rw [he] at next
      · exact next
      · exact next
      · exact next
      · exact ih next

theorem readmitFront_calm
    (h : (runtime.dropFront.admitExisting request nowMs attemptKind).1 ≠ none) :
    (runtime.readmitFront request nowMs attemptKind).1 ≠ .panicked := by
  unfold readmitFront
  split
  · rename_i he
    exact absurd (congrArg Prod.fst he) h
  · exact DrainProgress.noConfusion

theorem Consistent.drainOnce (h : Consistent runtime) (nowMs : Nat) :
    Consistent (runtime.drainOnce nowMs).2 ∧ (runtime.drainOnce nowMs).1 ≠ .panicked := by
  obtain he | ⟨request, rest, card, attemptKind, queue, found, waiting, hmove⟩ :=
    drainOnce_cases h nowMs
  · rw [he]
    exact ⟨h, DrainProgress.noConfusion⟩
  · obtain ⟨dropped, fresh, -⟩ := h.dropFront queue
    obtain ⟨ledger, he, replaced, -⟩ | he := hmove
    · rw [he]
      have foundDropped : runtime.dropFront.ledger.task request.taskId = some card := found
      refine ⟨dropped.replace ?_ (dropped.unqueued foundDropped waiting fresh) replaced,
        DrainProgress.noConfusion⟩
      intro card' found'
      rw [foundDropped] at found'
      cases found'
      exact waiting.not_running
    · obtain ⟨kept, calm⟩ := dropped.admitExisting fresh
      rw [he, readmitFront_state]
      exact ⟨kept, readmitFront_calm calm⟩

/-- What is queued after an iteration was queued before it, for the same card. -/
theorem Consistent.drainOnce_queue (h : Consistent runtime) (nowMs : Nat) :
    ∀ queued ∈ (runtime.drainOnce nowMs).2.admission.queuedRequests,
      queued ∈ runtime.admission.queuedRequests ∧
        (runtime.drainOnce nowMs).2.ledger.task queued.taskId =
          runtime.ledger.task queued.taskId := by
  obtain he | ⟨request, rest, card, attemptKind, queue, found, waiting, hmove⟩ :=
    drainOnce_cases h nowMs
  · rw [he]
    exact fun queued hmem => ⟨hmem, rfl⟩
  · obtain ⟨dropped, fresh, hrest⟩ := h.dropFront queue
    have unqueued := dropped.unqueued found waiting fresh
    have behind : ∀ queued ∈ runtime.dropFront.admission.queuedRequests,
        queued ∈ runtime.admission.queuedRequests := by
      intro queued hmem
      rw [queue]
      exact mem_cons_of_mem _ (hrest ▸ hmem)
    obtain ⟨ledger, he, replaced, -⟩ | he := hmove
    · rw [he]
      exact fun queued hmem =>
        ⟨behind queued hmem, replaced.task_of_ne (unqueued queued hmem).symm⟩
    · rw [he, readmitFront_state]
      obtain ⟨outcome, he, -⟩ | ⟨outcome, he, -⟩ | ⟨position, reason, card, he, -⟩ |
        ⟨card, ledger, limit, he, -, -, replaced, -⟩ :=
        admitExisting_cases fresh nowMs attemptKind
      · rw [he]
        exact fun queued hmem => ⟨behind queued hmem, rfl⟩
      · rw [he]
        exact fun queued hmem => ⟨behind queued hmem, rfl⟩
      · rw [he]
        intro queued hmem
        obtain hmem | hmem := mem_append.mp hmem
        · exact ⟨behind queued hmem, rfl⟩
        · rw [mem_singleton] at hmem
          subst hmem
          exact ⟨queue ▸ mem_cons_self, rfl⟩
      · rw [he]
        exact fun queued hmem =>
          ⟨behind queued hmem, replaced.task_of_ne (unqueued queued hmem).symm⟩

/-- A drain keeps a runtime consistent and returns its results. -/
theorem Consistent.drainLoop (h : Consistent runtime) (nowMs remaining : Nat) :
    Consistent (drainLoop nowMs remaining runtime).2 ∧
      (drainLoop nowMs remaining runtime).1 ≠ none := by
  induction remaining generalizing runtime with
  | zero => exact ⟨h, some_ne_none _⟩
  | succ remaining ih =>
      obtain ⟨next, calm⟩ := h.drainOnce nowMs
      simp only [drainLoop]
      split <;> rename_i he <;> rw [he] at next calm
      · exact ⟨next, some_ne_none _⟩
      · exact absurd rfl calm
      · exact ⟨next, some_ne_none _⟩
      · obtain ⟨last, some⟩ := ih next
        exact ⟨last, fun hnone => some (map_eq_none_iff.mp hnone)⟩

/-- The attempt that a result is about. -/
def resultKey (result : QueuedRuntimeAdmission) : Nat × Nat :=
  (result.taskId, result.attemptId)

/-- A result is about the front entry, which has left the queue if the drain goes on. -/
theorem Consistent.drainOnce_result (h : Consistent runtime) (nowMs : Nat)
    (result : QueuedRuntimeAdmission) (proceed : Bool)
    (yields : (runtime.drainOnce nowMs).1 = .yield result proceed) :
    ∃ request rest, runtime.admission.queuedRequests = request :: rest ∧
      resultKey result = request.key ∧
      (proceed = true → (runtime.drainOnce nowMs).2.admission.queuedRequests = rest) := by
  obtain he | ⟨request, rest, card, attemptKind, queue, found, waiting, hmove⟩ :=
    drainOnce_cases h nowMs
  · rw [he] at yields
    cases yields
  · obtain ⟨-, fresh, left⟩ := h.dropFront queue
    refine ⟨request, rest, queue, ?_⟩
    obtain ⟨ledger, he, -⟩ | he := hmove
    · rw [he] at yields ⊢
      obtain ⟨rfl, -⟩ := DrainProgress.yield.inj yields
      exact ⟨rfl, fun _ => left⟩
    · rw [he] at yields ⊢
      unfold readmitFront at yields ⊢
      obtain ⟨outcome, he, -⟩ | ⟨outcome, he, -⟩ | ⟨position, reason, card, he, -⟩ |
        ⟨card, ledger, limit, he, -⟩ := admitExisting_cases fresh nowMs attemptKind
      all_goals
        simp only [he] at yields ⊢
        obtain ⟨rfl, rfl⟩ := DrainProgress.yield.inj yields
        refine ⟨rfl, fun goesOn => ?_⟩
      · exact left
      · exact left
      · cases goesOn
      · exact left

/-- The results of a drain are about the first entries of the queue, in order. -/
theorem Consistent.drainLoop_keys (h : Consistent runtime) (nowMs remaining : Nat)
    {results : List QueuedRuntimeAdmission}
    (returned : (AuthoritativeRuntime.drainLoop nowMs remaining runtime).1 = some results) :
    results.map resultKey <+: runtime.admission.queuedRequests.map ResourceRequest.key := by
  induction remaining generalizing runtime results with
  | zero =>
      cases returned
      exact nil_prefix
  | succ remaining ih =>
      have front := h.drainOnce_result nowMs
      have next := (h.drainOnce nowMs).1
      simp only [AuthoritativeRuntime.drainLoop] at returned
      split at returned <;> rename_i he <;> rw [he] at front next
      · cases returned
        exact nil_prefix
      · cases returned
      · cases returned
        obtain ⟨request, rest, queue, key, -⟩ := front _ _ rfl
        rw [queue, map_cons, map_cons, key]
        exact (prefix_cons_inj _).mpr nil_prefix
      · obtain ⟨request, rest, queue, key, left⟩ := front _ _ rfl
        obtain ⟨later, more, rfl⟩ := map_eq_some_iff.mp returned
        rw [queue, map_cons, map_cons, key, ← left rfl]
        exact (prefix_cons_inj _).mpr (ih next more)

end Drain

/-- What the polling task has been handed stays. -/
theorem deliver_fold_some (key : Nat × Nat) (results : List QueuedRuntimeAdmission)
    (admission : RuntimeAdmission)
    (pending : ExtTreeMap (Nat × Nat) RuntimeAdmission pairCompare) :
    (results.foldl (deliver key) (some admission, pending)).1 = some admission := by
  induction results generalizing pending with
  | nil => rfl
  | cons result results ih =>
      rw [foldl_cons, deliver, if_neg (by simp)]
      exact ih _

/-- The polling task is handed the result of the drain about the attempt it asks for. -/
theorem deliver_fold (key : Nat × Nat) {results : List QueuedRuntimeAdmission}
    (nodup : (results.map resultKey).Nodup) {result : QueuedRuntimeAdmission}
    (mem : result ∈ results) (own : resultKey result = key)
    (pending : ExtTreeMap (Nat × Nat) RuntimeAdmission pairCompare) :
    (results.foldl (deliver key) (none, pending)).1 = some result.admission := by
  induction results generalizing pending with
  | nil => cases mem
  | cons first results ih =>
      rw [map_cons, nodup_cons] at nodup
      rw [foldl_cons, deliver]
      obtain rfl | mem := mem_cons.mp mem
      · rw [if_pos ⟨own, rfl⟩]
        exact deliver_fold_some key results _ _
      · rw [if_neg]
        · exact ih nodup.2 mem _
        · rintro ⟨same, -⟩
          exact nodup.1 (mem_map.mpr ⟨result, mem, own.trans same.symm⟩)

/-- A poll only rearranges kept results around at most one drain. -/
theorem pollQueued_cases (runtime : AuthoritativeRuntime) (taskId attemptId nowMs : Nat) :
    (∃ admission pending, runtime.pollQueued taskId attemptId nowMs =
        (some (some admission), runtime.withPending pending) ∧
      runtime.pendingAdmissions[(taskId, attemptId)]? = some admission) ∨
    (∃ pending, (runtime.pollQueued taskId attemptId nowMs).2 =
        (runtime.drainQueued nowMs).2.withPending pending ∧
      runtime.pendingAdmissions[(taskId, attemptId)]? = none) := by
  cases hpending : runtime.pendingAdmissions[(taskId, attemptId)]? with
  | some admission => exact .inl ⟨admission, _, by simp only [pollQueued, hpending]; rfl, rfl⟩
  | none =>
      simp only [pollQueued, hpending]
      cases hdrain : runtime.drainQueued nowMs with
      | mk results next =>
          cases results with
          | none => exact .inr ⟨next.pendingAdmissions, rfl, trivial⟩
          | some results => exact .inr ⟨_, rfl, trivial⟩

section Cancel

/-- The queue without the entries of one attempt. -/
def withoutQueued (runtime : AuthoritativeRuntime) (key : Nat × Nat) : AuthoritativeRuntime :=
  { runtime with
    admission :=
      { runtime.admission with
        queuedRequests := runtime.admission.queuedRequests.filter (·.key ≠ key)
        queuedAttempts := runtime.admission.queuedAttempts.erase key } }

theorem Consistent.withoutQueued (h : Consistent runtime) (key : Nat × Nat) :
    Consistent (runtime.withoutQueued key) where
  holder := h.holder
  single := h.single
  index := by
    intro other
    simp only [AuthoritativeRuntime.withoutQueued, Finset.mem_erase, h.index, mem_filter,
      decide_eq_true_eq]
    constructor
    · rintro ⟨hne, queued, hmem, rfl⟩
      exact ⟨queued, ⟨hmem, hne⟩, rfl⟩
    · rintro ⟨queued, ⟨hmem, hne⟩, rfl⟩
      exact ⟨hne, queued, hmem, rfl⟩
  keys_nodup := h.keys_nodup.sublist (filter_sublist.map _)
  bounded := Nat.le_trans (length_filter_le _ _) h.bounded
  waiting := fun queued hmem => h.waiting queued (mem_filter.mp hmem).1

theorem removeQueued_cases (controller : AdmissionController) (taskId attemptId : Nat) :
    controller.removeQueued taskId attemptId = (false, controller) ∨
    controller.removeQueued taskId attemptId =
      (true,
        { controller with
          queuedRequests := controller.queuedRequests.filter (·.key ≠ (taskId, attemptId))
          queuedAttempts := controller.queuedAttempts.erase (taskId, attemptId) }) := by
  have hkept : controller.queuedRequests.filter
      (fun request => request.taskId ≠ taskId ∨ request.attemptId ≠ attemptId) =
      controller.queuedRequests.filter (·.key ≠ (taskId, attemptId)) := by
    refine filter_congr fun request _ => ?_
    simp [ResourceRequest.key, ← not_and_or]
  unfold removeQueued
  simp only [hkept]
  split
  · exact .inr rfl
  · rename_i hlength
    rw [not_not] at hlength
    have hsame := filter_sublist.eq_of_length hlength
    exact .inl (by rw [hsame])

/-- Withdrawing finds no entry, or takes it off and cancels the waiting task. -/
theorem withdrawQueued_cases {attemptId : Nat}
    (found : runtime.ledger.task taskId = some card)
    (waiting : Waiting card attemptId attemptKind) :
    runtime.withdrawQueued taskId attemptId = (.ok false, runtime) ∨
    (∃ pending ledger, runtime.withdrawQueued taskId attemptId =
        (.ok true, ((runtime.withoutQueued (taskId, attemptId)).withPending pending).withLedger
          ledger) ∧
      TaskLedger.Replaced runtime.ledger taskId (card.withStatus .cancelled) ledger) := by
  have allowed : card.status = .cancelled ∨ card.status.canTransitionTo .cancelled = true := by
    cases waiting with
    | initial status _ => exact .inr (by rw [status]; rfl)
    | retry status _ => exact .inr (by rw [status]; rfl)
  obtain ⟨ledger, hcancelled, replaced⟩ := transitionStatus_of_allowed found allowed
  unfold withdrawQueued
  obtain he | he := removeQueued_cases runtime.admission taskId attemptId
  · exact .inl (by simp only [he])
  · refine .inr ⟨runtime.pendingAdmissions.erase (taskId, attemptId), ledger, ?_, replaced⟩
    simp only [he, dropPending, hcancelled]
    rfl

/-- Cancelling fails or finds nothing without effect, or withdraws a waiting attempt. -/
theorem cancelQueued_cases (runtime : AuthoritativeRuntime) (taskId attemptId : Nat) :
    (∃ result, runtime.cancelQueued taskId attemptId = (result, runtime)) ∨
    (∃ card attemptKind pending ledger, runtime.cancelQueued taskId attemptId =
        (.ok true, ((runtime.withoutQueued (taskId, attemptId)).withPending pending).withLedger
          ledger) ∧
      runtime.ledger.task taskId = some card ∧ Waiting card attemptId attemptKind ∧
      TaskLedger.Replaced runtime.ledger taskId (card.withStatus .cancelled) ledger) := by
  unfold cancelQueued
  split
  · exact .inl ⟨_, rfl⟩
  · cases found : runtime.ledger.task taskId with
    | none => exact .inl ⟨_, rfl⟩
    | some card =>
        have finish : ∀ attemptKind, Waiting card attemptId attemptKind →
            (∃ result, runtime.withdrawQueued taskId attemptId = (result, runtime)) ∨
            (∃ card' attemptKind pending ledger, runtime.withdrawQueued taskId attemptId =
                (.ok true, ((runtime.withoutQueued (taskId, attemptId)).withPending
                  pending).withLedger ledger) ∧
              some card = some card' ∧ Waiting card' attemptId attemptKind ∧
              TaskLedger.Replaced runtime.ledger taskId (card'.withStatus .cancelled)
                ledger) := by
          intro attemptKind waiting
          obtain he | ⟨pending, ledger, he, replaced⟩ := withdrawQueued_cases found waiting
          · exact .inl ⟨_, he⟩
          · exact .inr ⟨card, attemptKind, pending, ledger, he, rfl, waiting, replaced⟩
        simp only
        by_cases initial : card.status = .ready ∧ card.attemptId = attemptId
        · rw [if_neg (fun h => h.1 initial)]
          exact finish .initial (.initial initial.1 initial.2)
        · by_cases retry : card.status = .retryWait ∧
              checkedAdd u64Max card.attemptId 1 = some attemptId
          · rw [if_neg (fun h => h.2 retry)]
            exact finish .retry (.retry retry.1 retry.2)
          · rw [if_pos ⟨initial, retry⟩]
            split
            · exact .inl ⟨_, rfl⟩
            · exact .inl ⟨_, rfl⟩

theorem Consistent.cancelQueued (h : Consistent runtime) (taskId attemptId : Nat) :
    Consistent (runtime.cancelQueued taskId attemptId).2 := by
  obtain ⟨result, he⟩ | ⟨card, attemptKind, pending, ledger, he, found, waiting, replaced⟩ :=
    cancelQueued_cases runtime taskId attemptId
  · rwa [he]
  · rw [he]
    have removed := (h.withoutQueued (taskId, attemptId)).withPending pending
    refine removed.replace ?_ ?_ replaced
    · intro card' found'
      have same : some card = some card' := found.symm.trans found'
      cases same
      exact waiting.not_running
    · refine removed.unqueued found waiting ?_
      exact Finset.notMem_erase _ _

end Cancel

theorem reapOne_eq (nowMs reclaimed : Nat) (runtime : AuthoritativeRuntime)
    (token : ResourceLeaseToken) :
    ∃ count, reapOne nowMs (reclaimed, runtime) token =
      (count, (runtime.finishAt token .timedOut nowMs).2) := by
  rw [reapOne]
  split <;> rename_i he <;> rw [he] <;> exact ⟨_, rfl⟩

/-- A reap gives back one lease after another. -/
theorem reapExpired_invariant {Inv : AuthoritativeRuntime → Prop}
    (keep : ∀ runtime next, Inv runtime → Releases runtime next → Inv next)
    (start : Inv runtime) (nowMs : Nat) : Inv (runtime.reapExpired nowMs).2 := by
  have loop : ∀ (tokens : List ResourceLeaseToken) (reclaimed : Nat) (runtime),
      Inv runtime → Inv (tokens.foldl (reapOne nowMs) (reclaimed, runtime)).2 := by
    intro tokens
    induction tokens with
    | nil => exact fun _ _ h => h
    | cons token tokens ih =>
        intro reclaimed runtime h
        obtain ⟨count, reaped⟩ := reapOne_eq nowMs reclaimed runtime token
        rw [foldl_cons, reaped]
        refine ih count _ ?_
        obtain ⟨error, he⟩ | ⟨next, he, released⟩ :=
          runtime.finishAt_cases token .timedOut nowMs
        · rw [he]
          exact h
        · rw [he]
          exact keep _ _ h released
  exact loop _ 0 runtime start

theorem Consistent.step (h : Consistent runtime) (op : RuntimeOp) :
    Consistent (runtime.step op) := by
  cases op with
  | submit task request nowMs =>
      simp only [AuthoritativeRuntime.step]
      obtain ⟨error, he⟩ | ⟨ledger, he, replaced, fresh, files⟩ :=
        submit_cases runtime task request nowMs
      · rwa [he]
      · rw [he]
        obtain ⟨filed, unqueued⟩ := h.filed replaced fresh
        refine (filed.admitExisting ?_).1
        rw [constrain_key, ResourceRequest.key, ← files.taskId]
        exact unqueued _
  | retry taskId request nowMs =>
      simp only [AuthoritativeRuntime.step]
      obtain ⟨outcome, pending, he, -⟩ | ⟨pending, card, he, -, -, -, fresh⟩ :=
        retry_cases h taskId request nowMs
      · rw [he]
        exact h.withPending pending
      · rw [he]
        refine ((h.withPending pending).admitExisting ?_).1
        exact fresh
  | finish token outcome nowMs =>
      simp only [AuthoritativeRuntime.step]
      obtain ⟨error, he⟩ | ⟨next, he, released⟩ := runtime.finishAt_cases token outcome nowMs
      · rwa [he]
      · rw [he]
        exact h.releases released
  | drainQueued nowMs => exact (h.drainLoop nowMs _).1
  | pollQueued taskId attemptId nowMs =>
      simp only [AuthoritativeRuntime.step]
      obtain ⟨admission, pending, he, -⟩ | ⟨pending, he, -⟩ :=
        pollQueued_cases runtime taskId attemptId nowMs
      · rw [he]
        exact h.withPending pending
      · rw [he]
        exact (h.drainLoop nowMs _).1.withPending pending
  | cancelQueued taskId attemptId => exact h.cancelQueued taskId attemptId
  | reapExpired nowMs => exact reapExpired_invariant (fun _ _ h => h.releases) h nowMs
  | observeResourceSample sample => exact h.of_eq rfl rfl rfl rfl rfl

theorem run_consistent (deadlineHorizonMs : Nat) (profile : HardwareProfile)
    (ops : List RuntimeOp) : Consistent (run step (new deadlineHorizonMs profile) ops) :=
  run_invariant (fun _ op h => h.step op) ops (consistent_new deadlineHorizonMs profile)

/-- The queue has room for what waits in it: one request of a task, and none of a task that
holds a lease. -/
theorem run_queues_tasks_once (deadlineHorizonMs : Nat) (profile : HardwareProfile)
    (ops : List RuntimeOp) :
    let admission := (run step (new deadlineHorizonMs profile) ops).admission
    admission.queuedRequests.length ≤ admission.queueLimit ∧
      (admission.queuedRequests.map (·.taskId)).Nodup ∧
      ∀ request ∈ admission.queuedRequests, ∀ (leaseId : Nat) (lease : ResourceLease),
        admission.active[leaseId]? = some lease → lease.taskId ≠ request.taskId := by
  intro admission
  have consistent := run_consistent deadlineHorizonMs profile ops
  refine ⟨consistent.bounded, ?_, ?_⟩
  · have keys := pairwise_map.mp consistent.keys_nodup
    refine pairwise_map.mpr (keys.imp_of_mem ?_)
    intro first second mem mem' differ same
    obtain ⟨card, _, found, waiting⟩ := consistent.waiting first mem
    obtain ⟨card', _, found', waiting'⟩ := consistent.waiting second mem'
    rw [same, found'] at found
    cases found
    exact differ (Prod.ext same (waiting.unique waiting'))
  · intro request mem leaseId lease active same
    obtain ⟨card, _, found, waiting⟩ := consistent.waiting request mem
    obtain ⟨card', found', running, -⟩ := consistent.holder leaseId lease active
    rw [same, found] at found'
    cases found'
    exact waiting.not_running running

end AuthoritativeRuntime

end Aegis.Runtime
