import AegisCognition.Task.Ledger

/-!
# What one ledger operation can do

A successful operation on a task replaces exactly one card and leaves the retry policy
alone; a failed one leaves the ledger as it was. The lemmas below name the new card.
-/

namespace Aegis.Task

open Std Foundation OrderedMap

namespace TaskLedger

variable {ledger middle next : TaskLedger} {taskId other attemptId nowMs notBeforeMs : Nat}
variable {card : TaskCard} {status : TaskStatus}

/-- `next` is `ledger` with the card of one task replaced. -/
structure Replaced (ledger : TaskLedger) (taskId : Nat) (card : TaskCard)
    (next : TaskLedger) : Prop where
  tasks : next.tasks = ledger.tasks.insert taskId card
  retryPolicy : next.retryPolicy = ledger.retryPolicy

theorem replaced_put (ledger : TaskLedger) (taskId : Nat) (card : TaskCard) :
    Replaced ledger taskId card (ledger.put taskId card) :=
  ⟨rfl, rfl⟩

theorem Replaced.trans {first : TaskCard} (h : Replaced ledger taskId first middle)
    (h' : Replaced middle taskId card next) : Replaced ledger taskId card next := by
  refine ⟨?_, h'.retryPolicy.trans h.retryPolicy⟩
  rw [h'.tasks, h.tasks, insert_insert]

theorem Replaced.task_self (h : Replaced ledger taskId card next) :
    next.task taskId = some card := by
  simp [task, h.tasks]

theorem Replaced.task_of_ne (h : Replaced ledger taskId card next) (hne : taskId ≠ other) :
    next.task other = ledger.task other := by
  rw [task, h.tasks, getElem?_insert_of_ne hne]
  rfl

theorem Replaced.task_eq_some_iff (h : Replaced ledger taskId card next) {found : TaskCard} :
    next.task other = some found ↔
      taskId = other ∧ card = found ∨ taskId ≠ other ∧ ledger.task other = some found := by
  rw [task, h.tasks, getElem?_insert_eq_some_iff]
  rfl

/-- A card is filed under an id the ledger does not hold, or nothing happens. -/
theorem insertTask_cases (ledger : TaskLedger) (card : TaskCard) :
    (∃ error, ledger.insertTask card = (.error error, ledger)) ∨
    (∃ next, ledger.insertTask card = (.ok (), next) ∧
      Replaced ledger card.taskId (ledger.filed card) next ∧
      ledger.task card.taskId = none ∧ card.taskId ≠ 0 ∧ card.attemptId ≠ 0 ∧
      card.attemptId ≤ ledger.retryPolicy.maxTotalAttempts) := by
  unfold insertTask
  by_cases hid : card.taskId = 0 ∨
      (card.dependencyIds.any fun id => id = 0 ∨ id = card.taskId) = true
  · exact .inl ⟨_, if_pos hid⟩
  · rw [if_neg hid]
    by_cases hattempt : card.attemptId = 0 ∨
        ledger.retryPolicy.maxTotalAttempts < card.attemptId
    · exact .inl ⟨_, if_pos hattempt⟩
    · rw [if_neg hattempt]
      cases hfound : ledger.task card.taskId with
      | some found => exact .inl ⟨_, rfl⟩
      | none =>
          rw [not_or] at hid hattempt
          exact .inr ⟨_, rfl, ⟨rfl, rfl⟩, rfl, hid.1, hattempt.1, Nat.le_of_not_lt hattempt.2⟩

theorem validateStatusTransition_cases (ledger : TaskLedger) (taskId : Nat)
    (status : TaskStatus) :
    (∃ error, ledger.validateStatusTransition taskId status = .error error) ∨
    (∃ card, ledger.task taskId = some card ∧
      (card.status = status ∨ card.status.canTransitionTo status = true) ∧
      ledger.validateStatusTransition taskId status = .ok ()) := by
  unfold validateStatusTransition
  cases hfound : ledger.task taskId with
  | none => exact .inl ⟨_, rfl⟩
  | some card =>
      by_cases hallowed : card.status = status ∨ card.status.canTransitionTo status = true
      · exact .inr ⟨card, rfl, hallowed, if_pos hallowed⟩
      · exact .inl ⟨_, if_neg hallowed⟩

/-- A permitted transition replaces the card by the one under the new status. -/
theorem transitionStatus_of_allowed (hfound : ledger.task taskId = some card)
    (hallowed : card.status = status ∨ card.status.canTransitionTo status = true) :
    ∃ next, ledger.transitionStatus taskId status = (.ok (), next) ∧
      Replaced ledger taskId (card.withStatus status) next := by
  have hvalid : ledger.validateStatusTransition taskId status = .ok () := by
    simp only [validateStatusTransition, hfound]
    exact if_pos hallowed
  simp only [transitionStatus, hvalid, setStatus, hfound]
  by_cases hsame : card.status = status
  · refine ⟨ledger, if_pos hsame, ?_, rfl⟩
    rw [TaskCard.withStatus, if_pos hsame]
    exact (insert_self hfound).symm
  · exact ⟨_, if_neg hsame, replaced_put _ _ _⟩

theorem validateRetryWait_ok (h : ledger.validateRetryWait taskId notBeforeMs = .ok ()) :
    ∃ card, ledger.task taskId = some card ∧ card.status = .running := by
  unfold validateRetryWait at h
  cases hfound : ledger.task taskId with
  | none => simp [hfound] at h
  | some card =>
      refine ⟨card, rfl, ?_⟩
      by_contra hstatus
      simp [hfound, hstatus] at h

theorem scheduleRetryWait_of_valid (hpos : 0 < notBeforeMs)
    (hvalid : ledger.validateRetryWait taskId notBeforeMs = .ok ())
    (hfound : ledger.task taskId = some card) :
    ∃ next, ledger.scheduleRetryWait taskId notBeforeMs = (.ok (), next) ∧
      Replaced ledger taskId
        { card with retryNotBeforeMs := some ⟨notBeforeMs, hpos⟩, status := .retryWait } next := by
  simp only [scheduleRetryWait, dif_pos hpos, hvalid, hfound]
  exact ⟨_, rfl, replaced_put _ _ _⟩

theorem startRetryAttempt_of_valid
    (hvalid : ledger.validateRetryStart taskId attemptId nowMs = .ok ())
    (hfound : ledger.task taskId = some card) :
    ∃ next, ledger.startRetryAttempt taskId attemptId nowMs = (.ok (), next) ∧
      Replaced ledger taskId
        { card with attemptId := attemptId, retryNotBeforeMs := none, status := .running }
        next := by
  simp only [startRetryAttempt, hvalid, hfound]
  exact ⟨_, rfl, replaced_put _ _ _⟩

theorem dependenciesAreDone_iff :
    ledger.dependenciesAreDone card = true ↔
      ∀ dependencyId ∈ card.dependencyIds, ∃ dependency,
        ledger.task dependencyId = some dependency ∧ dependency.status = .done := by
  simp only [dependenciesAreDone, List.all_eq_true]
  refine forall₂_congr fun dependencyId _ => ?_
  cases ledger.task dependencyId <;> simp

end TaskLedger

theorem RetryPolicy.delayAfter_pos {policy : RetryPolicy} {attemptId delay : Nat}
    (h : policy.delayAfter attemptId = some delay) : 0 < delay := by
  simp only [delayAfter] at h
  split at h
  · cases h
  · split at h
    · cases h
      assumption
    · cases h

namespace TaskCard

variable {card : TaskCard} {status : TaskStatus}

@[simp] theorem withStatus_status : (card.withStatus status).status = status := by
  unfold withStatus
  split <;> simp_all

@[simp] theorem withStatus_attemptId : (card.withStatus status).attemptId = card.attemptId := by
  unfold withStatus
  split <;> rfl

@[simp] theorem withStatus_dependencyIds :
    (card.withStatus status).dependencyIds = card.dependencyIds := by
  unfold withStatus
  split <;> rfl

@[simp] theorem withStatus_hardDeadlineMs :
    (card.withStatus status).hardDeadlineMs = card.hardDeadlineMs := by
  unfold withStatus
  split <;> rfl

@[simp] theorem withStatus_withStatus :
    (card.withStatus status).withStatus status = card.withStatus status :=
  if_pos withStatus_status

@[simp] theorem withStatus_taskId : (card.withStatus status).taskId = card.taskId := by
  unfold withStatus
  split <;> rfl

end TaskCard

end Aegis.Task
