import AegisCognition.Foundation.Latest
import AegisCognition.Runtime.Deadline

/-!
# The attempts of a task

The leases of a task are issued for one attempt after the other, and for no more than three. The
lease of a later attempt is issued after the backoff that began when the lease before it was
given back, and before the hard deadline of the task. This holds for every run, whatever the times
its calls name. A call that does not start the attempt of a task leaves its card alone, or times
the task out.
-/

namespace Aegis.Runtime

open Std Foundation Resource Aegis.Task TaskCard List Option

/-- The attempts of a task for which leases were issued, in order. -/
def attempts (taskId : Nat) (history : List Happening) : List Nat :=
  history.filterMap fun
    | .issued id attemptId _ => if id = taskId then some attemptId else none
    | .finished _ _ _ => none

/-- How long a task waits once its first or its second attempt has ended. -/
def backoffMs (attemptId : Nat) : Nat :=
  if attemptId = 1 then 2000 else 4000

/-- The lease of an attempt is issued only when the lease of the attempt before it, if there was
one, has been given back and the backoff has passed since. -/
def Spaced (history : List Happening) : Prop :=
  ∀ before after taskId attemptId nowMs,
    history = before ++ .issued taskId (attemptId + 1) nowMs :: after →
    attemptId ∈ attempts taskId before →
    ∃ finishedMs, .finished taskId attemptId finishedMs ∈ before ∧
      (∀ otherMs, .finished taskId attemptId otherMs ∈ before → otherMs = finishedMs) ∧
      finishedMs + backoffMs attemptId ≤ nowMs

section History

variable {history : List Happening} {event : Happening} {taskId attemptId nowMs : Nat}

@[simp] theorem attempts_append {later : List Happening} :
    attempts taskId (history ++ later) = attempts taskId history ++ attempts taskId later :=
  filterMap_append ..

@[simp] theorem attempts_issued :
    attempts taskId [.issued taskId attemptId nowMs] = [attemptId] := by
  simp [attempts]

@[simp] theorem attempts_finished {other : Nat} :
    attempts taskId [.finished other attemptId nowMs] = [] := rfl

theorem attempts_other (other : event.taskId ≠ taskId) : attempts taskId [event] = [] := by
  cases event with
  | issued id attemptId nowMs => simpa [attempts, Happening.taskId] using other
  | finished => rfl

theorem attempts_eq_nil (none_of : ∀ event ∈ history, event.taskId ≠ taskId) :
    attempts taskId history = [] := by
  refine filterMap_eq_nil_iff.mpr fun event mem => ?_
  cases event with
  | issued id attemptId nowMs => exact if_neg (none_of _ mem)
  | finished => rfl

theorem spaced_nil : Spaced [] := by
  intro before after taskId attemptId nowMs split
  simp at split

/-- Only an issued lease has to be checked when a happening is added. -/
theorem Spaced.concat (h : Spaced history)
    (new : ∀ taskId attemptId nowMs, event = .issued taskId (attemptId + 1) nowMs →
      attemptId ∈ attempts taskId history →
      ∃ finishedMs, .finished taskId attemptId finishedMs ∈ history ∧
        (∀ otherMs, .finished taskId attemptId otherMs ∈ history → otherMs = finishedMs) ∧
        finishedMs + backoffMs attemptId ≤ nowMs) : Spaced (history ++ [event]) := by
  intro before after taskId attemptId nowMs split earlier
  obtain ⟨rest, -, split⟩ | ⟨-, issued, rfl⟩ := snoc_split split
  · exact h before rest taskId attemptId nowMs split earlier
  · exact new taskId attemptId nowMs issued.symm earlier

end History

theorem delayAfter_standard {attemptId delay : Nat}
    (h : RetryPolicy.standard.delayAfter attemptId = some delay) :
    attemptId < 3 ∧ delay = backoffMs attemptId := by
  obtain rfl | rfl | rfl | big :
      attemptId = 0 ∨ attemptId = 1 ∨ attemptId = 2 ∨ 3 ≤ attemptId := by omega
  · cases h
  · exact ⟨by decide, (Option.some.inj h).symm⟩
  · exact ⟨by decide, (Option.some.inj h).symm⟩
  · rw [RetryPolicy.delayAfter, if_pos (.inr big)] at h
    cases h

/-- What the history of a task says about its card. The attempts with leases are consecutive and
end with the one of the card; none but that one and earlier ones have ended. -/
structure Follows (history : List Happening) (taskId : Nat) (card : TaskCard) : Prop where
  bounds : 1 ≤ card.attemptId ∧ card.attemptId ≤ 3
  fresh : card.status = .ready → ∀ event ∈ history, event.taskId ≠ taskId
  series : ∃ first, 1 ≤ first ∧ first ≤ card.attemptId + 1 ∧
    attempts taskId history = List.range' first (card.attemptId + 1 - first)
  finished : ∀ attemptId nowMs, .finished taskId attemptId nowMs ∈ history →
    attemptId ≤ card.attemptId ∧ (card.status = .running → attemptId < card.attemptId)
  waits : card.status = .retryWait → card.attemptId < 3 ∧ ∃ finishedMs,
    .finished taskId card.attemptId finishedMs ∈ history ∧
    (∀ otherMs, .finished taskId card.attemptId otherMs ∈ history → otherMs = finishedMs) ∧
    card.retryNotBeforeMs.map (↑) = some (finishedMs + backoffMs card.attemptId)

section Follow

variable {history : List Happening} {taskId attemptId nowMs : Nat} {card : TaskCard}
variable {attemptKind : AttemptKind} {status : TaskStatus}

theorem Follows.other (h : Follows history taskId card) {event : Option Happening}
    (other : ∀ happening, event = some happening → happening.taskId ≠ taskId) :
    Follows (history ++ event.toList) taskId card := by
  cases event with
  | none => rwa [toList_none, append_nil]
  | some happening =>
      have other := other happening rfl
      have foreign (attemptId nowMs : Nat) :
          Happening.finished taskId attemptId nowMs ∈ history ++ [happening] ↔
            .finished taskId attemptId nowMs ∈ history := by
        rw [mem_append, mem_singleton, or_iff_left]
        rintro rfl
        exact other rfl
      refine ⟨h.bounds, fun ready => ?_, ?_, ?_, ?_⟩
      · intro event mem
        obtain mem | mem := mem_append.mp mem
        · exact h.fresh ready event mem
        · exact mem_singleton.mp mem ▸ other
      · rw [toList_some, attempts_append, attempts_other other, append_nil]
        exact h.series
      · intro attemptId nowMs mem
        exact h.finished attemptId nowMs ((foreign _ _).mp mem)
      · simp only [toList_some, foreign]
        exact h.waits

theorem Follows.dismissed (h : Follows history taskId card)
    (final : status = .timedOut ∨ status = .cancelled) :
    Follows history taskId (card.withStatus status) := by
  have apart : (card.withStatus status).status ≠ .ready ∧
      (card.withStatus status).status ≠ .running ∧
      (card.withStatus status).status ≠ .retryWait := by
    rw [withStatus_status]
    rcases final with rfl | rfl <;> simp
  refine ⟨?_, fun ready => absurd ready apart.1, ?_, ?_, fun waits => absurd waits apart.2.2⟩
  · rw [withStatus_attemptId]
    exact h.bounds
  · rw [withStatus_attemptId]
    exact h.series
  · intro attemptId nowMs mem
    rw [withStatus_attemptId]
    exact ⟨(h.finished attemptId nowMs mem).1, fun running => absurd running apart.2.1⟩

theorem Follows.started (h : Follows history taskId card)
    (waiting : Waiting card attemptId attemptKind) :
    Follows (history ++ [.issued taskId attemptId nowMs]) taskId (card.started attemptId) := by
  have finished (otherId otherMs : Nat) :
      Happening.finished taskId otherId otherMs ∈ history ++ [.issued taskId attemptId nowMs] ↔
        .finished taskId otherId otherMs ∈ history := by
    simp
  obtain ⟨first, positive, le, series⟩ := h.series
  cases waiting with
  | initial status attempt =>
      subst attempt
      have none_of := h.fresh status
      refine ⟨h.bounds, (fun ready => TaskStatus.noConfusion ready),
        ⟨card.attemptId, h.bounds.1, ?_, ?_⟩, ?_, fun waits => TaskStatus.noConfusion waits⟩
      · exact Nat.le_succ _
      · rw [attempts_append, attempts_issued, attempts_eq_nil none_of]
        simp [TaskCard.started]
      · intro otherId otherMs mem
        exact absurd rfl (none_of _ ((finished _ _).mp mem))
  | retry status attempt =>
      obtain ⟨-, rfl⟩ := checkedAdd_eq_some_iff.mp attempt
      have room := (h.waits status).1
      refine ⟨⟨by simp [TaskCard.started], room⟩, (fun ready => TaskStatus.noConfusion ready),
        ⟨first, positive, by simp only [TaskCard.started]; omega, ?_⟩, ?_,
        fun waits => TaskStatus.noConfusion waits⟩
      · rw [attempts_append, attempts_issued, series]
        have : (card.started (card.attemptId + 1)).attemptId + 1 - first =
            card.attemptId + 1 - first + 1 := by
          simp only [TaskCard.started]
          omega
        rw [this, range'_1_concat, Nat.add_sub_cancel' le]
      · intro otherId otherMs mem
        have := (h.finished otherId otherMs ((finished _ _).mp mem)).1
        simp only [TaskCard.started]
        omega

theorem Follows.settled {settled : TaskCard} (h : Follows history taskId card)
    (running : card.status = .running)
    (settles : AuthoritativeRuntime.Settles card settled)
    (delayed : settled.status = .retryWait → ∃ delay dueMs : Nat,
      RetryPolicy.standard.delayAfter card.attemptId = some delay ∧
      settled.retryNotBeforeMs.map (↑) = some dueMs ∧ dueMs = nowMs + delay) :
    Follows (history ++ [.finished taskId card.attemptId nowMs]) taskId settled := by
  have attempt : settled.attemptId = card.attemptId := by
    cases settles <;> simp
  refine ⟨?_, fun ready => absurd ready settles.not_ready, ?_, ?_, fun waits => ?_⟩
  · rw [attempt]
    exact h.bounds
  · rw [attempt, attempts_append, attempts_finished, append_nil]
    exact h.series
  · intro otherId otherMs mem
    rw [attempt]
    refine ⟨?_, fun running => absurd running settles.not_running⟩
    obtain mem | mem := mem_append.mp mem
    · exact (h.finished otherId otherMs mem).1
    · obtain ⟨-, rfl, -⟩ := Happening.finished.inj (mem_singleton.mp mem)
      exact le_rfl
  · obtain ⟨delay, dueMs, policy, due, rfl⟩ := delayed waits
    obtain ⟨small, rfl⟩ := delayAfter_standard policy
    rw [attempt]
    refine ⟨small, nowMs, by simp, fun otherMs mem => ?_, due⟩
    obtain mem | mem := mem_append.mp mem
    · exact absurd ((h.finished _ _ mem).2 running) (lt_irrefl _)
    · exact (Happening.finished.inj (mem_singleton.mp mem)).2.2

end Follow

namespace AuthoritativeRuntime

variable {runtime next : AuthoritativeRuntime} {history : List Happening}
variable {event : Option Happening} {nowMs taskId attemptId : Nat}

/-! ### Runs -/

structure Disciplined (history : List Happening) (runtime : AuthoritativeRuntime) : Prop where
  policy : runtime.ledger.retryPolicy = .standard
  unknown : ∀ taskId, runtime.ledger.task taskId = none → ∀ event ∈ history, event.taskId ≠ taskId
  follows : ∀ taskId card, runtime.ledger.task taskId = some card → Follows history taskId card
  spaced : Spaced history

theorem disciplined_new (deadlineHorizonMs : Nat) (profile : HardwareProfile) :
    Disciplined [] (new deadlineHorizonMs profile) where
  policy := rfl
  unknown := by simp
  follows := by simp [new, TaskLedger.new, TaskLedger.task]
  spaced := spaced_nil

theorem Disciplined.cardMove (h : Disciplined history runtime) {after : Option TaskCard}
    (moved : CardMove nowMs .standard taskId (runtime.ledger.task taskId) event after) :
    (after = none → ∀ event' ∈ history ++ event.toList, event'.taskId ≠ taskId) ∧
      ∀ card, after = some card → Follows (history ++ event.toList) taskId card := by
  have unknown := h.unknown taskId
  have follows := h.follows taskId
  generalize runtime.ledger.task taskId = before at moved unknown follows
  cases moved with
  | same _ _ other =>
      refine ⟨fun absent happening mem => ?_, fun card found => (follows card found).other other⟩
      obtain mem | mem := mem_append.mp mem
      · exact unknown absent happening mem
      · exact other happening (by simpa [eq_comm] using mem)
  | filed card status positive allowed =>
      refine ⟨fun absent => (some_ne_none _ absent).elim, fun card' same => ?_⟩
      cases same
      rw [toList_none, append_nil]
      have none_of := unknown rfl
      exact {
        bounds := ⟨Nat.one_le_iff_ne_zero.mpr positive, allowed⟩
        fresh := fun _ => none_of
        series := ⟨card.attemptId + 1, by omega, le_rfl, by simp [attempts_eq_nil none_of]⟩
        finished := fun attemptId nowMs mem => absurd rfl (none_of _ mem)
        waits := fun waits => by simp [status] at waits }
  | dismissed card attemptId attemptKind status waiting final =>
      refine ⟨fun absent => (some_ne_none _ absent).elim, fun card' same => ?_⟩
      cases same
      rw [toList_none, append_nil]
      exact (follows card rfl).dismissed final
  | started card attemptId attemptKind waiting due =>
      refine ⟨fun absent => (some_ne_none _ absent).elim, fun card' same => ?_⟩
      cases same
      exact (follows card rfl).started waiting
  | settled card settled running settles delayed =>
      refine ⟨fun absent => (some_ne_none _ absent).elim, fun card' same => ?_⟩
      cases same
      exact (follows card rfl).settled running settles delayed

/-- A lease for a later attempt is issued once the backoff has passed. -/
theorem Disciplined.issue (h : Disciplined history runtime) {after : Option TaskCard}
    {issuedMs : Nat}
    (moved : CardMove nowMs .standard taskId (runtime.ledger.task taskId)
      (some (.issued taskId (attemptId + 1) issuedMs)) after)
    (earlier : attemptId ∈ attempts taskId history) :
    ∃ finishedMs, .finished taskId attemptId finishedMs ∈ history ∧
      (∀ otherMs, .finished taskId attemptId otherMs ∈ history → otherMs = finishedMs) ∧
      finishedMs + backoffMs attemptId ≤ issuedMs := by
  have follows := h.follows taskId
  generalize runtime.ledger.task taskId = before at moved follows
  generalize shown : some (Happening.issued taskId (attemptId + 1) issuedMs) = event at moved
  cases moved with
  | same _ _ other =>
      exact absurd rfl (other _ shown.symm)
  | filed => cases shown
  | dismissed => cases shown
  | settled => cases shown
  | started card startedId attemptKind waiting due =>
      obtain ⟨-, rfl, rfl⟩ := Happening.issued.inj (Option.some.inj shown)
      have follow := follows card rfl
      cases waiting with
      | initial status attempt =>
          rw [attempts_eq_nil (follow.fresh status)] at earlier
          cases earlier
      | retry status attempt =>
          obtain ⟨-, same⟩ := checkedAdd_eq_some_iff.mp attempt
          obtain rfl := Nat.succ.inj same
          obtain ⟨-, finishedMs, mem, unique, notBefore⟩ := follow.waits status
          refine ⟨finishedMs, mem, unique, ?_⟩
          obtain ⟨startMs, found, start⟩ := map_eq_some_iff.mp notBefore
          have elapsed := due.2
          rw [backoffPending, found] at elapsed
          have := of_decide_eq_false elapsed
          omega

theorem Disciplined.move (h : Disciplined history runtime) (consistent : Consistent runtime)
    (move : Move nowMs runtime event next) : Disciplined (history ++ event.toList) next := by
  have moved (taskId : Nat) := move.card consistent taskId
  simp only [h.policy] at moved
  refine ⟨(moved 0).1, fun taskId => (h.cardMove (moved taskId).2).1,
    fun taskId => (h.cardMove (moved taskId).2).2, ?_⟩
  cases event with
  | none =>
      rw [toList_none, append_nil]
      exact h.spaced
  | some happening =>
      refine h.spaced.concat fun taskId attemptId issuedMs issued earlier => ?_
      subst issued
      exact h.issue (moved taskId).2 earlier

/-- Every lease was issued before the hard deadline of its task. -/
structure InTime (history : List Happening) (runtime : AuthoritativeRuntime) : Prop where
  disciplined : Disciplined history runtime
  deadlines : KeepsDeadlines runtime
  issued : ∀ taskId attemptId issuedMs, .issued taskId attemptId issuedMs ∈ history →
    ∀ card limitMs, runtime.ledger.task taskId = some card → card.hardDeadlineMs = some limitMs →
    issuedMs < limitMs

theorem Move.offer_of_issued {issuedMs : Nat}
    (h : Move nowMs runtime (some (.issued taskId attemptId issuedMs)) next) :
    ∃ request base card, Offer runtime request base ∧ request.taskId = taskId ∧
      runtime.ledger.task taskId = some card ∧ request.validate issuedMs = .ok () := by
  generalize shown : some (Happening.issued taskId attemptId issuedMs) = event at h
  cases h with
  | started request base card attemptKind ledger limit offer found _ _ valid =>
      obtain ⟨rfl, -, rfl⟩ := Happening.issued.inj (Option.some.inj shown)
      exact ⟨request, base, card, offer, rfl, found, valid⟩
  | _ => cases shown

theorem InTime.move (h : InTime history runtime) (consistent : Consistent runtime)
    (move : Move nowMs runtime event next) : InTime (history ++ event.toList) next := by
  refine ⟨h.disciplined.move consistent move, h.deadlines.move consistent move, ?_⟩
  intro taskId attemptId issuedMs mem card limitMs found limited
  obtain mem | mem := mem_append.mp mem
  · cases found' : runtime.ledger.task taskId with
    | none => exact absurd rfl (h.disciplined.unknown taskId found' _ mem)
    | some before =>
        rw [move.hardDeadlineMs consistent found' found] at limited
        exact h.issued taskId attemptId issuedMs mem before limitMs found' limited
  · obtain rfl : event = some (.issued taskId attemptId issuedMs) := by simpa using mem
    obtain ⟨request, base, before, offer, rfl, found', valid⟩ := move.offer_of_issued
    rw [move.hardDeadlineMs consistent found' found] at limited
    obtain ⟨deadlineMs, own, le⟩ := offer.clamped h.deadlines found' limitMs limited
    exact Nat.lt_of_lt_of_le (deadline_of_validate valid own) le

theorem run_inTime (deadlineHorizonMs : Nat) (profile : HardwareProfile) (ops : List RuntimeOp) :
    InTime (trace step happenings (new deadlineHorizonMs profile) ops)
      (run step (new deadlineHorizonMs profile) ops) :=
  run_invariant_moves InTime (fun _ _ _ _ _ consistent h => h.move consistent)
    ⟨disciplined_new deadlineHorizonMs profile, keepsDeadlines_new deadlineHorizonMs profile,
      by simp⟩ ops

/-! ### Calls that start no attempt -/

/-- The card of the task stays, or the task is timed out. -/
def Untouched (taskId : Nat) (runtime next : AuthoritativeRuntime) : Prop :=
  next.ledger.task taskId = runtime.ledger.task taskId ∨
    ∃ card, runtime.ledger.task taskId = some card ∧
      next.ledger.task taskId = some (card.withStatus .timedOut)

/-- A retry that does not end in admission leaves its task alone. A poll leaves each task alone of
which it admits no attempt, or times it out; so does a poll for the attempt that is queued, if
its answer is no admission. -/
def LeavesUnadmitted (runtime : AuthoritativeRuntime) : RuntimeOp → Prop
  | .retry taskId request nowMs =>
      (∀ token, (runtime.retry taskId request nowMs).1 ≠ some (.ok (.admitted token))) →
      (runtime.retry taskId request nowMs).2.ledger.task taskId = runtime.ledger.task taskId
  | .pollQueued taskId attemptId nowMs =>
      (∀ other, (∀ otherId issuedMs, .issued other otherId issuedMs ∉
          runtime.happenings (.pollQueued taskId attemptId nowMs)) →
        Untouched other runtime (runtime.pollQueued taskId attemptId nowMs).2) ∧
      ((∀ request ∈ runtime.admission.queuedRequests, request.taskId = taskId →
          request.attemptId = attemptId) →
        (∀ token, (runtime.pollQueued taskId attemptId nowMs).1 ≠ some (some (.admitted token))) →
        Untouched taskId runtime (runtime.pollQueued taskId attemptId nowMs).2)
  | _ => True

theorem retry_unadmitted (consistent : Consistent runtime) {request : ResourceRequest}
    (unadmitted : ∀ token, (runtime.retry taskId request nowMs).1 ≠ some (.ok (.admitted token))) :
    (runtime.retry taskId request nowMs).2.ledger = runtime.ledger := by
  obtain ⟨outcome, pending, he, -⟩ | ⟨pending, card, he, found, task, waiting, fresh⟩ :=
    retry_cases consistent taskId request nowMs
  · rw [he]
    rfl
  · rw [he] at unadmitted ⊢
    have fresh : (constrainRequestToTaskDeadline request card.hardDeadlineMs).key ∉
        (runtime.withPending pending).admission.queuedAttempts := fresh
    obtain ⟨outcome, he, -⟩ | ⟨outcome, he, -⟩ | ⟨position, reason, card, he, -⟩ |
      ⟨card, ledger, limit, he, -⟩ := admitExisting_cases fresh nowMs .retry
    · rw [he]
      rfl
    · rw [he]
      rfl
    · rw [he]
      rfl
    · rw [he] at unadmitted
      exact absurd rfl (unadmitted _)

theorem Untouched.trans (h : Untouched taskId runtime next) {last : AuthoritativeRuntime}
    (h' : Untouched taskId next last) : Untouched taskId runtime last := by
  obtain same | ⟨card, found, timedOut⟩ := h
  · rw [Untouched, ← same]
    exact h'
  · refine .inr ⟨card, found, ?_⟩
    obtain same | ⟨card', found', timedOut'⟩ := h'
    · rw [same, timedOut]
    · obtain rfl := Option.some.inj (timedOut.symm.trans found')
      rw [timedOut', withStatus_withStatus]

/-- An iteration of a drain that issues no lease for a task leaves it alone, or times it out. -/
theorem drainOnce_untouched (consistent : Consistent runtime) (taskId nowMs : Nat)
    (none_issued : ∀ attemptId issuedMs, .issued taskId attemptId issuedMs ∉
      progressHappenings nowMs (runtime.drainOnce nowMs).1) :
    Untouched taskId runtime (runtime.drainOnce nowMs).2 := by
  obtain he | ⟨request, rest, card, attemptKind, queue, found, waiting, hmove⟩ :=
    drainOnce_cases consistent nowMs
  · rw [he]
    exact .inl rfl
  · obtain ⟨ledger, he, replaced, -⟩ | he := hmove
    · rw [he]
      by_cases same : request.taskId = taskId
      · subst same
        exact .inr ⟨card, found, replaced.task_self⟩
      · exact .inl (replaced.task_of_ne same)
    · rw [he, progressHappenings_readmitFront] at none_issued
      rw [he, readmitFront_state]
      obtain ⟨outcome, he, -⟩ | ⟨outcome, he, -⟩ | ⟨position, reason, card, he, -⟩ |
        ⟨card, ledger, limit, he, -, -, replaced, -⟩ :=
        admitExisting_cases (consistent.dropFront queue).2.1 nowMs attemptKind
      · rw [he]
        exact .inl rfl
      · rw [he]
        exact .inl rfl
      · rw [he]
        exact .inl rfl
      · rw [he] at none_issued ⊢
        refine .inl (replaced.task_of_ne ?_)
        rintro rfl
        exact none_issued _ _ mem_cons_self

theorem drainLoop_untouched (consistent : Consistent runtime) (remaining : Nat)
    (none_issued : ∀ attemptId issuedMs, .issued taskId attemptId issuedMs ∉
      resultsHappenings nowMs (drainLoop nowMs remaining runtime).1) :
    Untouched taskId runtime (drainLoop nowMs remaining runtime).2 := by
  induction remaining generalizing runtime with
  | zero => exact .inl rfl
  | succ remaining ih =>
      have first := drainOnce_untouched consistent taskId nowMs
      obtain ⟨next, calm⟩ := consistent.drainOnce nowMs
      simp only [drainLoop] at none_issued ⊢
      split at none_issued <;> rename_i he <;> simp only [he] at first next calm ⊢
      · exact first fun _ _ mem => by cases mem
      · exact absurd rfl calm
      · exact first (by simpa [resultsHappenings, progressHappenings] using none_issued)
      · rename_i result last
        have returned := (next.drainLoop nowMs remaining).2
        obtain ⟨results, hresults⟩ := ne_none_iff_exists'.mp returned
        have rest := ih next
        rw [hresults] at rest none_issued
        have split : resultsHappenings nowMs ((some results).map (result :: ·)) =
            resultHappenings nowMs result ++ resultsHappenings nowMs (some results) := rfl
        simp only [split, mem_append, not_or] at none_issued
        exact (first fun id ms => (none_issued id ms).1).trans
          (rest fun id ms => (none_issued id ms).2)

theorem Untouched.withPending (h : Untouched taskId runtime next)
    (pending : ExtTreeMap (Nat × Nat) RuntimeAdmission pairCompare) :
    Untouched taskId runtime (next.withPending pending) := h

theorem pollQueued_untouched (consistent : Consistent runtime) {other : Nat}
    (none_issued : ∀ otherId issuedMs, .issued other otherId issuedMs ∉
      runtime.happenings (.pollQueued taskId attemptId nowMs)) :
    Untouched other runtime (runtime.pollQueued taskId attemptId nowMs).2 := by
  obtain ⟨admission, pending, he, -⟩ | ⟨pending, he, absent⟩ :=
    pollQueued_cases runtime taskId attemptId nowMs
  · rw [he]
    exact .inl rfl
  · simp only [happenings, absent, isSome_none, Bool.false_eq_true, if_false]
      at none_issued
    rw [he]
    exact (drainLoop_untouched consistent _ none_issued).withPending pending

/-- The lease that a drain issues is in the result about the attempt. -/
theorem exists_result_of_issued {results : List QueuedRuntimeAdmission} {issuedMs : Nat}
    (h : .issued taskId attemptId issuedMs ∈ resultsHappenings nowMs (some results)) :
    ∃ result ∈ results, resultKey result = (taskId, attemptId) ∧
      isAdmitted result.admission := by
  obtain ⟨result, mem, shown⟩ := mem_flatMap.mp h
  unfold resultHappenings at shown
  split at shown
  · rename_i admitted
    obtain ⟨rfl, rfl, -⟩ := Happening.issued.inj (mem_singleton.mp shown)
    exact ⟨result, mem, rfl, admitted⟩
  · cases shown

theorem pollQueued_admitted (consistent : Consistent runtime)
    (queued : ∀ request ∈ runtime.admission.queuedRequests, request.taskId = taskId →
      request.attemptId = attemptId) {otherId issuedMs : Nat}
    (issued : .issued taskId otherId issuedMs ∈
      runtime.happenings (.pollQueued taskId attemptId nowMs)) :
    ∃ token, (runtime.pollQueued taskId attemptId nowMs).1 = some (some (.admitted token)) := by
  simp only [happenings] at issued
  split at issued
  · cases issued
  · rename_i absent
    have absent := not_isSome_iff_eq_none.mp absent
    cases drained : runtime.drainQueued nowMs with
    | mk returned next =>
        rw [drained] at issued
        cases returned with
        | none => cases issued
        | some results =>
            obtain ⟨result, mem, own, admitted⟩ := exists_result_of_issued issued
            have returned : (runtime.drainQueued nowMs).1 = some results := by
              rw [drained]
            have front := consistent.drainLoop_keys nowMs _ returned
            have known := front.subset (mem_map_of_mem mem)
            rw [own] at known
            obtain ⟨request, mem', key⟩ := mem_map.mp known
            obtain ⟨task, attempt⟩ := Prod.mk.inj key
            have same := queued request mem' task
            rw [attempt] at same
            subst same
            have target := deliver_fold (taskId, otherId)
              (consistent.keys_nodup.sublist (consistent.drainLoop_keys _ _ returned).sublist)
              mem own next.pendingAdmissions
            simp only [pollQueued, absent, drained, target]
            cases admission : result.admission with
            | admitted token => exact ⟨token, rfl⟩
            | queued => simp [admission, isAdmitted] at admitted
            | rejected => simp [admission, isAdmitted] at admitted

theorem Consistent.leavesUnadmitted (consistent : Consistent runtime) (op : RuntimeOp) :
    LeavesUnadmitted runtime op := by
  cases op with
  | retry taskId request nowMs =>
      intro unadmitted
      rw [TaskLedger.task, retry_unadmitted consistent unadmitted, TaskLedger.task]
  | pollQueued taskId attemptId nowMs =>
      refine ⟨fun other none_issued => pollQueued_untouched consistent none_issued, ?_⟩
      intro queued unadmitted
      refine pollQueued_untouched consistent fun otherId issuedMs issued => ?_
      obtain ⟨token, answer⟩ := pollQueued_admitted consistent queued issued
      exact unadmitted token answer
  | _ => trivial

/-- In every run, the leases of a task are issued for one attempt after the other, at most for the
third. The lease of a later attempt is issued once the backoff has passed since the end of the
attempt before it, and no lease is issued past the hard deadline of its task. What the retries and
the polls do not admit, they leave alone. -/
theorem run_retries_disciplined (deadlineHorizonMs : Nat) (profile : HardwareProfile)
    (ops : List RuntimeOp) :
    (∀ taskId, ∃ first count, attempts taskId
        (trace step happenings (new deadlineHorizonMs profile) ops) = List.range' first count ∧
      ∀ attemptId ∈ attempts taskId (trace step happenings (new deadlineHorizonMs profile) ops),
        1 ≤ attemptId ∧ attemptId ≤ 3) ∧
    Spaced (trace step happenings (new deadlineHorizonMs profile) ops) ∧
    (∀ taskId attemptId nowMs, .issued taskId attemptId nowMs ∈
        trace step happenings (new deadlineHorizonMs profile) ops →
      ∃ card, (run step (new deadlineHorizonMs profile) ops).ledger.task taskId = some card ∧
        ∀ limitMs, card.hardDeadlineMs = some limitMs → nowMs < limitMs) ∧
    ∀ before op after, ops = before ++ op :: after →
      LeavesUnadmitted (run step (new deadlineHorizonMs profile) before) op := by
  have inTime := run_inTime deadlineHorizonMs profile ops
  refine ⟨fun taskId => ?_, inTime.disciplined.spaced, ?_, fun before op after _ =>
    (run_consistent deadlineHorizonMs profile before).leavesUnadmitted op⟩
  · cases found : (run step (new deadlineHorizonMs profile) ops).ledger.task taskId with
    | none =>
        have empty := attempts_eq_nil (inTime.disciplined.unknown taskId found)
        exact ⟨0, 0, empty, by simp [empty]⟩
    | some card =>
        have follows := inTime.disciplined.follows taskId card found
        obtain ⟨first, positive, le, series⟩ := follows.series
        refine ⟨first, _, series, fun attemptId mem => ?_⟩
        have := follows.bounds
        rw [series, mem_range'_1] at mem
        omega
  · intro taskId attemptId nowMs mem
    cases found : (run step (new deadlineHorizonMs profile) ops).ledger.task taskId with
    | none => exact absurd rfl (inTime.disciplined.unknown taskId found _ mem)
    | some card =>
        exact ⟨card, rfl,
          fun limitMs => inTime.issued taskId attemptId nowMs mem card limitMs found⟩

/-- A poll for an attempt that is not queued starts the attempt of the same task that is. -/
theorem poll_of_other_attempt_starts_task :
    ¬ ∀ (ops : List RuntimeOp) (taskId attemptId nowMs : Nat),
      let runtime := run step (new 1000 .small) ops
      (∀ token, (runtime.pollQueued taskId attemptId nowMs).1 ≠ some (some (.admitted token))) →
      Untouched taskId runtime (runtime.pollQueued taskId attemptId nowMs).2 := by
  intro h
  obtain same | ⟨card, -, timedOut⟩ := h (startAfterRelease.take 4) 3 9 6 fun token answer => by
    have unanswered : ((run step (new 1000 .small) (startAfterRelease.take 4)).pollQueued
        3 9 6).1 = some none := by decide
    rw [unanswered] at answer
    cases answer
  all_goals
    have started : (((run step (new 1000 .small) (startAfterRelease.take 4)).pollQueued
        3 9 6).2.ledger.task 3).map TaskCard.status = some .running := by decide
  · rw [same] at started
    exact absurd started (by decide)
  · rw [timedOut] at started
    simp at started

end AuthoritativeRuntime

end Aegis.Runtime
