import AegisCognition.Runtime.Lease

/-!
# The moves of a consistent runtime

Every call is a sequence of moves, each of which changes at most one task. A move shows at most
one happening: a lease is issued for an attempt, or the lease of an attempt is given back. An
invariant of the moves is an invariant of every run, together with all that the run has shown.
-/

namespace Aegis.Runtime

open Std Foundation Resource Aegis.Task List Option

/-- What becomes of an attempt, and when. -/
inductive Happening where
  | issued (taskId attemptId nowMs : Nat)
  | finished (taskId attemptId nowMs : Nat)

/-- A request of the task ends no later than the task has to. -/
def Clamped (card : TaskCard) (request : ResourceRequest) : Prop :=
  ∀ limitMs, card.hardDeadlineMs = some limitMs →
    ∃ deadlineMs, request.deadlineMs = some deadlineMs ∧ deadlineMs ≤ limitMs

theorem clamped_constrain (card : TaskCard) (request : ResourceRequest) :
    Clamped card (constrainRequestToTaskDeadline request card.hardDeadlineMs) := by
  intro limitMs deadline
  cases own : request.deadlineMs with
  | none => exact ⟨limitMs, by simp [constrainRequestToTaskDeadline, own, deadline], le_rfl⟩
  | some ownMs =>
      refine ⟨min ownMs limitMs, ?_, Nat.min_le_right ..⟩
      simp [constrainRequestToTaskDeadline, own, deadline]

namespace AuthoritativeRuntime

variable {runtime base middle next : AuthoritativeRuntime} {request : ResourceRequest}
variable {nowMs taskId attemptId : Nat} {card : TaskCard} {attemptKind : AttemptKind}

/-! ### What a call shows -/

def outcomeHappenings (taskId attemptId nowMs : Nat) :
    Option (Except RuntimeError RuntimeAdmission) → List Happening
  | some (.ok (.admitted _)) => [.issued taskId attemptId nowMs]
  | _ => []

def resultHappenings (nowMs : Nat) (result : QueuedRuntimeAdmission) : List Happening :=
  if isAdmitted result.admission then [.issued result.taskId result.attemptId nowMs] else []

def resultsHappenings (nowMs : Nat) (results : Option (List QueuedRuntimeAdmission)) :
    List Happening :=
  (results.getD []).flatMap (resultHappenings nowMs)

def finishHappenings (runtime : AuthoritativeRuntime) (token : ResourceLeaseToken)
    (outcome : RuntimeOutcome) (nowMs : Nat) : List Happening :=
  match runtime.admission.inspectToken token, (runtime.finishAt token outcome nowMs).1 with
  | .ok lease, .ok () => [.finished lease.taskId lease.attemptId nowMs]
  | _, _ => []

/-- The happenings of the loop of `reap_expired`. -/
def reapHappenings (nowMs : Nat) : AuthoritativeRuntime → List ResourceLeaseToken → List Happening
  | _, [] => []
  | runtime, token :: tokens =>
      finishHappenings runtime token .timedOut nowMs ++
        reapHappenings nowMs (runtime.finishAt token .timedOut nowMs).2 tokens

/-- The leases that a call issues, and those that it takes back, with the time of the call. -/
def happenings (runtime : AuthoritativeRuntime) : RuntimeOp → List Happening
  | .submit task request nowMs =>
      outcomeHappenings request.taskId request.attemptId nowMs (runtime.submit task request nowMs).1
  | .retry taskId request nowMs =>
      outcomeHappenings request.taskId request.attemptId nowMs
        (runtime.retry taskId request nowMs).1
  | .finish token outcome nowMs => finishHappenings runtime token outcome nowMs
  | .drainQueued nowMs => resultsHappenings nowMs (runtime.drainQueued nowMs).1
  | .pollQueued taskId attemptId nowMs =>
      if runtime.pendingAdmissions[(taskId, attemptId)]?.isSome then []
      else resultsHappenings nowMs (runtime.drainQueued nowMs).1
  | .reapExpired nowMs => reapHappenings nowMs runtime (runtime.admission.expiredTokens nowMs)
  | _ => []

section Submitted

variable (runtime : AuthoritativeRuntime) (task : TaskCard)

@[simp] theorem submittedCard_status : (runtime.submittedCard task).status = .ready :=
  TaskCard.withStatus_status

@[simp] theorem submittedCard_attemptId :
    (runtime.submittedCard task).attemptId = task.attemptId :=
  TaskCard.withStatus_attemptId

@[simp] theorem submittedCard_hardDeadlineMs :
    (runtime.submittedCard task).hardDeadlineMs = task.hardDeadlineMs :=
  TaskCard.withStatus_hardDeadlineMs

end Submitted

/-! ### Moves -/

/-- Where a request that goes through admission comes from, and the runtime it comes to: a call
brings it, bounded by the deadline of its task, or it is the front of the queue. -/
inductive Offer (runtime : AuthoritativeRuntime) (request : ResourceRequest) :
    AuthoritativeRuntime → Prop where
  | called (card : TaskCard) (found : runtime.ledger.task request.taskId = some card)
      (clamped : Clamped card request)
      (fresh : request.key ∉ runtime.admission.queuedAttempts) : Offer runtime request runtime
  | front (rest : List ResourceRequest)
      (queue : runtime.admission.queuedRequests = request :: rest) :
      Offer runtime request runtime.dropFront

inductive Move (nowMs : Nat) (runtime : AuthoritativeRuntime) :
    Option Happening → AuthoritativeRuntime → Prop where
  | filed (task : TaskCard) (ledger : TaskLedger)
      (fresh : runtime.ledger.task task.taskId = none) (positive : task.attemptId ≠ 0)
      (allowed : task.attemptId ≤ runtime.ledger.retryPolicy.maxTotalAttempts)
      (replaced : TaskLedger.Replaced runtime.ledger task.taskId (runtime.submittedCard task)
        ledger) : Move nowMs runtime none (runtime.withLedger ledger)
  | kept (pending : ExtTreeMap (Nat × Nat) RuntimeAdmission pairCompare) :
      Move nowMs runtime none (runtime.withPending pending)
  | dropped (request : ResourceRequest) (rest : List ResourceRequest)
      (queue : runtime.admission.queuedRequests = request :: rest) :
      Move nowMs runtime none runtime.dropFront
  | timedOut (request : ResourceRequest) (rest : List ResourceRequest) (card : TaskCard)
      (ledger : TaskLedger) (queue : runtime.admission.queuedRequests = request :: rest)
      (found : runtime.ledger.task request.taskId = some card)
      (waiting : Waiting card request.attemptId .retry)
      (replaced : TaskLedger.Replaced runtime.ledger request.taskId (card.withStatus .timedOut)
        ledger) : Move nowMs runtime none (runtime.dropFront.withLedger ledger)
  | queued (request : ResourceRequest) (base : AuthoritativeRuntime) (card : TaskCard)
      (attemptKind : AttemptKind) (offer : Offer runtime request base)
      (found : runtime.ledger.task request.taskId = some card)
      (waiting : Waiting card request.attemptId attemptKind)
      (space : base.admission.queuedRequests.length < base.admission.queueLimit) :
      Move nowMs runtime none (base.withQueued request)
  | started (request : ResourceRequest) (base : AuthoritativeRuntime) (card : TaskCard)
      (attemptKind : AttemptKind) (ledger : TaskLedger) (limit : LaneLimit)
      (offer : Offer runtime request base)
      (found : runtime.ledger.task request.taskId = some card)
      (waiting : Waiting card request.attemptId attemptKind) (due : Due card nowMs attemptKind)
      (valid : request.validate nowMs = .ok ())
      (replaced : TaskLedger.Replaced runtime.ledger request.taskId
        (card.started request.attemptId) ledger)
      (counted : base.lanes.lanes[laneForWorkKind request.workKind]? = some limit) :
      Move nowMs runtime (some (.issued request.taskId request.attemptId nowMs))
        (base.withStarted request nowMs ledger limit)
  | released (token : ResourceLeaseToken) (lease : ResourceLease) (next : AuthoritativeRuntime)
      (inspected : runtime.admission.inspectToken token = .ok lease)
      (releases : ReleasesBy runtime token nowMs next) :
      Move nowMs runtime (some (.finished lease.taskId lease.attemptId nowMs)) next
  | withdrawn (taskId attemptId : Nat) (card : TaskCard) (attemptKind : AttemptKind)
      (pending : ExtTreeMap (Nat × Nat) RuntimeAdmission pairCompare) (ledger : TaskLedger)
      (found : runtime.ledger.task taskId = some card)
      (waiting : Waiting card attemptId attemptKind)
      (replaced : TaskLedger.Replaced runtime.ledger taskId (card.withStatus .cancelled) ledger) :
      Move nowMs runtime none
        (((runtime.withoutQueued (taskId, attemptId)).withPending pending).withLedger ledger)
  | observed (sample : ResourceUsageSample) :
      Move nowMs runtime none (runtime.observeResourceSample sample).2

/-- A sequence of moves at one time, with all that it shows. -/
inductive Moves (nowMs : Nat) :
    AuthoritativeRuntime → List Happening → AuthoritativeRuntime → Prop where
  | refl (runtime : AuthoritativeRuntime) : Moves nowMs runtime [] runtime
  | head {runtime middle next : AuthoritativeRuntime} {event : Option Happening}
      {events : List Happening} (first : Move nowMs runtime event middle)
      (rest : Moves nowMs middle events next) : Moves nowMs runtime (event.toList ++ events) next

theorem Move.moves {event : Option Happening} (h : Move nowMs runtime event next) :
    Moves nowMs runtime event.toList next := by
  have := Moves.head h (.refl next)
  rwa [append_nil] at this

theorem Moves.trans {events events' : List Happening} (h : Moves nowMs runtime events middle)
    (h' : Moves nowMs middle events' next) : Moves nowMs runtime (events ++ events') next := by
  induction h with
  | refl => exact h'
  | head first _ ih =>
      rw [append_assoc]
      exact .head first (ih h')

section

variable (h : Offer runtime request base)
include h

theorem Offer.ledger_eq : base.ledger = runtime.ledger := by
  cases h <;> rfl

theorem Offer.active_eq :
    base.admission.active = runtime.admission.active := by
  cases h with
  | called => rfl
  | front rest queue => rw [dropFront_eq queue]

theorem Offer.nextLeaseId_eq :
    base.admission.nextLeaseId = runtime.admission.nextLeaseId := by
  cases h with
  | called => rfl
  | front rest queue => rw [dropFront_eq queue]

theorem Offer.queued_of_queued {queued : ResourceRequest}
    (mem : queued ∈ base.admission.queuedRequests) :
    queued ∈ runtime.admission.queuedRequests := by
  cases h with
  | called => exact mem
  | front rest queue =>
      rw [dropFront_eq queue] at mem
      exact queue ▸ mem_cons_of_mem _ mem

theorem Offer.consistent (consistent : Consistent runtime) :
    Consistent base ∧ request.key ∉ base.admission.queuedAttempts := by
  cases h with
  | called card found clamped fresh => exact ⟨consistent, fresh⟩
  | front rest queue =>
      obtain ⟨dropped, fresh, -⟩ := consistent.dropFront queue
      exact ⟨dropped, fresh⟩

end

theorem Move.consistent {event : Option Happening} (h : Move nowMs runtime event next)
    (consistent : Consistent runtime) : Consistent next := by
  cases h with
  | filed task ledger fresh _ _ replaced => exact (consistent.filed replaced fresh).1
  | kept pending => exact consistent.withPending pending
  | dropped request rest queue => exact (consistent.dropFront queue).1
  | timedOut request rest card ledger queue found waiting replaced =>
      obtain ⟨dropped, fresh, -⟩ := consistent.dropFront queue
      have waits : runtime.dropFront.ledger.task request.taskId = some card := found
      refine dropped.replace ?_ (dropped.unqueued waits waiting fresh) replaced
      intro card' found'
      obtain rfl := Option.some.inj (found.symm.trans found')
      exact waiting.not_running
  | queued request base card attemptKind offer found waiting space =>
      obtain ⟨kept, fresh⟩ := offer.consistent consistent
      exact kept.withQueued fresh space (offer.ledger_eq ▸ found) waiting
  | started request base card attemptKind ledger limit offer found waiting _ _ replaced =>
      obtain ⟨kept, fresh⟩ := offer.consistent consistent
      exact kept.withStarted fresh (offer.ledger_eq ▸ found) waiting (offer.ledger_eq ▸ replaced)
  | released token lease _ _ releases => exact consistent.releases releases.releases
  | withdrawn taskId attemptId card attemptKind pending ledger found waiting replaced =>
      have removed := (consistent.withoutQueued (taskId, attemptId)).withPending pending
      refine removed.replace ?_ ?_ replaced
      rotate_left
      · exact removed.unqueued found waiting (Finset.notMem_erase _ _)
      intro card' found'
      obtain rfl := Option.some.inj (found.symm.trans found')
      exact waiting.not_running
  | observed sample => exact consistent.of_eq rfl rfl rfl rfl rfl

end AuthoritativeRuntime

/-! ### The card of one task -/

def Happening.taskId : Happening → Nat
  | .issued taskId _ _ | .finished taskId _ _ => taskId

/-- What one move does to the card of a task, under the retry policy of the ledger. -/
inductive CardMove (nowMs : Nat) (policy : RetryPolicy) (taskId : Nat) :
    Option TaskCard → Option Happening → Option TaskCard → Prop where
  | same (card : Option TaskCard) (event : Option Happening)
      (other : ∀ happening, event = some happening → happening.taskId ≠ taskId) :
      CardMove nowMs policy taskId card event card
  | filed (card : TaskCard) (status : card.status = .ready) (positive : card.attemptId ≠ 0)
      (allowed : card.attemptId ≤ policy.maxTotalAttempts) :
      CardMove nowMs policy taskId none none (some card)
  | dismissed (card : TaskCard) (attemptId : Nat) (attemptKind : AttemptKind)
      (status : TaskStatus) (waiting : Waiting card attemptId attemptKind)
      (final : status = .timedOut ∨ status = .cancelled) :
      CardMove nowMs policy taskId (some card) none (some (card.withStatus status))
  | started (card : TaskCard) (attemptId : Nat) (attemptKind : AttemptKind)
      (waiting : Waiting card attemptId attemptKind) (due : Due card nowMs attemptKind) :
      CardMove nowMs policy taskId (some card) (some (.issued taskId attemptId nowMs))
        (some (card.started attemptId))
  | settled (card settled : TaskCard) (running : card.status = .running)
      (settles : AuthoritativeRuntime.Settles card settled)
      (delayed : settled.status = .retryWait → ∃ delay dueMs : Nat,
        policy.delayAfter card.attemptId = some delay ∧
        settled.retryNotBeforeMs.map (↑) = some dueMs ∧ dueMs = nowMs + delay) :
      CardMove nowMs policy taskId (some card) (some (.finished taskId card.attemptId nowMs))
        (some settled)

theorem CardMove.of_replaced {nowMs taskId : Nat} {policy : RetryPolicy}
    {ledger other : TaskLedger} {changed : TaskCard} {event : Option Happening}
    (replaced : TaskLedger.Replaced ledger taskId changed other)
    (own : ∀ happening, event = some happening → happening.taskId = taskId)
    (moved : CardMove nowMs policy taskId (ledger.task taskId) event (some changed))
    (observed : Nat) :
    CardMove nowMs policy observed (ledger.task observed) event (other.task observed) := by
  by_cases same : taskId = observed
  · subst same
    rwa [replaced.task_self]
  · rw [replaced.task_of_ne same]
    exact .same _ _ fun happening shown => own happening shown ▸ same

namespace AuthoritativeRuntime

variable {next : AuthoritativeRuntime}

/-- A move leaves the retry policy alone and changes the card of a task in one of few ways. -/
theorem Move.card {event : Option Happening} (h : Move nowMs runtime event next)
    (consistent : Consistent runtime) (taskId : Nat) :
    next.ledger.retryPolicy = runtime.ledger.retryPolicy ∧
      CardMove nowMs runtime.ledger.retryPolicy taskId (runtime.ledger.task taskId) event
        (next.ledger.task taskId) := by
  cases h with
  | filed task ledger fresh positive allowed replaced =>
      refine ⟨replaced.retryPolicy, .of_replaced replaced (by simp) ?_ taskId⟩
      rw [fresh]
      exact .filed _ (by simp) (by simpa using positive) (by simpa using allowed)
  | kept pending => exact ⟨rfl, .same _ _ (by simp)⟩
  | dropped request rest queue => exact ⟨rfl, .same _ _ (by simp)⟩
  | timedOut request rest card ledger queue found waiting replaced =>
      refine ⟨replaced.retryPolicy, .of_replaced replaced (by simp) ?_ taskId⟩
      rw [found]
      exact .dismissed card _ _ _ waiting (.inl rfl)
  | queued request base card attemptKind offer =>
      have same : (base.withQueued request).ledger = runtime.ledger := offer.ledger_eq
      rw [same]
      exact ⟨rfl, .same _ _ (by simp)⟩
  | started request base card attemptKind ledger limit offer found waiting due _ replaced =>
      refine ⟨replaced.retryPolicy, .of_replaced replaced (by simp [Happening.taskId]) ?_ taskId⟩
      rw [found]
      exact .started card _ _ waiting due
  | released token lease _ inspected releases =>
      obtain ⟨lease', limit, card, settled, ledger, inspected', -, -, found, settles, delayed,
        replaced⟩ := releases
      obtain rfl := Except.ok.inj (inspected.symm.trans inspected')
      obtain ⟨held, found', running, attempt⟩ :=
        consistent.holder _ _ (AdmissionController.inspectToken_ok inspected).1
      obtain rfl := Option.some.inj (found.symm.trans found')
      refine ⟨replaced.retryPolicy, .of_replaced replaced (by simp [Happening.taskId]) ?_ taskId⟩
      rw [found, ← attempt]
      exact .settled card settled running settles delayed
  | withdrawn taskId' attemptId card attemptKind pending ledger found waiting replaced =>
      refine ⟨replaced.retryPolicy, .of_replaced replaced (by simp) ?_ taskId⟩
      rw [found]
      exact .dismissed card _ _ _ waiting (.inr rfl)
  | observed sample => exact ⟨rfl, .same _ _ (by simp)⟩

/-- An invariant of the moves, which may mention what was shown, is one of their sequences. -/
theorem Moves.invariant {Inv : List Happening → AuthoritativeRuntime → Prop}
    (keep : ∀ shown runtime event next, Consistent runtime → Inv shown runtime →
      Move nowMs runtime event next → Inv (shown ++ event.toList) next)
    {shown events : List Happening} (h : Moves nowMs runtime events next)
    (consistent : Consistent runtime) (start : Inv shown runtime) :
    Inv (shown ++ events) next := by
  induction h generalizing shown with
  | refl => rwa [append_nil]
  | head first _ ih =>
      rw [← append_assoc]
      exact ih (first.consistent consistent) (keep shown _ _ _ consistent start first)

/-! ### Calls -/

/-- Admission turns an offered request away, or is one move that shows what its result says. -/
theorem Offer.admitExisting (offer : Offer runtime request base) (consistent : Consistent runtime)
    (nowMs : Nat) (attemptKind : AttemptKind) :
    (∃ outcome, base.admitExisting request nowMs attemptKind = (some outcome, base) ∧
      Declined outcome) ∨
    ∃ event, Move nowMs runtime event (base.admitExisting request nowMs attemptKind).2 ∧
      outcomeHappenings request.taskId request.attemptId nowMs
        (base.admitExisting request nowMs attemptKind).1 = event.toList := by
  obtain ⟨outcome, he, declined, -⟩ | ⟨outcome, he, declined, -⟩ | ⟨position, reason, card, he,
    found, waiting, -, queueable⟩ | ⟨card, ledger, limit, he, found, waiting, replaced, counted,
    startable, due⟩ := admitExisting_cases (offer.consistent consistent).2 nowMs attemptKind
  · exact .inl ⟨outcome, he, declined⟩
  · exact .inl ⟨outcome, he, declined⟩
  · rw [he]
    exact .inr ⟨none, .queued request base card attemptKind offer (offer.ledger_eq ▸ found) waiting
      queueable.space, rfl⟩
  · rw [he]
    exact .inr ⟨some _, .started request base card attemptKind ledger limit offer
      (offer.ledger_eq ▸ found) waiting due startable.valid (offer.ledger_eq ▸ replaced) counted,
      rfl⟩

theorem Declined.happenings {outcome : Except RuntimeError RuntimeAdmission}
    (h : Declined outcome) : outcomeHappenings taskId attemptId nowMs (some outcome) = [] := by
  cases h <;> rfl

/-- A request that a call brings goes through admission in at most one move. -/
theorem admitExisting_moves (consistent : Consistent runtime)
    (found : runtime.ledger.task request.taskId = some card) (clamped : Clamped card request)
    (fresh : request.key ∉ runtime.admission.queuedAttempts) :
    Moves nowMs runtime
      (outcomeHappenings request.taskId request.attemptId nowMs
        (runtime.admitExisting request nowMs attemptKind).1)
      (runtime.admitExisting request nowMs attemptKind).2 := by
  obtain ⟨outcome, he, declined⟩ | ⟨event, move, shown⟩ :=
    (Offer.called card found clamped fresh).admitExisting consistent nowMs attemptKind
  · rw [he, declined.happenings]
    exact .refl runtime
  · rw [shown]
    exact move.moves

theorem clamped_submittedCard (runtime : AuthoritativeRuntime) (task : TaskCard) :
    Clamped (runtime.submittedCard task)
      (constrainRequestToTaskDeadline request task.hardDeadlineMs) := by
  rw [← submittedCard_hardDeadlineMs runtime task]
  exact clamped_constrain _ _

theorem submit_moves (consistent : Consistent runtime) (task : TaskCard) :
    Moves nowMs runtime
      (outcomeHappenings request.taskId request.attemptId nowMs
        (runtime.submit task request nowMs).1)
      (runtime.submit task request nowMs).2 := by
  obtain ⟨error, he⟩ | ⟨ledger, he, replaced, fresh, files⟩ :=
    submit_cases runtime task request nowMs
  · rw [he]
    exact .refl runtime
  · rw [he]
    obtain ⟨filed, unqueued⟩ := consistent.filed replaced fresh
    obtain ⟨error, failed⟩ | ⟨_, -, -, -, -, positive, allowed⟩ :=
      TaskLedger.insertTask_cases runtime.ledger task
    · have := files.inserted
      rw [failed] at this
      cases this
    · have first : Move nowMs runtime none (runtime.withLedger ledger) :=
        .filed task ledger fresh positive allowed replaced
      refine first.moves.trans (admitExisting_moves filed ?_
        (clamped_submittedCard runtime task) ?_)
      · rw [constrain_taskId, ← files.taskId]
        exact replaced.task_self
      · rw [constrain_key, ResourceRequest.key, ← files.taskId]
        exact unqueued _

theorem retry_moves (consistent : Consistent runtime) (taskId : Nat) :
    Moves nowMs runtime
      (outcomeHappenings request.taskId request.attemptId nowMs
        (runtime.retry taskId request nowMs).1)
      (runtime.retry taskId request nowMs).2 := by
  obtain ⟨outcome, pending, he, unstarted⟩ | ⟨pending, card, he, found, task, waiting, fresh⟩ :=
    retry_cases consistent taskId request nowMs
  · rw [he]
    have none_shown : outcomeHappenings request.taskId request.attemptId nowMs (some outcome) =
        [] := by
      cases unstarted <;> rfl
    rw [none_shown]
    exact (Move.kept pending).moves
  · rw [he]
    refine (Move.kept pending).moves.trans ?_
    exact admitExisting_moves (consistent.withPending pending) (task ▸ found)
      (clamped_constrain card request) fresh

theorem finishAt_moves (token : ResourceLeaseToken) (outcome : RuntimeOutcome) :
    Moves nowMs runtime (finishHappenings runtime token outcome nowMs)
      (runtime.finishAt token outcome nowMs).2 := by
  obtain ⟨error, he⟩ | ⟨next, he, releases⟩ := runtime.finishAt_releases token outcome nowMs
  · have none_shown : finishHappenings runtime token outcome nowMs = [] := by
      rw [finishHappenings, he]
      split <;> simp_all
    rw [he, none_shown]
    exact .refl runtime
  · obtain ⟨lease, inspected⟩ : ∃ lease, runtime.admission.inspectToken token = .ok lease := by
      cases releases with
      | release lease _ _ _ _ inspected => exact ⟨lease, inspected⟩
    rw [finishHappenings, inspected, he]
    exact (Move.released token lease next inspected releases).moves

theorem reap_moves (tokens : List ResourceLeaseToken) (reclaimed : Nat) :
    Moves nowMs runtime (reapHappenings nowMs runtime tokens)
      (tokens.foldl (reapOne nowMs) (reclaimed, runtime)).2 := by
  induction tokens generalizing runtime reclaimed with
  | nil => exact .refl runtime
  | cons token tokens ih =>
      rw [foldl_cons, reapHappenings]
      obtain ⟨count, he⟩ := reapOne_eq nowMs reclaimed runtime token
      rw [he]
      exact (finishAt_moves token .timedOut).trans (ih count)

def progressHappenings (nowMs : Nat) : DrainProgress → List Happening
  | .yield result _ => resultHappenings nowMs result
  | _ => []

/-- An iteration shows what the admission of its front entry shows. -/
theorem progressHappenings_readmitFront (runtime : AuthoritativeRuntime)
    (request : ResourceRequest) (nowMs : Nat) (attemptKind : AttemptKind) :
    progressHappenings nowMs (runtime.readmitFront request nowMs attemptKind).1 =
      outcomeHappenings request.taskId request.attemptId nowMs
        (runtime.dropFront.admitExisting request nowMs attemptKind).1 := by
  unfold readmitFront
  split
  · rename_i he
    rw [he]
    rfl
  · rename_i outcome next he
    rw [he]
    cases outcome with
    | error error => rfl
    | ok admission => cases admission <;> rfl

theorem drainOnce_moves (consistent : Consistent runtime) (nowMs : Nat) :
    Moves nowMs runtime (progressHappenings nowMs (runtime.drainOnce nowMs).1)
      (runtime.drainOnce nowMs).2 := by
  obtain he | ⟨request, rest, card, attemptKind, queue, found, waiting, hmove⟩ :=
    drainOnce_cases consistent nowMs
  · rw [he]
    exact .refl runtime
  · obtain ⟨ledger, he, replaced, rfl⟩ | he := hmove
    · rw [he]
      exact (Move.timedOut request rest card ledger queue found waiting replaced).moves
    · rw [he, readmitFront_state, progressHappenings_readmitFront]
      obtain ⟨outcome, he, declined⟩ | ⟨event, move, shown⟩ :=
        (Offer.front rest queue).admitExisting consistent nowMs attemptKind
      · rw [he, declined.happenings]
        exact (Move.dropped request rest queue).moves
      · rw [shown]
        exact move.moves

theorem drainLoop_moves (consistent : Consistent runtime) (nowMs remaining : Nat) :
    Moves nowMs runtime (resultsHappenings nowMs (drainLoop nowMs remaining runtime).1)
      (drainLoop nowMs remaining runtime).2 := by
  induction remaining generalizing runtime with
  | zero => exact .refl runtime
  | succ remaining ih =>
      have first := drainOnce_moves consistent nowMs
      obtain ⟨next, calm⟩ := consistent.drainOnce nowMs
      simp only [drainLoop]
      split <;> rename_i he <;> rw [he] at first next calm
      · exact first
      · exact absurd rfl calm
      · simpa [resultsHappenings, progressHappenings] using first
      · rename_i result last
        have rest := ih next
        have some := (next.drainLoop nowMs remaining).2
        obtain ⟨results, hresults⟩ := ne_none_iff_exists'.mp some
        rw [hresults] at rest ⊢
        exact first.trans rest

end AuthoritativeRuntime

/-- The time at which a call is made, where it matters. -/
def RuntimeOp.nowMs : RuntimeOp → Nat
  | .submit _ _ nowMs | .retry _ _ nowMs | .finish _ _ nowMs | .drainQueued nowMs
  | .pollQueued _ _ nowMs | .reapExpired nowMs => nowMs
  | .cancelQueued _ _ | .observeResourceSample _ => 0

namespace AuthoritativeRuntime

variable {runtime : AuthoritativeRuntime}

/-- Every call is a sequence of moves that shows what the call shows. -/
theorem step_moves (consistent : Consistent runtime) (op : RuntimeOp) :
    Moves op.nowMs runtime (runtime.happenings op) (runtime.step op) := by
  cases op with
  | submit task request nowMs => exact submit_moves consistent task
  | retry taskId request nowMs => exact retry_moves consistent taskId
  | finish token outcome nowMs => exact finishAt_moves token outcome
  | drainQueued nowMs => exact drainLoop_moves consistent nowMs _
  | pollQueued taskId attemptId nowMs =>
      simp only [step, happenings, RuntimeOp.nowMs]
      obtain ⟨admission, pending, he, kept⟩ | ⟨pending, he, absent⟩ :=
        pollQueued_cases runtime taskId attemptId nowMs
      · rw [he, kept, isSome_some, if_pos rfl]
        exact (Move.kept pending).moves
      · rw [he, absent, isSome_none, if_neg Bool.false_ne_true]
        have drained := drainLoop_moves consistent nowMs runtime.admission.queuedRequests.length
        have := drained.trans (Move.kept pending).moves
        rwa [toList_none, append_nil] at this
  | cancelQueued taskId attemptId =>
      simp only [step, happenings, RuntimeOp.nowMs]
      obtain ⟨result, he⟩ | ⟨card, attemptKind, pending, ledger, he, found, waiting, replaced⟩ :=
        cancelQueued_cases runtime taskId attemptId
      · rw [he]
        exact .refl runtime
      · rw [he]
        exact (Move.withdrawn taskId attemptId card attemptKind pending ledger found waiting
          replaced).moves
  | reapExpired nowMs => exact reap_moves _ 0
  | observeResourceSample sample => exact (Move.observed sample).moves

theorem run_keeps_of_moves {Inv : AuthoritativeRuntime → Prop}
    (keep : ∀ nowMs runtime event next, Inv runtime → Move nowMs runtime event next → Inv next)
    (consistent : Consistent runtime) (start : Inv runtime) (ops : List RuntimeOp) :
    Consistent (run step runtime ops) ∧ Inv (run step runtime ops) := by
  have keep' : ∀ runtime op, Consistent runtime ∧ Inv runtime →
      Consistent (step runtime op) ∧ Inv (step runtime op) := by
    intro runtime op h
    have carried : Inv (step runtime op) :=
      @Moves.invariant (step runtime op) op.nowMs runtime (fun _ => Inv)
        (fun _ _ _ _ _ holds moved => keep _ _ _ _ holds moved) [] _ (step_moves h.1 op) h.1 h.2
    exact ⟨h.1.step op, carried⟩
  exact run_invariant keep' ops ⟨consistent, start⟩

/-- An invariant of the moves holds after every run, with all that the run has shown. -/
theorem run_invariant_moves (Inv : List Happening → AuthoritativeRuntime → Prop)
    (keep : ∀ nowMs shown runtime event next, Consistent runtime → Inv shown runtime →
      Move nowMs runtime event next → Inv (shown ++ event.toList) next)
    {deadlineHorizonMs : Nat} {profile : HardwareProfile}
    (start : Inv [] (new deadlineHorizonMs profile)) (ops : List RuntimeOp) :
    Inv (trace step happenings (new deadlineHorizonMs profile) ops)
      (run step (new deadlineHorizonMs profile) ops) := by
  have keep' : ∀ shown runtime op, Consistent runtime ∧ Inv shown runtime →
      Consistent (step runtime op) ∧ Inv (shown ++ happenings runtime op) (step runtime op) :=
    fun shown runtime op h =>
      ⟨h.1.step op, (step_moves h.1 op).invariant (keep op.nowMs) h.1 h.2⟩
  have both := run_invariant_trace keep' ops ⟨consistent_new deadlineHorizonMs profile, start⟩
  rw [nil_append] at both
  exact both.2

/-- Nothing becomes of a task that has an outcome. -/
theorem CardMove.of_isTerminal {policy : RetryPolicy} {event : Option Happening}
    {after : Option TaskCard} (moved : CardMove nowMs policy taskId (some card) event after)
    (terminal : card.status.isTerminal = true) : after = some card := by
  cases moved with
  | same => rfl
  | dismissed _ _ _ _ waiting _ => cases waiting <;> simp_all [TaskStatus.isTerminal]
  | started _ _ _ waiting _ => cases waiting <;> simp_all [TaskStatus.isTerminal]
  | settled _ _ running _ _ =>
      rw [running] at terminal
      cases terminal

/-- An outcome is final: whatever is called later, the card of the task stays as it is. -/
theorem run_keeps_outcomes (deadlineHorizonMs : Nat) (profile : HardwareProfile)
    (before after : List RuntimeOp) (taskId : Nat) :
    let runtime := run step (new deadlineHorizonMs profile) before
    let ended := (runtime.ledger.task taskId).filter (·.status.isTerminal)
    ended = none ∨ (run step runtime after).ledger.task taskId = ended := by
  intro runtime ended
  cases found : ended with
  | none => exact .inl rfl
  | some card =>
      obtain ⟨found, terminal⟩ := Option.filter_eq_some_iff.mp found
      have keep : ∀ nowMs (runtime : AuthoritativeRuntime) event next,
          Consistent runtime ∧ runtime.ledger.task taskId = some card →
          Move nowMs runtime event next →
          Consistent next ∧ next.ledger.task taskId = some card := by
        intro nowMs runtime event next h move
        have moved := (move.card h.1 taskId).2
        rw [h.2] at moved
        exact ⟨move.consistent h.1, CardMove.of_isTerminal moved terminal⟩
      have start := run_consistent deadlineHorizonMs profile before
      exact .inr (run_keeps_of_moves keep start ⟨start, found⟩ after).2.2

end AuthoritativeRuntime

end Aegis.Runtime
