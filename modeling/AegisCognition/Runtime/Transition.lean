import AegisCognition.Resource.Transition
import AegisCognition.Runtime.Basic
import AegisCognition.Task.Transition

/-!
# What one runtime operation can do

Admission of a waiting attempt ends in one of four ways: the attempt is refused by the
ledger, it is not placed, it joins the queue, or it starts. Starting moves the three
subsystems together; the first two change nothing. The lemmas assume that the attempt
is not queued already, which every caller in the runtime ensures, and it is this
assumption that rules the panic of the admission controller out.
-/

namespace Aegis.Task

/-- The card of a task whose attempt has just started. -/
def TaskCard.started (card : TaskCard) (attemptId : Nat) : TaskCard :=
  { card with attemptId := attemptId, retryNotBeforeMs := none, status := .running }

end Aegis.Task

namespace Aegis.Runtime

open Std Foundation Resource Aegis.Task TaskCard
open AdmissionController ExecutionLaneRegistry TaskLedger

/-- The card waits for the admission of exactly this attempt. -/
inductive Waiting (card : TaskCard) (attemptId : Nat) : AttemptKind → Prop where
  | initial (status : card.status = .ready) (attempt : card.attemptId = attemptId) :
      Waiting card attemptId .initial
  | retry (status : card.status = .retryWait)
      (attempt : checkedAdd u64Max card.attemptId 1 = some attemptId) :
      Waiting card attemptId .retry

/-- A retry may start: its deadline is ahead and its backoff is over. -/
def Due (card : TaskCard) (nowMs : Nat) : AttemptKind → Prop
  | .initial => True
  | .retry => card.deadlinePassed nowMs = false ∧ card.backoffPending nowMs = false

theorem Waiting.not_running {card : TaskCard} {attemptId : Nat} {attemptKind : AttemptKind}
    (h : Waiting card attemptId attemptKind) : card.status ≠ .running := by
  intro hrunning
  cases h with
  | initial status _ => rw [hrunning] at status; cases status
  | retry status _ => rw [hrunning] at status; cases status

namespace AuthoritativeRuntime

variable {runtime next : AuthoritativeRuntime} {request : ResourceRequest} {nowMs : Nat}
variable {attemptKind : AttemptKind} {card : TaskCard}

/-- The checks before admission leave a waiting card that the ledger will start. -/
theorem attemptRefusal_none (h : runtime.attemptRefusal request nowMs attemptKind = none)
    (lease : ResourceLease) (htask : lease.taskId = request.taskId)
    (hattempt : lease.attemptId = request.attemptId) :
    ∃ card ledger, runtime.ledger.task request.taskId = some card ∧
      Waiting card request.attemptId attemptKind ∧ Due card nowMs attemptKind ∧
      startAttempt runtime.ledger lease nowMs attemptKind = (.ok (), ledger) ∧
      TaskLedger.Replaced runtime.ledger request.taskId (card.started request.attemptId)
        ledger := by
  unfold attemptRefusal at h
  cases hfound : runtime.ledger.task request.taskId with
  | none => simp [hfound] at h
  | some card =>
      simp only [hfound] at h
      cases attemptKind with
      | initial =>
          simp only at h
          split at h
          · cases h
          · split at h
            · cases h
            · rename_i hready hsame
              rw [ne_eq, not_not] at hready hsame
              obtain ⟨middle, hadmit, hmiddle⟩ :=
                transitionStatus_of_allowed hfound
                  (.inr (by rw [hready]; rfl) : _ ∨ card.status.canTransitionTo .admitted = true)
              obtain ⟨ledger, hrun, hledger⟩ :=
                transitionStatus_of_allowed hmiddle.task_self
                  (.inr (by simp; rfl) :
                    _ ∨ (card.withStatus .admitted).status.canTransitionTo .running = true)
              refine ⟨card, ledger, rfl, .initial hready hsame.symm, trivial, ?_, ?_⟩
              · simp only [startAttempt, htask, hadmit, hrun]
              · have hcard : (card.withStatus .admitted).withStatus .running =
                    card.started request.attemptId := by
                  simp [withStatus, TaskCard.started, hready, hsame]
                rw [← hcard]
                exact hmiddle.trans hledger
      | retry =>
          simp only at h
          split at h
          · cases h
          · split at h
            · cases h
            · split at h
              · cases h
              · split at h
                · cases h
                · rename_i hwait hnext hdeadline hbackoff
                  rw [ne_eq, not_not] at hwait hnext
                  rw [Bool.not_eq_true] at hdeadline hbackoff
                  cases hvalid : runtime.ledger.validateRetryStart request.taskId
                      request.attemptId nowMs with
                  | error error => simp [hvalid] at h
                  | ok _ =>
                      obtain ⟨ledger, hstart, hledger⟩ :=
                        startRetryAttempt_of_valid hvalid hfound
                      refine ⟨card, ledger, rfl, .retry hwait hnext, ⟨hdeadline, hbackoff⟩, ?_,
                        hledger⟩
                      simp only [startAttempt, htask, hattempt, hstart]

/-- The lane is free and the controller would grant a lease at once. -/
structure Startable (runtime : AuthoritativeRuntime) (request : ResourceRequest)
    (nowMs : Nat) : Prop where
  room : runtime.lanes.hasRoom (laneForWorkKind request.workKind) = true
  valid : request.validate nowMs = .ok ()
  capable : runtime.admission.acceleratorDenial request = none
  prompt : runtime.admission.deferred request = false
  fits : (GrantedResources.fromRequest request).fitsWithin runtime.admission.capacity
    runtime.admission.used = true

/-- The request can wait: it is well formed at this time, it is not denied by the
controller on a free lane, and the queue has room for it. -/
structure Queueable (runtime : AuthoritativeRuntime) (request : ResourceRequest)
    (nowMs : Nat) : Prop where
  valid : request.validate nowMs = .ok ()
  capable : runtime.lanes.hasRoom (laneForWorkKind request.workKind) = true →
    runtime.admission.acceleratorDenial request = none
  space : runtime.admission.queuedRequests.length < runtime.admission.queueLimit

/-- The runtime after an attempt has started on a lane with the given limit. -/
def withStarted (runtime : AuthoritativeRuntime) (request : ResourceRequest) (nowMs : Nat)
    (ledger : TaskLedger) (limit : LaneLimit) : AuthoritativeRuntime :=
  { runtime with
    ledger := ledger
    admission := runtime.admission.grant request nowMs
    lanes := runtime.lanes.setActive (laneForWorkKind request.workKind) limit
      (limit.active + 1) }

def withQueued (runtime : AuthoritativeRuntime) (request : ResourceRequest) :
    AuthoritativeRuntime :=
  { runtime with admission := runtime.admission.pushQueued request }

theorem enqueue_of_fresh {controller : AdmissionController}
    (fresh : request.key ∉ controller.queuedAttempts) (nowMs : Nat) :
    (∃ error, controller.enqueue request nowMs = (.error error, controller) ∧
      ¬ (request.validate nowMs = .ok () ∧
        controller.queuedRequests.length < controller.queueLimit)) ∨
    (∃ position, controller.enqueue request nowMs =
        (.ok position, controller.pushQueued request) ∧
      request.validate nowMs = .ok () ∧
      controller.queuedRequests.length < controller.queueLimit) := by
  have hnone : controller.queuedAttempt request.taskId request.attemptId = none :=
    if_pos fresh
  unfold AdmissionController.enqueue
  cases hvalid : request.validate nowMs with
  | error error => exact .inl ⟨error, rfl, fun h => by simp at h⟩
  | ok _ =>
      simp only [hnone]
      by_cases hfull : controller.queueLimit ≤ controller.queuedRequests.length
      · exact .inl ⟨_, if_pos hfull, fun h => by omega⟩
      · exact .inr ⟨_, (if_neg hfull).trans (if_neg fresh), trivial, by omega⟩

/-- Results that leave an attempt where it was. -/
inductive Declined : Except RuntimeError RuntimeAdmission → Prop where
  | failed (error : RuntimeError) : Declined (.error error)
  | rejected (reason : ResourceError) : Declined (.ok (.rejected reason))

theorem attemptRefusal_declined {outcome : Except RuntimeError RuntimeAdmission}
    (h : runtime.attemptRefusal request nowMs attemptKind = some outcome) :
    Declined outcome := by
  unfold attemptRefusal at h
  repeat' split at h
  all_goals first
    | exact Option.some.inj h ▸ .failed _
    | exact Option.some.inj h ▸ .rejected _
    | cases h

section

variable (fresh : request.key ∉ runtime.admission.queuedAttempts)
include fresh

theorem Queueable.not_of_enqueue_error {error : ResourceError} {admission : AdmissionController}
    (h : runtime.admission.enqueue request nowMs = (.error error, admission)) :
    ¬ Queueable runtime request nowMs := by
  intro queueable
  obtain ⟨_, -, hnot⟩ | ⟨_, he, -⟩ := enqueue_of_fresh fresh nowMs
  · exact hnot ⟨queueable.valid, queueable.space⟩
  · rw [he] at h
    cases h

/-- A refusal of the controller means that the request can neither start nor wait. -/
theorem refused_not_placed (room : runtime.lanes.hasRoom (laneForWorkKind request.workKind) = true)
    (h : AdmissionController.Refused runtime.admission request nowMs) :
    ¬ Startable runtime request nowMs ∧ ¬ Queueable runtime request nowMs := by
  have blocked_not_startable : AdmissionController.Blocked runtime.admission request →
      ¬ Startable runtime request nowMs := by
    rintro (hdeferred | hfits) startable
    · rw [startable.prompt] at hdeferred
      cases hdeferred
    · rw [startable.fits] at hfits
      cases hfits
  cases h with
  | invalid error h =>
      refine ⟨fun startable => ?_, fun queueable => ?_⟩
      · rw [startable.valid] at h
        cases h
      · rw [queueable.valid] at h
        cases h
  | denied error h =>
      refine ⟨fun startable => ?_, fun queueable => ?_⟩
      · rw [startable.capable] at h
        cases h
      · rw [queueable.capable room] at h
        cases h
  | full blocked h =>
      refine ⟨blocked_not_startable blocked, fun queueable => ?_⟩
      have := queueable.space
      omega
  | conflict error blocked h =>
      exact ⟨blocked_not_startable blocked, Queueable.not_of_enqueue_error fresh h⟩

/-- The four ways an attempt leaves admission. -/
theorem admitExisting_cases (nowMs : Nat) (attemptKind : AttemptKind) :
    (∃ outcome, runtime.admitExisting request nowMs attemptKind = (some outcome, runtime) ∧
      Declined outcome ∧
      runtime.attemptRefusal request nowMs attemptKind = some outcome) ∨
    (∃ outcome, runtime.admitExisting request nowMs attemptKind = (some outcome, runtime) ∧
      Declined outcome ∧ ¬ Startable runtime request nowMs ∧
      ¬ Queueable runtime request nowMs) ∨
    (∃ position reason card, runtime.admitExisting request nowMs attemptKind =
        (some (.ok (.queued position reason)), runtime.withQueued request) ∧
      runtime.ledger.task request.taskId = some card ∧
      Waiting card request.attemptId attemptKind ∧
      ¬ Startable runtime request nowMs ∧ Queueable runtime request nowMs) ∨
    (∃ card ledger limit, runtime.admitExisting request nowMs attemptKind =
        (some (.ok (.admitted (.fromLease (runtime.admission.issueLease request nowMs)))),
          runtime.withStarted request nowMs ledger limit) ∧
      runtime.ledger.task request.taskId = some card ∧
      Waiting card request.attemptId attemptKind ∧
      TaskLedger.Replaced runtime.ledger request.taskId (card.started request.attemptId)
        ledger ∧
      runtime.lanes.lanes[laneForWorkKind request.workKind]? = some limit ∧
      Startable runtime request nowMs ∧ Due card nowMs attemptKind) := by
  cases hrefusal : runtime.attemptRefusal request nowMs attemptKind with
  | some outcome =>
      exact .inl ⟨outcome, by simp only [admitExisting, hrefusal],
        attemptRefusal_declined hrefusal, rfl⟩
  | none =>
      obtain ⟨card, ledger, hfound, hwaiting, hdue, hstart, hledger⟩ :=
        attemptRefusal_none hrefusal (runtime.admission.issueLease request nowMs) rfl rfl
      refine .inr ?_
      simp only [admitExisting, hrefusal]
      obtain ⟨hacquire, hroom⟩ | ⟨limit, hlimit, -, hroom, hacquire⟩ :=
        runtime.lanes.tryAcquire_cases (laneForWorkKind request.workKind)
      · -- The lane is full: the request is queued without asking the controller.
        have hnot : ¬ Startable runtime request nowMs := by
          intro startable
          rw [startable.room] at hroom
          cases hroom
        simp only [hacquire]
        obtain ⟨error, he, hbad⟩ | ⟨position, he, hvalid, hspace⟩ := enqueue_of_fresh fresh nowMs
        · refine .inl ⟨.error (.resource error), by rw [he], .failed _, hnot, ?_⟩
          exact Queueable.not_of_enqueue_error fresh he
        · refine .inr (.inl ⟨position, _, card, by rw [he]; rfl, hfound, hwaiting, hnot, ?_⟩)
          refine ⟨hvalid, fun h => ?_, hspace⟩
          rw [hroom] at h
          cases h
      · simp only [hacquire]
        obtain ⟨reason, he, hrefused⟩ | ⟨position, reason, admission, he, hq, hcapable, hblocked⟩ |
          ⟨he, hvalid, hcapable, hprompt, hfits⟩ | ⟨-, error, he, hvalid, hspace⟩ :=
          runtime.admission.admitRequest_cases request nowMs
        · refine .inl ⟨.ok (.rejected reason), ?_, .rejected _,
            refused_not_placed fresh hroom hrefused⟩
          simp only [he, release_acquired hlimit]
        · obtain ⟨error, hbad, -⟩ | ⟨position', hpush, hvalid, hspace⟩ :=
            enqueue_of_fresh fresh nowMs
          · rw [hq] at hbad
            cases hbad
          · rw [hq] at hpush
            obtain ⟨-, rfl⟩ := Prod.mk.inj hpush
            refine .inr (.inl ⟨position, reason, card, ?_, hfound, hwaiting, ?_,
              ⟨hvalid, fun _ => hcapable, hspace⟩⟩)
            · simp only [he, release_acquired hlimit]
              rfl
            · rintro ⟨-, -, -, hprompt, hfits⟩
              obtain hdeferred | hfull := hblocked
              · rw [hprompt] at hdeferred
                cases hdeferred
              · rw [hfits] at hfull
                cases hfull
        · refine .inr (.inr ⟨card, ledger, limit, ?_, hfound, hwaiting, hledger, hlimit,
            ⟨hroom, hvalid, hcapable, hprompt, hfits⟩, hdue⟩)
          simp only [he, hstart]
          rfl
        · obtain ⟨_, -, hnot⟩ | ⟨_, hpush, -⟩ := enqueue_of_fresh fresh nowMs
          · exact absurd ⟨hvalid, hspace⟩ hnot
          · rw [he] at hpush
            cases hpush

end

/-- How the card of a task is left when its lease is given back. -/
inductive Settles (card : TaskCard) : TaskCard → Prop where
  | finished (target : TaskStatus) (final : target ∈ [.done, .failed, .timedOut])
      (allowed : card.status = target ∨ card.status.canTransitionTo target = true) :
      Settles card (card.withStatus target)
  | cancelled (allowed : card.status = .cancelling ∨
        card.status.canTransitionTo .cancelling = true) :
      Settles card ((card.withStatus .cancelling).withStatus .cancelled)
  | waits (status : card.status = .running) (notBeforeMs : ℕ+) :
      Settles card { card with retryNotBeforeMs := some notBeforeMs, status := .retryWait }

namespace Settles

variable {settled : TaskCard}

theorem status_mem (h : Settles card settled) :
    settled.status ∈ [TaskStatus.done, .failed, .timedOut, .cancelled, .retryWait] := by
  cases h with
  | finished target final _ =>
      rw [withStatus_status]
      exact List.mem_append_left [.cancelled, .retryWait] final
  | cancelled _ => simp
  | waits _ _ => simp

theorem not_running (h : Settles card settled) : settled.status ≠ .running := by
  intro hstatus
  have := h.status_mem
  rw [hstatus] at this
  simp at this

theorem not_ready (h : Settles card settled) : settled.status ≠ .ready := by
  intro hstatus
  have := h.status_mem
  rw [hstatus] at this
  simp at this

/-- A finished task is not touched again. -/
theorem done (h : Settles card settled) (hdone : card.status = .done) :
    settled.status = .done := by
  cases h with
  | finished target final allowed =>
      rw [withStatus_status]
      obtain same | moved := allowed
      · exact same.symm.trans hdone
      · rw [hdone] at moved
        cases moved
  | cancelled allowed =>
      rw [hdone] at allowed
      obtain same | moved := allowed
      · cases same
      · cases moved
  | waits status _ =>
      rw [hdone] at status
      cases status

end Settles

/-- The runtime after a lease is given back and its task has moved on. -/
def withReleased (runtime : AuthoritativeRuntime) (leaseId : Nat) (lease : ResourceLease)
    (ledger : TaskLedger) (limit : LaneLimit) : AuthoritativeRuntime :=
  { runtime with
    ledger := ledger
    admission := runtime.admission.dropLease leaseId lease
    lanes := runtime.lanes.setActive (laneForWorkKind lease.workKind) limit
      (limit.active - 1) }

/-- The step that gives one active lease back. -/
inductive Releases (runtime : AuthoritativeRuntime) : AuthoritativeRuntime → Prop where
  | release (leaseId : Nat) (lease : ResourceLease) (limit : LaneLimit)
      (card settled : TaskCard) (ledger : TaskLedger)
      (active : runtime.admission.active[leaseId]? = some lease)
      (counted : runtime.lanes.lanes[laneForWorkKind lease.workKind]? = some limit)
      (positive : 0 < limit.active)
      (found : runtime.ledger.task lease.taskId = some card) (settles : Settles card settled)
      (replaced : TaskLedger.Replaced runtime.ledger lease.taskId settled ledger) :
      Releases runtime (runtime.withReleased leaseId lease ledger limit)

/-- The step by which a token gives its lease back at a time. A task that is to wait for its next
attempt waits for the delay of its policy, counted from then on. -/
inductive ReleasesBy (runtime : AuthoritativeRuntime) (token : ResourceLeaseToken) (nowMs : Nat) :
    AuthoritativeRuntime → Prop where
  | release (lease : ResourceLease) (limit : LaneLimit) (card settled : TaskCard)
      (ledger : TaskLedger) (inspected : runtime.admission.inspectToken token = .ok lease)
      (counted : runtime.lanes.lanes[laneForWorkKind lease.workKind]? = some limit)
      (positive : 0 < limit.active)
      (found : runtime.ledger.task lease.taskId = some card) (settles : Settles card settled)
      (delayed : settled.status = .retryWait → ∃ delay dueMs : Nat,
        runtime.ledger.retryPolicy.delayAfter card.attemptId = some delay ∧
        settled.retryNotBeforeMs.map (↑) = some dueMs ∧ dueMs = nowMs + delay)
      (replaced : TaskLedger.Replaced runtime.ledger lease.taskId settled ledger) :
      ReleasesBy runtime token nowMs (runtime.withReleased token.leaseId lease ledger limit)

theorem ReleasesBy.releases {token : ResourceLeaseToken} (h : ReleasesBy runtime token nowMs next) :
    Releases runtime next := by
  obtain ⟨lease, limit, card, settled, ledger, inspected, counted, positive, found, settles, -,
    replaced⟩ := h
  exact .release token.leaseId lease limit card settled ledger
    (inspectToken_ok inspected).1 counted positive found settles replaced

theorem releaseFenced_of_inspect {token : ResourceLeaseToken} {lease : ResourceLease}
    (h : runtime.admission.inspectToken token = .ok lease) :
    runtime.admission.releaseFenced token =
      (.ok lease, runtime.admission.dropLease token.leaseId lease) := by
  have hactive := (inspectToken_ok h).1
  simp [releaseFenced, h, AdmissionController.release, hactive, dropLease]

section

variable (runtime : AuthoritativeRuntime) (token : ResourceLeaseToken)

/-- Finishing with a final status fails without effect, or releases the lease. -/
theorem releaseAndTransition_final (nowMs : Nat) {target : TaskStatus}
    (final : target ∈ [TaskStatus.done, .failed, .timedOut]) :
    (∃ error, runtime.releaseAndTransition token target none = (.error error, runtime)) ∨
    (∃ next, runtime.releaseAndTransition token target none = (.ok (), next) ∧
      ReleasesBy runtime token nowMs next) := by
  unfold releaseAndTransition
  cases hinspect : runtime.admission.inspectToken token with
  | error error => exact .inl ⟨_, rfl⟩
  | ok lease =>
      obtain ⟨error, he⟩ | ⟨card, hfound, allowed, he⟩ :=
        validateStatusTransition_cases runtime.ledger lease.taskId target
      · exact .inl ⟨mapTransitionError error, by simp only [he]⟩
      · simp only [he]
        by_cases hrelease : runtime.lanes.canRelease (laneForWorkKind lease.workKind) = false
        · exact .inl ⟨_, if_pos hrelease⟩
        · rw [if_neg hrelease]
          obtain ⟨limit, hlimit, hpos, hreleased⟩ :=
            release_of_canRelease (by simpa using hrelease)
          obtain ⟨ledger, hmoved, hledger⟩ :=
            transitionStatus_of_allowed hfound allowed
          refine .inr ⟨_, ?_, .release lease limit card _ ledger hinspect hlimit hpos hfound
            (.finished target final allowed) (fun waits => ?_) hledger⟩
          · simp only [releaseFenced_of_inspect hinspect, hreleased, hmoved]
            rfl
          · rw [withStatus_status] at waits
            simp [waits] at final

theorem releaseAndTransition_retry {notBeforeMs : Nat} (hpos : 0 < notBeforeMs)
    (delayed : ∀ lease card, runtime.admission.inspectToken token = .ok lease →
      runtime.ledger.task lease.taskId = some card → ∃ delay,
        runtime.ledger.retryPolicy.delayAfter card.attemptId = some delay ∧
        notBeforeMs = nowMs + delay) :
    (∃ error, runtime.releaseAndTransition token .retryWait (some notBeforeMs) =
      (.error error, runtime)) ∨
    (∃ next, runtime.releaseAndTransition token .retryWait (some notBeforeMs) = (.ok (), next) ∧
      ReleasesBy runtime token nowMs next) := by
  unfold releaseAndTransition
  cases hinspect : runtime.admission.inspectToken token with
  | error error => exact .inl ⟨_, rfl⟩
  | ok lease =>
      simp only
      cases hvalid : runtime.ledger.validateRetryWait lease.taskId notBeforeMs with
      | error error => exact .inl ⟨_, rfl⟩
      | ok _ =>
          simp only
          by_cases hrelease : runtime.lanes.canRelease (laneForWorkKind lease.workKind) = false
          · exact .inl ⟨_, if_pos hrelease⟩
          · rw [if_neg hrelease]
            obtain ⟨limit, hlimit, hcount, hreleased⟩ :=
              release_of_canRelease (by simpa using hrelease)
            obtain ⟨card, hfound, hrunning⟩ := validateRetryWait_ok hvalid
            obtain ⟨ledger, hmoved, hledger⟩ :=
              scheduleRetryWait_of_valid hpos hvalid hfound
            obtain ⟨delay, hdelay, hdue⟩ := delayed lease card hinspect hfound
            refine .inr ⟨_, ?_, .release lease limit card _ ledger hinspect hlimit hcount hfound
              (.waits hrunning ⟨notBeforeMs, hpos⟩)
              (fun _ => ⟨delay, notBeforeMs, hdelay, rfl, hdue⟩) hledger⟩
            simp only [releaseFenced_of_inspect hinspect, hreleased, hmoved]
            rfl

/-- The failure branches after the first transition are never taken. -/
theorem cancelAndRelease_cases (nowMs : Nat) :
    (∃ error, runtime.cancelAndRelease token = (.error error, runtime)) ∨
    (∃ next, runtime.cancelAndRelease token = (.ok (), next) ∧
      ReleasesBy runtime token nowMs next) := by
  unfold cancelAndRelease
  cases hinspect : runtime.admission.inspectToken token with
  | error error => exact .inl ⟨_, rfl⟩
  | ok lease =>
      obtain ⟨error, he⟩ | ⟨card, hfound, allowed, he⟩ :=
        validateStatusTransition_cases runtime.ledger lease.taskId .cancelling
      · exact .inl ⟨mapTransitionError error, by simp only [he]⟩
      · simp only [he]
        rw [if_neg (by decide)]
        by_cases hrelease : runtime.lanes.canRelease (laneForWorkKind lease.workKind) = false
        · exact .inl ⟨_, if_pos hrelease⟩
        · rw [if_neg hrelease]
          obtain ⟨limit, hlimit, hpos, hreleased⟩ :=
            release_of_canRelease (by simpa using hrelease)
          obtain ⟨middle, hcancelling, hmiddle⟩ :=
            transitionStatus_of_allowed hfound allowed
          obtain ⟨ledger, hcancelled, hledger⟩ :=
            transitionStatus_of_allowed hmiddle.task_self
              (.inr (by simp; rfl) :
                _ ∨ (card.withStatus .cancelling).status.canTransitionTo .cancelled = true)
          refine .inr ⟨_, ?_, .release lease limit card _ ledger hinspect hlimit hpos hfound
            (.cancelled allowed) (fun waits => by simp at waits) (hmiddle.trans hledger)⟩
          simp only [hcancelling, releaseFenced_of_inspect hinspect, hreleased, hcancelled]
          rfl

end

theorem retryStart_eq {taskId dueMs : Nat} (h : runtime.retryStart card taskId nowMs = some dueMs) :
    ∃ task delay, runtime.ledger.task taskId = some task ∧
      runtime.ledger.retryPolicy.delayAfter task.attemptId = some delay ∧
      dueMs = nowMs + delay := by
  obtain ⟨hbind, -⟩ := Option.filter_eq_some_iff.mp h
  obtain ⟨delay, hdelay, hsum⟩ := Option.bind_eq_some_iff.mp hbind
  obtain ⟨task, found, hpolicy⟩ := Option.bind_eq_some_iff.mp hdelay
  exact ⟨task, delay, found, hpolicy, (checkedAdd_eq_some_iff.mp hsum).2⟩

/-- Finishing a lease fails without effect, or gives exactly that lease back. -/
theorem finishAt_releases (runtime : AuthoritativeRuntime) (token : ResourceLeaseToken)
    (outcome : RuntimeOutcome) (nowMs : Nat) :
    (∃ error, runtime.finishAt token outcome nowMs = (.error error, runtime)) ∨
    (∃ next, runtime.finishAt token outcome nowMs = (.ok (), next) ∧
      ReleasesBy runtime token nowMs next) := by
  have settle_cases : ∀ outcome,
      (∃ error, runtime.settle token nowMs outcome = (.error error, runtime)) ∨
      (∃ next, runtime.settle token nowMs outcome = (.ok (), next) ∧
        ReleasesBy runtime token nowMs next) := by
    intro outcome
    cases outcome with
    | cancelled => exact runtime.cancelAndRelease_cases token nowMs
    | done => exact runtime.releaseAndTransition_final token nowMs (by simp)
    | failed => exact runtime.releaseAndTransition_final token nowMs (by simp)
    | timedOut => exact runtime.releaseAndTransition_final token nowMs (by simp)
    | retryWait =>
        simp only [settle]
        split
        · exact .inl ⟨_, rfl⟩
        · rename_i lease hinspect
          split
          · exact .inl ⟨_, rfl⟩
          · split
            · rename_i hstart
              obtain ⟨task, delay, found, hdelay, rfl⟩ := retryStart_eq hstart
              have positive := RetryPolicy.delayAfter_pos hdelay
              refine runtime.releaseAndTransition_retry token (by omega) fun lease' card' h h' => ?_
              obtain rfl := Except.ok.inj (hinspect.symm.trans h)
              obtain rfl := Option.some.inj (found.symm.trans h')
              exact ⟨delay, hdelay, rfl⟩
            · exact runtime.releaseAndTransition_final token nowMs (by simp)
  unfold finishAt
  split
  · exact settle_cases outcome
  · split
    · exact .inl ⟨_, rfl⟩
    · exact settle_cases _

theorem finishAt_cases (runtime : AuthoritativeRuntime) (token : ResourceLeaseToken)
    (outcome : RuntimeOutcome) (nowMs : Nat) :
    (∃ error, runtime.finishAt token outcome nowMs = (.error error, runtime)) ∨
    (∃ next, runtime.finishAt token outcome nowMs = (.ok (), next) ∧
      Releases runtime next) := by
  obtain failed | ⟨next, he, released⟩ := runtime.finishAt_releases token outcome nowMs
  · exact .inl failed
  · exact .inr ⟨next, he, released.releases⟩

end AuthoritativeRuntime

end Aegis.Runtime
