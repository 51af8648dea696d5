import Mathlib.Data.Set.Function
import AegisCognition.Runtime.Operation

/-!
# Leases, running tasks and lane counters move together

Over every run of the runtime the active leases are in one-to-one correspondence with the
running tasks, and every lane counts exactly the leases of its work kinds.

Consistency gives one half of the correspondence for free. The other half needs lease
ids that are never used twice, so the invariant of this module counts the leases issued
so far and holds as long as the counter of the controller does not saturate.
-/

namespace Aegis.Runtime

open Std Foundation Resource Aegis.Task AuthoritativeRuntime ExtTreeMap
open AdmissionController ExecutionLaneRegistry OrderedMap

namespace AuthoritativeRuntime

def outcomeIssued : Option (Except RuntimeError RuntimeAdmission) → Nat
  | some (.ok (.admitted _)) => 1
  | _ => 0

def isAdmitted : RuntimeAdmission → Bool
  | .admitted _ => true
  | _ => false

def resultsIssued : Option (List QueuedRuntimeAdmission) → Nat
  | none => 0
  | some results => results.countP fun result => isAdmitted result.admission

/-- The leases a call issues: one for each admission among its results. -/
def leasesIssued (runtime : AuthoritativeRuntime) : RuntimeOp → Nat
  | .submit task request nowMs => outcomeIssued (runtime.submit task request nowMs).1
  | .retry taskId request nowMs => outcomeIssued (runtime.retry taskId request nowMs).1
  | .drainQueued nowMs => resultsIssued (runtime.drainQueued nowMs).1
  | .pollQueued taskId attemptId nowMs =>
      if runtime.pendingAdmissions[(taskId, attemptId)]?.isSome then 0
      else resultsIssued (runtime.drainQueued nowMs).1
  | _ => 0

/-- The number of active leases whose work runs on a lane. -/
def laneLoad (runtime : AuthoritativeRuntime) (lane : ExecutionLane) : Nat :=
  (valueList runtime.admission.active).countP fun lease =>
    laneForWorkKind lease.workKind = lane

structure Accounted (issued : Nat) (runtime : AuthoritativeRuntime) : Prop where
  consistent : Consistent runtime
  nextLeaseId : runtime.admission.nextLeaseId = issued + 1
  leaseIdLt : ∀ (leaseId : Nat) (lease : ResourceLease),
    runtime.admission.active[leaseId]? = some lease → leaseId < runtime.admission.nextLeaseId
  covered : ∀ taskId card, runtime.ledger.task taskId = some card → card.status = .running →
    ∃ (leaseId : Nat) (lease : ResourceLease),
      runtime.admission.active[leaseId]? = some lease ∧ lease.taskId = taskId
  counted : ∀ lane, ∃ limit, runtime.lanes.lanes[lane]? = some limit ∧
    limit.active = runtime.laneLoad lane

variable {runtime other : AuthoritativeRuntime} {request : ResourceRequest} {nowMs : Nat}
variable {card : TaskCard} {ledger : TaskLedger} {issued taskId : Nat}
variable {attemptKind : AttemptKind}

theorem accounted_new (deadlineHorizonMs : Nat) (profile : HardwareProfile) :
    Accounted 0 (new deadlineHorizonMs profile) where
  consistent := consistent_new deadlineHorizonMs profile
  nextLeaseId := rfl
  leaseIdLt := by simp [new, fromHardware, AdmissionController.new]
  covered := by simp [new, TaskLedger.new, TaskLedger.task]
  counted := by
    intro lane
    have unused : laneLoad (new deadlineHorizonMs profile) lane = 0 := by
      simp [laneLoad, new, fromHardware, AdmissionController.new]
    cases lane <;> exact ⟨_, rfl, unused.symm⟩

namespace Accounted

section

variable (h : Accounted issued runtime)
include h

/-- The queue, capacities and kept results play no part in the accounts. -/
theorem of_eq (consistent : Consistent other)
    (htask : other.ledger = runtime.ledger) (hlanes : other.lanes = runtime.lanes)
    (hactive : other.admission.active = runtime.admission.active)
    (hnext : other.admission.nextLeaseId = runtime.admission.nextLeaseId) :
    Accounted issued other := by
  obtain ⟨-, nextLeaseId, leaseIdLt, covered, counted⟩ := h
  refine ⟨consistent, ?_, ?_, ?_, ?_⟩ <;>
    simp only [laneLoad, htask, hlanes, hactive, hnext] <;> assumption

/-- A card that does not run may be filed. -/
theorem withLedger
    (consistent : Consistent (runtime.withLedger ledger))
    (replaced : TaskLedger.Replaced runtime.ledger taskId card ledger)
    (idle : card.status ≠ .running) : Accounted issued (runtime.withLedger ledger) := by
  refine ⟨consistent, h.nextLeaseId, h.leaseIdLt, ?_, h.counted⟩
  intro otherId found hfound hrunning
  obtain ⟨-, rfl⟩ | ⟨-, hfound⟩ := replaced.task_eq_some_iff.mp hfound
  · exact absurd hrunning idle
  · exact h.covered otherId found hfound hrunning

theorem unused_leaseId :
    runtime.admission.active[runtime.admission.nextLeaseId]? = none := by
  cases hlease : runtime.admission.active[runtime.admission.nextLeaseId]? with
  | none => rfl
  | some lease => exact absurd (h.leaseIdLt _ _ hlease) (Nat.lt_irrefl _)

theorem laneLoad_started (limit : LaneLimit)
    (lane : ExecutionLane) :
    (runtime.withStarted request nowMs ledger limit).laneLoad lane =
      runtime.laneLoad lane + if laneForWorkKind request.workKind = lane then 1 else 0 := by
  have moved := valueList_insert_perm
    (v := runtime.admission.issueLease request nowMs) h.unused_leaseId
  unfold laneLoad
  rw [withStarted, AdmissionController.grant, moved.countP_eq, List.countP_cons]
  by_cases hlane : laneForWorkKind request.workKind = lane <;>
    simp [issueLease, hlane]

theorem withStarted (room : issued + 1 < u128Max)
    {limit : LaneLimit} (fresh : request.key ∉ runtime.admission.queuedAttempts)
    (found : runtime.ledger.task request.taskId = some card)
    (waiting : Waiting card request.attemptId attemptKind)
    (replaced : TaskLedger.Replaced runtime.ledger request.taskId
      (card.started request.attemptId) ledger)
    (hlimit : runtime.lanes.lanes[laneForWorkKind request.workKind]? = some limit) :
    Accounted (issued + 1) (runtime.withStarted request nowMs ledger limit) := by
  have hnext : (runtime.withStarted request nowMs ledger limit).admission.nextLeaseId =
      issued + 1 + 1 := by
    change saturatingAdd u128Max runtime.admission.nextLeaseId 1 = _
    rw [h.nextLeaseId, saturatingAdd_of_le (by omega)]
  refine ⟨h.consistent.withStarted fresh found waiting replaced, hnext, ?_, ?_, ?_⟩
  · intro leaseId lease hactive
    have hold := h.nextLeaseId
    rw [hnext]
    obtain ⟨rfl, -⟩ | ⟨-, hactive⟩ := getElem?_insert_eq_some_iff.mp hactive
    · omega
    · have := h.leaseIdLt leaseId lease hactive
      omega
  · intro otherId other hother hrunning
    obtain ⟨rfl, rfl⟩ | ⟨-, hother⟩ := replaced.task_eq_some_iff.mp hother
    · exact ⟨_, _, getElem?_insert_self, rfl⟩
    · obtain ⟨leaseId, lease, hactive, htask⟩ := h.covered otherId other hother hrunning
      refine ⟨leaseId, lease, ?_, htask⟩
      refine getElem?_insert_eq_some_iff.mpr (.inr ⟨?_, hactive⟩)
      exact (h.leaseIdLt leaseId lease hactive).ne'
  · intro lane
    rw [laneLoad_started h]
    by_cases hlane : laneForWorkKind request.workKind = lane
    · subst hlane
      obtain ⟨limit', hlimit', hcount⟩ := h.counted (laneForWorkKind request.workKind)
      rw [hlimit] at hlimit'
      cases hlimit'
      refine ⟨_, getElem?_insert_self, ?_⟩
      rw [if_pos rfl, ← hcount]
    · obtain ⟨limit', hlimit', hcount⟩ := h.counted lane
      refine ⟨limit', ?_, ?_⟩
      · rw [← hlimit']
        exact setActive_of_ne hlane
      · rw [if_neg hlane, hcount, Nat.add_zero]

theorem releases (step : Releases runtime other) :
    Accounted issued other := by
  have consistent := h.consistent.releases step
  obtain ⟨leaseId, lease, limit, card, settled, ledger, active, hlimit, positive, found,
    settles, replaced⟩ := step
  have hload : ∀ lane, runtime.laneLoad lane =
      (runtime.withReleased leaseId lease ledger limit).laneLoad lane +
        if laneForWorkKind lease.workKind = lane then 1 else 0 := by
    intro lane
    unfold laneLoad
    rw [(valueList_erase_perm active).countP_eq, List.countP_cons]
    simp [withReleased, dropLease]
  refine ⟨consistent, h.nextLeaseId, ?_, ?_, ?_⟩
  · intro otherId other hother
    exact h.leaseIdLt otherId other (getElem?_erase_eq_some_iff.mp hother).2
  · intro taskId card' hcard hrunning
    obtain ⟨-, rfl⟩ | ⟨hne, hcard⟩ := replaced.task_eq_some_iff.mp hcard
    · exact absurd hrunning settles.not_running
    · obtain ⟨otherId, other, hother, rfl⟩ := h.covered taskId card' hcard hrunning
      refine ⟨otherId, other, ?_, rfl⟩
      refine getElem?_erase_eq_some_iff.mpr ⟨?_, hother⟩
      rintro rfl
      rw [active] at hother
      cases hother
      exact hne rfl
  · intro lane
    have hlane := hload lane
    by_cases same : laneForWorkKind lease.workKind = lane
    · subst same
      obtain ⟨limit', hlimit', hcount⟩ := h.counted (laneForWorkKind lease.workKind)
      rw [hlimit] at hlimit'
      cases hlimit'
      refine ⟨_, getElem?_insert_self, ?_⟩
      simp only [if_true] at hlane
      change limit.active - 1 = _
      omega
    · obtain ⟨limit', hlimit', hcount⟩ := h.counted lane
      refine ⟨limit', ?_, ?_⟩
      · rw [← hlimit']
        exact setActive_of_ne same
      · simp only [if_neg same] at hlane
        omega

end

end Accounted

theorem Declined.issues_none {outcome : Except RuntimeError RuntimeAdmission}
    (h : Declined outcome) : outcomeIssued (some outcome) = 0 := by
  cases h <;> rfl

/-- Admission keeps the accounts, with one more lease exactly when it starts an attempt. -/
theorem Accounted.admitExisting (h : Accounted issued runtime)
    (fresh : request.key ∉ runtime.admission.queuedAttempts)
    (room : issued + outcomeIssued (runtime.admitExisting request nowMs attemptKind).1 <
      u128Max) :
    Accounted (issued + outcomeIssued (runtime.admitExisting request nowMs attemptKind).1)
      (runtime.admitExisting request nowMs attemptKind).2 := by
  obtain ⟨outcome, he, declined, -⟩ | ⟨outcome, he, declined, -⟩ | ⟨position, reason, card, he,
    found, waiting, -, queueable⟩ | ⟨card, ledger, limit, he, found, waiting, replaced, hlimit,
    -⟩ := admitExisting_cases fresh nowMs attemptKind
  · rw [he, declined.issues_none]
    exact h
  · rw [he, declined.issues_none]
    exact h
  · rw [he]
    exact h.of_eq (h.consistent.withQueued fresh queueable.space found waiting) rfl rfl rfl rfl
  · rw [he] at room ⊢
    exact h.withStarted room fresh found waiting replaced hlimit

def progressIssued : DrainProgress → Nat
  | .yield result _ => if isAdmitted result.admission then 1 else 0
  | _ => 0

/-- An iteration reports the admission of its front entry unchanged. -/
theorem progressIssued_readmitFront (runtime : AuthoritativeRuntime)
    (request : ResourceRequest) (nowMs : Nat) (attemptKind : AttemptKind) :
    progressIssued (runtime.readmitFront request nowMs attemptKind).1 =
      outcomeIssued (runtime.dropFront.admitExisting request nowMs attemptKind).1 := by
  unfold readmitFront
  split
  · rename_i he
    rw [he]
    rfl
  · rename_i outcome next he
    rw [he]
    cases outcome with
    | error error => rfl
    | ok admission => cases admission <;> rfl

theorem Accounted.drainOnce (h : Accounted issued runtime) (nowMs : Nat)
    (room : issued + progressIssued (runtime.drainOnce nowMs).1 < u128Max) :
    Accounted (issued + progressIssued (runtime.drainOnce nowMs).1)
      (runtime.drainOnce nowMs).2 := by
  obtain he | ⟨request, rest, card, attemptKind, queue, found, waiting, hmove⟩ :=
    drainOnce_cases h.consistent nowMs
  · rw [he]
    exact h
  · obtain ⟨dropped, fresh, -⟩ := h.consistent.dropFront queue
    have popped : Accounted issued runtime.dropFront := by
      refine h.of_eq dropped rfl rfl ?_ ?_ <;> rw [dropFront_eq queue]
    obtain ⟨ledger, he, replaced, -⟩ | he := hmove
    · have consistent := (h.consistent.drainOnce nowMs).1
      rw [he] at consistent ⊢
      exact popped.withLedger consistent replaced (by simp)
    · rw [he, progressIssued_readmitFront] at room
      rw [he, progressIssued_readmitFront, readmitFront_state]
      exact popped.admitExisting fresh room

theorem resultsIssued_cons {results : Option (List QueuedRuntimeAdmission)}
    (h : results ≠ none) (result : QueuedRuntimeAdmission) (proceed : Bool) :
    resultsIssued (results.map (result :: ·)) =
      progressIssued (.yield result proceed) + resultsIssued results := by
  cases results with
  | none => exact absurd rfl h
  | some results =>
      simp only [Option.map_some, resultsIssued, progressIssued, List.countP_cons]
      omega

/-- A drain keeps the accounts, with one more lease for each admission it reports. -/
theorem Accounted.drainLoop (h : Accounted issued runtime) (remaining : Nat)
    (room : issued + resultsIssued (drainLoop nowMs remaining runtime).1 < u128Max) :
    Accounted (issued + resultsIssued (drainLoop nowMs remaining runtime).1)
      (drainLoop nowMs remaining runtime).2 := by
  induction remaining generalizing runtime issued with
  | zero => exact h
  | succ remaining ih =>
      have next := h.drainOnce nowMs
      obtain ⟨consistent, calm⟩ := h.consistent.drainOnce nowMs
      simp only [drainLoop] at room ⊢
      split at room <;> rename_i he <;> simp only [he] at next calm consistent ⊢
      · exact next room
      · exact absurd rfl calm
      · rename_i result last
        have single : resultsIssued (some [result]) = progressIssued (.yield result false) := by
          simp [resultsIssued, progressIssued, List.countP_cons]
        rw [single] at room ⊢
        exact next room
      · rename_i result last
        have some := (consistent.drainLoop nowMs remaining).2
        rw [resultsIssued_cons some result true, ← Nat.add_assoc] at room ⊢
        exact ih (next (by omega)) room

theorem Accounted.step (h : Accounted issued runtime) (op : RuntimeOp)
    (room : issued + runtime.leasesIssued op < u128Max) :
    Accounted (issued + runtime.leasesIssued op) (runtime.step op) := by
  have consistent := h.consistent.step op
  cases op with
  | submit task request nowMs =>
      simp only [AuthoritativeRuntime.step, leasesIssued] at room consistent ⊢
      obtain ⟨error, he⟩ | ⟨ledger, he, replaced, fresh, files⟩ :=
        submit_cases runtime task request nowMs
      · rw [he]
        exact h
      · rw [he] at room ⊢
        obtain ⟨filed, unqueued⟩ := h.consistent.filed replaced fresh
        have accounted := h.withLedger filed replaced (by simp [submittedCard])
        refine accounted.admitExisting ?_ room
        rw [constrain_key, ResourceRequest.key, ← files.taskId]
        exact unqueued _
  | retry taskId request nowMs =>
      simp only [AuthoritativeRuntime.step, leasesIssued] at room consistent ⊢
      obtain ⟨outcome, pending, he, unstarted⟩ | ⟨pending, card, he, -, -, -, fresh⟩ :=
        retry_cases h.consistent taskId request nowMs
      · have none : outcomeIssued (some outcome) = 0 := by
          cases unstarted <;> rfl
        rw [he] at consistent ⊢
        rw [none]
        exact h.of_eq consistent rfl rfl rfl rfl
      · rw [he] at room ⊢
        have kept : Accounted issued (runtime.withPending pending) :=
          h.of_eq (h.consistent.withPending pending) rfl rfl rfl rfl
        refine kept.admitExisting ?_ room
        exact fresh
  | finish token outcome nowMs =>
      simp only [AuthoritativeRuntime.step]
      obtain ⟨error, he⟩ | ⟨next, he, released⟩ := runtime.finishAt_cases token outcome nowMs
      · rw [he]
        exact h
      · rw [he]
        exact h.releases released
  | drainQueued nowMs => exact h.drainLoop _ room
  | pollQueued taskId attemptId nowMs =>
      simp only [AuthoritativeRuntime.step, leasesIssued] at room consistent ⊢
      obtain ⟨admission, pending, he, kept⟩ | ⟨pending, he, absent⟩ :=
        pollQueued_cases runtime taskId attemptId nowMs
      · rw [he] at consistent ⊢
        simp only [kept, Option.isSome_some, if_true]
        exact h.of_eq consistent rfl rfl rfl rfl
      · rw [he] at consistent ⊢
        simp only [absent, Option.isSome_none, Bool.false_eq_true, if_false] at room ⊢
        exact (h.drainLoop _ room).of_eq consistent rfl rfl rfl rfl
  | cancelQueued taskId attemptId =>
      simp only [AuthoritativeRuntime.step] at consistent ⊢
      obtain ⟨result, he⟩ | ⟨card, attemptKind, pending, ledger, he, found, waiting,
        replaced⟩ := cancelQueued_cases runtime taskId attemptId
      · rw [he]
        exact h
      · rw [he] at consistent ⊢
        have removed : Accounted issued
            ((runtime.withoutQueued (taskId, attemptId)).withPending pending) :=
          h.of_eq ((h.consistent.withoutQueued _).withPending _) rfl rfl rfl rfl
        exact removed.withLedger consistent replaced (by simp)
  | reapExpired nowMs => exact reapExpired_invariant (fun _ _ h => h.releases) h nowMs
  | observeResourceSample sample => exact h.of_eq consistent rfl rfl rfl rfl

/-- In every run that issues fewer than `2 ^ 128 - 1` leases, the active leases correspond
one to one to the running tasks, attempt by attempt, and every lane counts its leases. -/
theorem run_leases_match_running_tasks (deadlineHorizonMs : Nat) (profile : HardwareProfile)
    (ops : List RuntimeOp)
    (bounded : totalCost step leasesIssued (new deadlineHorizonMs profile) ops < u128Max) :
    Set.BijOn (fun entry : Nat × ResourceLease => entry.2.taskId)
      { entry | (run step (new deadlineHorizonMs profile) ops).admission.active[entry.1]? =
        some entry.2 }
      { taskId | ∃ card, (run step (new deadlineHorizonMs profile) ops).ledger.task taskId =
        some card ∧ card.status = .running } ∧
    (∀ (leaseId : Nat) (lease : ResourceLease),
      (run step (new deadlineHorizonMs profile) ops).admission.active[leaseId]? = some lease →
      ∃ card, (run step (new deadlineHorizonMs profile) ops).ledger.task lease.taskId =
        some card ∧ card.attemptId = lease.attemptId) ∧
    (∀ lane, ∃ limit,
      (run step (new deadlineHorizonMs profile) ops).lanes.lanes[lane]? = some limit ∧
      limit.active = (valueList
        (run step (new deadlineHorizonMs profile) ops).admission.active).countP
          (fun lease => laneForWorkKind lease.workKind = lane)) := by
  have keep : ∀ issued s op, Accounted issued s → issued + leasesIssued s op < u128Max →
      Accounted (issued + leasesIssued s op) (step s op) :=
    fun _ _ op h room => h.step op room
  have final := run_invariant_metered keep ops (accounted_new deadlineHorizonMs profile)
    (by simpa using bounded)
  refine ⟨⟨?_, ?_, ?_⟩, ?_, final.counted⟩
  · rintro ⟨leaseId, lease⟩ hactive
    obtain ⟨card, found, running, -⟩ := final.consistent.holder leaseId lease hactive
    exact ⟨card, found, running⟩
  · rintro ⟨leaseId, lease⟩ hactive ⟨otherId, other⟩ hother same
    have hid := final.consistent.single leaseId lease otherId other hactive hother same
    subst hid
    have hlease : some lease = some other := hactive.symm.trans hother
    cases hlease
    rfl
  · rintro taskId ⟨card, found, running⟩
    obtain ⟨leaseId, lease, hactive, htask⟩ := final.covered taskId card found running
    exact ⟨(leaseId, lease), hactive, htask⟩
  · intro leaseId lease hactive
    obtain ⟨card, found, -, attempt⟩ := final.consistent.holder leaseId lease hactive
    exact ⟨card, found, attempt⟩

/-- Three submissions on a lane for two, a completion, and a drain that starts the third. -/
def startAfterRelease : List RuntimeOp :=
  [.submit (.new 1 [] 0 none none) (.minimal 1 .nativeTask) 0,
    .submit (.new 2 [] 0 none none) (.minimal 2 .nativeTask) 0,
    .submit (.new 3 [] 0 none none) (.minimal 3 .nativeTask) 0,
    .finish ⟨leaseTokenSchemaV1, 1, 1, 1⟩ .done 5,
    .drainQueued 6]

theorem startAfterRelease_leases_match :
    totalCost step leasesIssued (new 1000 .small) startAfterRelease = 3 ∧
    ∀ lane, ∃ limit,
      (run step (new 1000 .small) startAfterRelease).lanes.lanes[lane]? = some limit ∧
      limit.active = (valueList
        (run step (new 1000 .small) startAfterRelease).admission.active).countP
          (fun lease => laneForWorkKind lease.workKind = lane) :=
  ⟨by decide, (run_leases_match_running_tasks 1000 .small startAfterRelease (by decide)).2.2⟩

end AuthoritativeRuntime

end Aegis.Runtime
