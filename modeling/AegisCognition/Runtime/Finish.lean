import AegisCognition.Runtime.Move
import AegisCognition.Runtime.Submission

/-!
# Finishing a lease

A token that passes inspection names an active lease. The task of the lease runs, and its lane
counts it, so finishing has nothing left to fail on: it succeeds exactly for the tokens that pass.

What a finished token named is gone. It comes back only if the id of its lease is issued again,
and the counter of the controller issues one id more than once: the largest one, where it stops.
-/

namespace Aegis.Runtime

open Std Foundation Resource Aegis.Task AdmissionController OrderedMap TaskLedger List ExtTreeMap
open ExecutionLaneRegistry

namespace AuthoritativeRuntime

variable {runtime next base : AuthoritativeRuntime} {request : ResourceRequest} {nowMs : Nat}
variable {card : TaskCard} {ledger : TaskLedger} {token : ResourceLeaseToken}
variable {lease : ResourceLease} {leaseId : Nat}

/-- Every lane counts at least the leases of its work kinds, and every active lease has an id that
was issued. A lease whose id is issued again is replaced, and its lane goes on counting it. -/
structure Backed (runtime : AuthoritativeRuntime) : Prop where
  counted : ∀ lane, runtime.laneLoad lane ≤ runtime.lanes.activeOn lane
  issued : ∀ (leaseId : Nat) (lease : ResourceLease),
    runtime.admission.active[leaseId]? = some lease →
    leaseId < runtime.admission.nextLeaseId ∨ leaseId = u128Max
  bounded : runtime.admission.nextLeaseId ≤ u128Max

theorem backed_new (deadlineHorizonMs : Nat) (profile : HardwareProfile) :
    Backed (new deadlineHorizonMs profile) where
  counted := by
    intro lane
    simp [laneLoad, new, fromHardware, AdmissionController.new]
  issued := by simp [new, fromHardware, AdmissionController.new]
  bounded := by
    change 1 ≤ u128Max
    decide

theorem laneLoad_erase (active : runtime.admission.active[leaseId]? = some lease)
    (lane : ExecutionLane) :
    runtime.laneLoad lane =
      (valueList (runtime.admission.active.erase leaseId)).countP
        (fun lease => laneForWorkKind lease.workKind = lane) +
        if laneForWorkKind lease.workKind = lane then 1 else 0 := by
  unfold laneLoad
  rw [(valueList_erase_perm active).countP_eq, countP_cons]
  simp

/-- A started attempt adds one to the load of its lane, unless its lease replaces another one. -/
theorem laneLoad_started_le (runtime : AuthoritativeRuntime) (request : ResourceRequest)
    (nowMs : Nat) (ledger : TaskLedger) (limit : LaneLimit) (lane : ExecutionLane) :
    (runtime.withStarted request nowMs ledger limit).laneLoad lane ≤
      runtime.laneLoad lane + if laneForWorkKind request.workKind = lane then 1 else 0 := by
  have added : (runtime.withStarted request nowMs ledger limit).admission.active[
      runtime.admission.nextLeaseId]? = some (runtime.admission.issueLease request nowMs) :=
    getElem?_insert_self
  have started := laneLoad_erase added lane
  have rest : (valueList
      (runtime.admission.active.erase runtime.admission.nextLeaseId)).countP
        (fun lease => laneForWorkKind lease.workKind = lane) ≤ runtime.laneLoad lane := by
    cases held : runtime.admission.active[runtime.admission.nextLeaseId]? with
    | none =>
        rw [erase_of_absent held]
        exact le_rfl
    | some lease =>
        rw [laneLoad_erase held lane]
        exact Nat.le_add_right _ _
  change _ = (valueList ((runtime.admission.active.insert runtime.admission.nextLeaseId
    (runtime.admission.issueLease request nowMs)).erase runtime.admission.nextLeaseId)).countP _ +
    _ at started
  rw [started, erase_insert]
  exact Nat.add_le_add_right rest _

namespace Backed

/-- Only the leases, their ids and the lanes matter. -/
theorem of_eq (h : Backed runtime) (lanes : next.lanes = runtime.lanes)
    (active : next.admission.active = runtime.admission.active)
    (nextLeaseId : next.admission.nextLeaseId = runtime.admission.nextLeaseId) : Backed next := by
  obtain ⟨counted, issued, bounded⟩ := h
  constructor <;> simp only [laneLoad, lanes, active, nextLeaseId] <;> assumption

theorem of_offer (h : Backed runtime) (offer : Offer runtime request base) : Backed base := by
  refine h.of_eq ?_ offer.active_eq offer.nextLeaseId_eq
  cases offer <;> rfl

theorem withStarted (h : Backed runtime) {limit : LaneLimit}
    (found : runtime.lanes.lanes[laneForWorkKind request.workKind]? = some limit) :
    Backed (runtime.withStarted request nowMs ledger limit) := by
  refine ⟨fun lane => ?_, fun leaseId lease active => ?_, saturatingAdd_le⟩
  · refine (runtime.laneLoad_started_le request nowMs ledger limit lane).trans ?_
    have counted := h.counted lane
    unfold activeOn at counted ⊢
    by_cases same : laneForWorkKind request.workKind = lane
    · subst same
      rw [found] at counted
      simp only [AuthoritativeRuntime.withStarted, setActive,
        getElem?_insert_self, if_true]
      exact Nat.add_le_add_right counted 1
    · rwa [if_neg same, Nat.add_zero, AuthoritativeRuntime.withStarted, setActive_of_ne same]
  · have bounded := h.bounded
    change leaseId < saturatingAdd u128Max runtime.admission.nextLeaseId 1 ∨ _
    unfold saturatingAdd
    obtain ⟨rfl, -⟩ | ⟨-, active⟩ := getElem?_insert_eq_some_iff.mp active
    · omega
    · have issued := h.issued leaseId lease active
      omega

theorem releases (h : Backed runtime) (step : Releases runtime next) : Backed next := by
  obtain ⟨leaseId, lease, limit, card, settled, ledger, active, found, positive, -, -, -⟩ := step
  refine ⟨fun lane => ?_, fun otherId other held => ?_, h.bounded⟩
  · have counted := h.counted lane
    rw [laneLoad_erase active lane] at counted
    change (valueList (runtime.admission.active.erase leaseId)).countP _ ≤ _
    unfold activeOn at counted ⊢
    by_cases same : laneForWorkKind lease.workKind = lane
    · subst same
      rw [found, if_pos rfl] at counted
      simp only [withReleased, setActive, getElem?_insert_self]
      exact Nat.le_sub_of_add_le counted
    · rw [if_neg same, Nat.add_zero] at counted
      rwa [withReleased, setActive_of_ne same]
  · exact h.issued otherId other (getElem?_erase_eq_some_iff.mp held).2

theorem move (h : Backed runtime) {event : Option Happening}
    (moved : Move nowMs runtime event next) : Backed next := by
  cases moved with
  | filed => exact h.of_eq rfl rfl rfl
  | kept pending => exact h.of_eq rfl rfl rfl
  | dropped request rest queue => exact h.of_offer (.front rest queue)
  | timedOut request rest card ledger queue =>
      exact (h.of_offer (.front rest queue)).of_eq rfl rfl rfl
  | queued request base card attemptKind offer => exact (h.of_offer offer).of_eq rfl rfl rfl
  | started request base card attemptKind ledger limit offer found waiting due valid replaced
      counted => exact (h.of_offer offer).withStarted counted
  | released token lease next inspected releases => exact h.releases releases.releases
  | withdrawn => exact h.of_eq rfl rfl rfl
  | observed sample => exact h.of_eq rfl rfl rfl

end Backed

theorem run_backed (deadlineHorizonMs : Nat) (profile : HardwareProfile) (ops : List RuntimeOp) :
    Backed (run step (new deadlineHorizonMs profile) ops) :=
  (run_keeps_of_moves (fun _ _ _ _ h moved => h.move moved)
    (consistent_new deadlineHorizonMs profile) (backed_new deadlineHorizonMs profile) ops).2

section Release

variable {outcome : RuntimeOutcome} {target : TaskStatus}

theorem Backed.canRelease (h : Backed runtime)
    (active : runtime.admission.active[leaseId]? = some lease) :
    runtime.lanes.canRelease (laneForWorkKind lease.workKind) = true := by
  have counted := h.counted (laneForWorkKind lease.workKind)
  rw [laneLoad_erase active, if_pos rfl] at counted
  unfold ExecutionLaneRegistry.activeOn at counted
  unfold ExecutionLaneRegistry.canRelease
  cases found : runtime.lanes.lanes[laneForWorkKind lease.workKind]? with
  | none =>
      rw [found] at counted
      exact absurd counted (Nat.not_succ_le_zero _)
  | some limit =>
      rw [found] at counted
      simp only [Option.any_some, decide_eq_true_eq]
      exact Nat.lt_of_lt_of_le (Nat.succ_pos _) counted

theorem releaseAndTransition_of_final (inspected : runtime.admission.inspectToken token = .ok lease)
    (releasable : runtime.lanes.canRelease (laneForWorkKind lease.workKind) = true)
    (found : runtime.ledger.task lease.taskId = some card)
    (allowed : card.status = target ∨ card.status.canTransitionTo target = true) :
    (runtime.releaseAndTransition token target none).1 = .ok () := by
  have valid : runtime.ledger.validateStatusTransition lease.taskId target = .ok () := by
    simp only [validateStatusTransition, found]
    exact if_pos allowed
  obtain ⟨limit, -, -, released⟩ := release_of_canRelease releasable
  obtain ⟨ledger, moved, -⟩ := transitionStatus_of_allowed found allowed
  simp only [releaseAndTransition, inspected, valid, releasable, Bool.true_eq_false, if_false,
    releaseFenced_of_inspect inspected, released, moved]
  rfl

theorem releaseAndTransition_of_retry {notBeforeMs : Nat} (positive : 0 < notBeforeMs)
    (inspected : runtime.admission.inspectToken token = .ok lease)
    (releasable : runtime.lanes.canRelease (laneForWorkKind lease.workKind) = true)
    (found : runtime.ledger.task lease.taskId = some card)
    (valid : runtime.ledger.validateRetryWait lease.taskId notBeforeMs = .ok ()) :
    (runtime.releaseAndTransition token target (some notBeforeMs)).1 = .ok () := by
  obtain ⟨limit, -, -, released⟩ := release_of_canRelease releasable
  obtain ⟨ledger, moved, -⟩ := scheduleRetryWait_of_valid positive valid found
  simp only [releaseAndTransition, inspected, valid, releasable, Bool.true_eq_false, if_false,
    releaseFenced_of_inspect inspected, released, moved]
  rfl

theorem cancelAndRelease_of_running (inspected : runtime.admission.inspectToken token = .ok lease)
    (releasable : runtime.lanes.canRelease (laneForWorkKind lease.workKind) = true)
    (found : runtime.ledger.task lease.taskId = some card) (running : card.status = .running) :
    (runtime.cancelAndRelease token).1 = .ok () := by
  have allowed : card.status = .cancelling ∨ card.status.canTransitionTo .cancelling = true :=
    .inr (by rw [running]; rfl)
  have valid : runtime.ledger.validateStatusTransition lease.taskId .cancelling = .ok () := by
    simp only [validateStatusTransition, found]
    exact if_pos allowed
  obtain ⟨limit, -, -, released⟩ := release_of_canRelease releasable
  obtain ⟨middle, cancelling, between⟩ := transitionStatus_of_allowed found allowed
  obtain ⟨ledger, cancelled, -⟩ := transitionStatus_of_allowed between.task_self
    (.inr (by simp; rfl) :
      _ ∨ (card.withStatus .cancelling).status.canTransitionTo .cancelled = true)
  simp only [cancelAndRelease, inspected, valid, releasable, Bool.true_eq_false, if_false,
    releaseFenced_of_inspect inspected, released, cancelling, cancelled]
  rfl

/-- A start time for the next attempt passes the checks of the ledger. -/
theorem validateRetryWait_of_retryStart {dueMs : Nat}
    (found : runtime.ledger.task lease.taskId = some card) (running : card.status = .running)
    (starts : runtime.retryStart card lease.taskId nowMs = some dueMs) :
    0 < dueMs ∧ runtime.ledger.validateRetryWait lease.taskId dueMs = .ok () := by
  obtain ⟨task, delay, found', delayed, rfl⟩ := retryStart_eq starts
  obtain rfl := Option.some.inj (found.symm.trans found')
  obtain ⟨-, early⟩ := Option.filter_eq_some_iff.mp starts
  have positive := RetryPolicy.delayAfter_pos delayed
  refine ⟨by omega, ?_⟩
  rw [Bool.not_eq_true'] at early
  simp [validateRetryWait, found, running, delayed, early, TaskStatus.canTransitionTo]

/-- Finishing succeeds exactly for the tokens that pass inspection. -/
theorem Backed.finishAt_ok_iff (h : Backed runtime) (consistent : Consistent runtime)
    (token : ResourceLeaseToken) (outcome : RuntimeOutcome) (nowMs : Nat) :
    (runtime.finishAt token outcome nowMs).1 = .ok () ↔
      ∃ lease, runtime.admission.inspectToken token = .ok lease := by
  cases inspected : runtime.admission.inspectToken token with
  | error error =>
      refine iff_of_false ?_ nofun
      cases outcome <;> simp [finishAt, settle, cancelAndRelease, inspected]
  | ok lease =>
      refine iff_of_true ?_ ⟨lease, rfl⟩
      have active := (inspectToken_ok inspected).1
      have releasable := h.canRelease active
      obtain ⟨card, found, running, -⟩ := consistent.holder _ _ active
      have ends : ∀ target ∈ [TaskStatus.done, .failed, .timedOut],
          (runtime.releaseAndTransition token target none).1 = .ok () := by
        intro target final
        refine releaseAndTransition_of_final inspected releasable found (.inr ?_)
        rw [running]
        simp only [mem_cons, not_mem_nil, or_false] at final
        obtain rfl | rfl | rfl := final <;> rfl
      have settles : ∀ outcome, (runtime.settle token nowMs outcome).1 = .ok () := by
        intro outcome
        cases outcome with
        | cancelled => exact cancelAndRelease_of_running inspected releasable found running
        | done => exact ends _ (by simp)
        | failed => exact ends _ (by simp)
        | timedOut => exact ends _ (by simp)
        | retryWait =>
            simp only [settle, inspected, found]
            cases starts : runtime.retryStart card lease.taskId nowMs with
            | none => exact ends _ (by simp)
            | some dueMs =>
                obtain ⟨positive, valid⟩ := validateRetryWait_of_retryStart found running starts
                exact releaseAndTransition_of_retry positive inspected releasable found valid
      unfold finishAt
      split
      · exact settles outcome
      · simp only [inspected]
        exact settles _

end Release

section Spent

/-- The id was issued to a lease that is gone, and is not one to be issued again. -/
structure Spent (leaseId : Nat) (runtime : AuthoritativeRuntime) : Prop where
  issued : leaseId < runtime.admission.nextLeaseId
  below : leaseId < u128Max
  gone : runtime.admission.active[leaseId]? = none

namespace Spent

section

variable (h : Spent leaseId runtime)
include h

theorem of_eq (active : next.admission.active = runtime.admission.active)
    (nextLeaseId : next.admission.nextLeaseId = runtime.admission.nextLeaseId) :
    Spent leaseId next := by
  obtain ⟨issued, below, gone⟩ := h
  exact ⟨nextLeaseId ▸ issued, below, active ▸ gone⟩

theorem of_offer (offer : Offer runtime request base) :
    Spent leaseId base :=
  h.of_eq offer.active_eq offer.nextLeaseId_eq

theorem withStarted (limit : LaneLimit) :
    Spent leaseId (runtime.withStarted request nowMs ledger limit) := by
  obtain ⟨issued, below, gone⟩ := h
  refine ⟨?_, below, ?_⟩
  · change leaseId < saturatingAdd u128Max runtime.admission.nextLeaseId 1
    unfold saturatingAdd
    omega
  · exact (getElem?_insert_of_ne issued.ne').trans gone

theorem releases (step : Releases runtime next) :
    Spent leaseId next := by
  obtain ⟨issued, below, gone⟩ := h
  obtain ⟨otherId, lease, limit, card, settled, ledger, active, -⟩ := step
  refine ⟨issued, below, (getElem?_erase_of_ne ?_).trans gone⟩
  rintro rfl
  rw [gone] at active
  cases active

theorem move {event : Option Happening}
    (moved : Move nowMs runtime event next) : Spent leaseId next := by
  cases moved with
  | filed => exact h.of_eq rfl rfl
  | kept pending => exact h.of_eq rfl rfl
  | dropped request rest queue => exact h.of_offer (.front rest queue)
  | timedOut request rest card ledger queue =>
      exact (h.of_offer (.front rest queue)).of_eq rfl rfl
  | queued request base card attemptKind offer => exact (h.of_offer offer).of_eq rfl rfl
  | started request base card attemptKind ledger limit offer =>
      exact (h.of_offer offer).withStarted limit
  | released token lease next inspected releases => exact h.releases releases.releases
  | withdrawn => exact h.of_eq rfl rfl
  | observed sample => exact h.of_eq rfl rfl

/-- A spent id stays spent, whatever is called. -/
theorem run (consistent : Consistent runtime) (ops : List RuntimeOp) :
    Spent leaseId (run step runtime ops) :=
  (run_keeps_of_moves (fun _ _ _ _ h moved => h.move moved) consistent h ops).2

end

theorem inspectToken_error (h : Spent token.leaseId runtime) :
    ∃ error, runtime.admission.inspectToken token = .error error := by
  unfold inspectToken
  split
  · exact ⟨_, rfl⟩
  · simp only [h.gone]
    exact ⟨_, rfl⟩

end Spent

/-- The lease of a finished token is gone. -/
theorem Backed.spent (h : Backed runtime) (released : ReleasesBy runtime token nowMs next)
    (below : token.leaseId < u128Max) : Spent token.leaseId next := by
  obtain ⟨lease, limit, card, settled, ledger, inspected, -⟩ := released
  obtain issued | same := h.issued _ _ (inspectToken_ok inspected).1
  · exact ⟨issued, below, getElem?_erase_self⟩
  · exact absurd same below.ne

end Spent

/-- In every state that operations reach, a token finishes exactly if it passes inspection, and
then gives its lease back; a failure changes nothing. Unless its lease has the largest id, a
finished token is refused for ever after. -/
theorem run_finish_iff (deadlineHorizonMs : Nat) (profile : HardwareProfile)
    (ops : List RuntimeOp) (token : ResourceLeaseToken) (outcome : RuntimeOutcome) (nowMs : Nat) :
    let runtime := run step (new deadlineHorizonMs profile) ops
    let finished := runtime.finishAt token outcome nowMs
    (finished.1 = .ok () ↔ ∃ lease, runtime.admission.inspectToken token = .ok lease) ∧
    (finished.1 = .ok () → ReleasesBy runtime token nowMs finished.2) ∧
    (∀ error, finished.1 = .error error → finished.2 = runtime) ∧
    (finished.1 = .ok () → token.leaseId < u128Max → ∀ later outcome' nowMs',
      ((run step finished.2 later).finishAt token outcome' nowMs').1 ≠ .ok ()) := by
  intro runtime finished
  have consistent : Consistent runtime := run_consistent deadlineHorizonMs profile ops
  have backed : Backed runtime := run_backed deadlineHorizonMs profile ops
  obtain ⟨error, he⟩ | ⟨next, he, released⟩ := runtime.finishAt_releases token outcome nowMs
  · have failed : finished = (.error error, runtime) := he
    refine ⟨backed.finishAt_ok_iff consistent token outcome nowMs, ?_, ?_, ?_⟩ <;> rw [failed]
    · exact fun ok => nomatch ok
    · exact fun _ _ => rfl
    · exact fun ok => nomatch ok
  · have done : finished = (.ok (), next) := he
    refine ⟨backed.finishAt_ok_iff consistent token outcome nowMs, ?_, ?_, ?_⟩ <;> rw [done]
    · exact fun _ => released
    · exact fun _ failed => nomatch failed
    · intro _ below later outcome' nowMs' again
      have settled : Consistent next := consistent.releases released.releases
      have later' : Consistent (run step next later) :=
        run_invariant (fun _ op h => h.step op) later settled
      have spent := (backed.spent released below).run settled later
      obtain ⟨error, refused⟩ := spent.inspectToken_error
      obtain ⟨error', he⟩ | ⟨_, _, released'⟩ :=
        (run step next later).finishAt_releases token outcome' nowMs'
      · rw [he] at again
        cases again
      · obtain ⟨lease, limit, card, settled, ledger, inspected, -⟩ := released'
        rw [refused] at inspected
        cases inspected

section Exhaustion

/-- The token of the lease that is the `issued`-th one of a controller. -/
def tokenOf (issued attemptId : Nat) : ResourceLeaseToken :=
  ⟨leaseTokenSchemaV1, min issued u128Max, min issued u64Max, attemptId⟩

def submitMinimal (taskId : Nat) : RuntimeOp :=
  .submit (.new taskId [] 0 none none) (.minimal taskId .nativeTask) 0

/-- One task that runs two attempts, then one more task for each lease. -/
def busyRun (leases : Nat) : List RuntimeOp :=
  [submitMinimal 1, .finish (tokenOf 1 1) .retryWait 0,
    .retry 1 { ResourceRequest.minimal 1 .nativeTask with attemptId := 2 } 2000,
    .finish (tokenOf 2 2) .done 2000] ++
  (List.range leases).flatMap fun before =>
    [submitMinimal (before + 2), .finish (tokenOf (before + 3) 1) .done 0]

/-- A small host at rest: `issued` leases have been given back, and no task after `last` is
known. -/
structure Resting (issued last : Nat) (runtime : AuthoritativeRuntime) : Prop where
  consistent : Consistent runtime
  backed : Backed runtime
  nextLeaseId : runtime.admission.nextLeaseId = min (issued + 1) u128Max
  generation : runtime.admission.generation = min issued u64Max
  capacity : runtime.admission.capacity = (fromHardware .small).capacity
  used : runtime.admission.used = .zero
  calm : runtime.admission.memoryPressureState = .normal
  lane : runtime.lanes.lanes[ExecutionLane.cpu]? = some ⟨2, 0⟩
  policy : runtime.ledger.retryPolicy = .standard
  unknown : ∀ taskId, last < taskId → runtime.ledger.task taskId = none

variable {issued last taskId : Nat}

theorem Resting.of_busy : Resting 2 1 (run step (new 1000 .small) (busyRun 0)) where
  consistent := run_consistent _ _ _
  backed := run_backed _ _ _
  nextLeaseId := by decide
  generation := by decide
  capacity := by decide
  used := by decide
  calm := by decide
  lane := by decide
  policy := by decide
  unknown := by
    intro taskId later
    have known : ∀ entry ∈
        (run step (new 1000 .small) (busyRun 0)).ledger.tasks.toList, entry.1 ≤ 1 := by decide
    cases found : (run step (new 1000 .small) (busyRun 0)).ledger.task taskId with
    | none => rfl
    | some card =>
        exact absurd (known (taskId, card) (mem_toList_iff_getElem?_eq_some.mpr found))
          (Nat.not_le_of_lt later)

theorem minimal_valid (positive : taskId ≠ 0) :
    (ResourceRequest.minimal taskId .nativeTask).validate 0 = .ok () := by
  simp [ResourceRequest.validate, ResourceRequest.minimal, positive]

/-- A resting host starts the next task at once, and the task can be finished. -/
theorem Resting.starts (h : Resting issued last runtime) (unknown : last < taskId) :
    ∃ filed ledger, step runtime (submitMinimal taskId) =
      (runtime.withLedger filed).withStarted (.minimal taskId .nativeTask) 0 ledger ⟨2, 0⟩ ∧
      filed.retryPolicy = .standard ∧ ledger.retryPolicy = .standard ∧
      ∀ other, taskId < other → ledger.task other = none := by
  have positive : taskId ≠ 0 := Nat.ne_zero_of_lt unknown
  have files : Files runtime (.new taskId [] 0 none none) (.minimal taskId .nativeTask) := by
    refine ⟨rfl, rfl, rfl, ?_⟩
    simp [insertTask, TaskCard.new, positive, h.policy, RetryPolicy.standard,
      h.unknown taskId unknown]
  obtain ⟨filed, submitted, replaced, fresh⟩ := submit_of_files files 0
  obtain ⟨unqueued, passes⟩ := h.consistent.submitted files replaced fresh 0
  have startable : Startable (runtime.withLedger filed) (.minimal taskId .nativeTask) 0 := by
    refine ⟨?_, minimal_valid positive, ?_, ?_, ?_⟩
    · change runtime.lanes.hasRoom .cpu = true
      simp [hasRoom, h.lane]
    · simp [acceleratorDenial, ResourceRequest.minimal]
    · simp [AdmissionController.deferred, withLedger, h.calm]
    · change (GrantedResources.fromRequest (.minimal taskId .nativeTask)).fitsWithin
        runtime.admission.capacity runtime.admission.used = true
      rw [h.capacity, h.used]
      rfl
  obtain ⟨outcome, -, -, refused⟩ | ⟨outcome, -, -, blocked, -⟩ |
    ⟨position, reason, card, -, -, -, blocked, -⟩ |
    ⟨card, ledger, limit, admitted, -, -, started, counted, -⟩ :=
    admitExisting_cases unqueued 0 .initial
  · rw [passes] at refused
    cases refused
  · exact absurd startable blocked
  · exact absurd startable blocked
  · have limit_eq : limit = ⟨2, 0⟩ := Option.some.inj (counted.symm.trans h.lane)
    subst limit_eq
    have policy : filed.retryPolicy = .standard := replaced.retryPolicy.trans h.policy
    refine ⟨filed, ledger, ?_, policy, started.retryPolicy.trans policy, fun other later => ?_⟩
    · change (runtime.submit (.new taskId [] 0 none none) (.minimal taskId .nativeTask) 0).2 = _
      rw [submitted, admitted]
      rfl
    · rw [started.task_of_ne later.ne]
      exact (replaced.task_of_ne later.ne).trans (h.unknown other (unknown.trans later))

theorem Resting.inspected (h : Resting issued last runtime) (taskId : Nat)
    (filed ledger : TaskLedger) :
    ((runtime.withLedger filed).withStarted (.minimal taskId .nativeTask) 0 ledger
        ⟨2, 0⟩).admission.inspectToken (tokenOf (issued + 1) 1) =
      .ok (runtime.admission.issueLease (.minimal taskId .nativeTask) 0) := by
  have id : min (issued + 1) u128Max = runtime.admission.nextLeaseId := h.nextLeaseId.symm
  have generation : saturatingAdd u64Max runtime.admission.generation 1 =
      min (issued + 1) u64Max := by
    rw [h.generation, saturatingAdd]
    omega
  have large : 0 < u128Max ∧ 0 < u64Max := by decide
  have positive : min (issued + 1) u128Max ≠ 0 ∧ min (issued + 1) u64Max ≠ 0 := by omega
  have held : ((runtime.withLedger filed).withStarted (.minimal taskId .nativeTask) 0 ledger
      ⟨2, 0⟩).admission.active[min (issued + 1) u128Max]? =
      some (runtime.admission.issueLease (.minimal taskId .nativeTask) 0) := by
    rw [id]
    exact getElem?_insert_self
  simp only [inspectToken, tokenOf, held, positive, ne_eq, not_true_eq_false, or_self, if_false]
  exact if_neg (by simp [issueLease, generation, ResourceRequest.minimal])

/-- A resting host that has run one more task rests again. -/
theorem Resting.finished (h : Resting issued last runtime) (unknown : last < taskId) :
    ((step runtime (submitMinimal taskId)).finishAt (tokenOf (issued + 1) 1) .done 0).1 = .ok () ∧
      Resting (issued + 1) taskId
        ((step runtime (submitMinimal taskId)).finishAt (tokenOf (issued + 1) 1) .done 0).2 := by
  obtain ⟨filed, ledger, started, policy, policy', unknown'⟩ := h.starts unknown
  obtain ⟨consistent, backed⟩ := run_keeps_of_moves (fun _ _ _ _ h moved => Backed.move h moved)
    h.consistent h.backed [submitMinimal taskId]
  rw [run_cons, run_nil] at consistent backed
  have inspected := h.inspected taskId filed ledger
  rw [← started] at inspected
  have ok := (backed.finishAt_ok_iff consistent _ .done 0).mpr ⟨_, inspected⟩
  refine ⟨ok, ?_⟩
  obtain ⟨error, he⟩ | ⟨next, he, released⟩ :=
    (step runtime (submitMinimal taskId)).finishAt_releases (tokenOf (issued + 1) 1) .done 0
  · rw [he] at ok
    cases ok
  · rw [he]
    have rests := consistent.releases released.releases
    have backs := backed.releases released.releases
    obtain ⟨lease, limit, card, settled, last', inspected', counted, positive, found, settles, -,
      replaced⟩ := released
    obtain rfl := Except.ok.inj (inspected.symm.trans inspected')
    have limit_eq : limit = ⟨2, 1⟩ := by
      rw [started] at counted
      exact Option.some.inj (counted.symm.trans getElem?_insert_self)
    subst limit_eq
    rw [started] at rests backs replaced ⊢
    refine ⟨rests, backs, ?_, ?_, h.capacity, ?_, h.calm, ?_, replaced.retryPolicy.trans policy',
      fun other later => ?_⟩
    · change saturatingAdd u128Max runtime.admission.nextLeaseId 1 = _
      rw [h.nextLeaseId, saturatingAdd]
      omega
    · change saturatingAdd u64Max runtime.admission.generation 1 = _
      rw [h.generation, saturatingAdd]
      omega
    · change subtractResources (addResources runtime.admission.used _) _ = _
      rw [h.used]
      -- What a minimal request is granted does not depend on its task.
      change subtractResources (addResources .zero (.fromRequest (.minimal 1 .nativeTask)))
        (.fromRequest (.minimal 1 .nativeTask)) = .zero
      decide
    · exact getElem?_insert_self
    · exact (replaced.task_of_ne later.ne).trans (unknown' other later)

theorem resting_busyRun (leases : Nat) :
    Resting (leases + 2) (leases + 1) (run step (new 1000 .small) (busyRun leases)) := by
  induction leases with
  | zero => exact .of_busy
  | succ leases ih =>
      have next := (ih.finished (Nat.lt_succ_self (leases + 1))).2
      rw [busyRun, range_succ, flatMap_append, ← append_assoc, run_append]
      exact next

/-- Where the counter of lease ids has stopped, two tasks in a row get the same token. -/
theorem Resting.finish_twice (h : Resting issued last runtime) (stopped : u128Max ≤ issued + 1)
    {first second : Nat} (unknown : last < first) (later : first < second) :
    ((step runtime (submitMinimal first)).finishAt (tokenOf (issued + 1) 1) .done 0).1 = .ok () ∧
      ((step ((step runtime (submitMinimal first)).finishAt (tokenOf (issued + 1) 1) .done 0).2
        (submitMinimal second)).finishAt (tokenOf (issued + 1) 1) .done 0).1 = .ok () := by
  have large : u64Max ≤ u128Max := by decide
  have same : tokenOf (issued + 1 + 1) 1 = tokenOf (issued + 1) 1 := by
    simp only [tokenOf, ResourceLeaseToken.mk.injEq, and_true, true_and]
    omega
  obtain ⟨ok, between⟩ := h.finished unknown
  have again := (between.finished later).1
  rw [same] at again
  exact ⟨ok, again⟩

/-- The largest lease id is issued twice, and its token finishes both leases. -/
theorem exhaustedIds_finish_twice :
    ((run step (new 1000 .small) (busyRun (2 ^ 128 - 4) ++
      [submitMinimal (2 ^ 128 - 2)])).finishAt (tokenOf (2 ^ 128 - 1) 1) .done 0).1 = .ok () ∧
    ((run step ((run step (new 1000 .small) (busyRun (2 ^ 128 - 4) ++
      [submitMinimal (2 ^ 128 - 2)])).finishAt (tokenOf (2 ^ 128 - 1) 1) .done 0).2
        [submitMinimal (2 ^ 128 - 1)]).finishAt (tokenOf (2 ^ 128 - 1) 1) .done 0).1 = .ok () := by
  have number : 2 ^ 128 - 4 + 2 + 1 = 2 ^ 128 - 1 := by omega
  have stopped : u128Max ≤ 2 ^ 128 - 4 + 2 + 1 := Nat.le_of_eq number.symm
  have first : 2 ^ 128 - 4 + 1 < 2 ^ 128 - 2 := by omega
  have second : 2 ^ 128 - 2 < 2 ^ 128 - 1 := by omega
  have twice := (resting_busyRun (2 ^ 128 - 4)).finish_twice stopped first second
  rw [number] at twice
  rw [run_append, run_cons, run_nil, run_cons, run_nil]
  exact twice

end Exhaustion

end AuthoritativeRuntime

end Aegis.Runtime
