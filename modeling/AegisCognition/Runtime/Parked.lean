import AegisCognition.Runtime.Lease

/-!
# Admissions kept for their owners

A poll hands the caller the admission of its own attempt and parks the admissions of all others
until their owners poll. The token in a parked admission is that of an active lease, as long as
nobody gives the lease back in the meantime: neither a call to `finish` with the parked token nor
the reaper. In runs where this is respected, every token that a poll returns is live.
-/

namespace Aegis.Runtime

open Std Foundation Resource Aegis.Task AdmissionController OrderedMap List

namespace AuthoritativeRuntime

variable {runtime next : AuthoritativeRuntime} {request : ResourceRequest}
variable {token : ResourceLeaseToken} {issued nowMs taskId attemptId : Nat}
variable {attemptKind : AttemptKind}

/-- The token is accepted. -/
def Live (runtime : AuthoritativeRuntime) (token : ResourceLeaseToken) : Prop :=
  ∃ lease, runtime.admission.inspectToken token = .ok lease

/-- An admission with the token waits for its owner. -/
def Parked (runtime : AuthoritativeRuntime) (token : ResourceLeaseToken) : Prop :=
  ∃ key : Nat × Nat, runtime.pendingAdmissions[key]? = some (.admitted token)

/-- A lease whose token is parked is not given back by the call, and the call does not exhaust
the counter of lease ids. -/
def SparesParked (runtime : AuthoritativeRuntime) (op : RuntimeOp) : Prop :=
  runtime.admission.nextLeaseId + runtime.leasesIssued op ≤ u128Max ∧
    match op with
    | .finish token _ _ => ¬ runtime.Parked token
    | .reapExpired nowMs =>
        ∀ token ∈ runtime.admission.expiredTokens nowMs, ¬ runtime.Parked token
    | _ => True

theorem live_iff : runtime.Live token ↔
    token.schema = leaseTokenSchemaV1 ∧ token.leaseId ≠ 0 ∧ token.generation ≠ 0 ∧
      ∃ lease, runtime.admission.active[token.leaseId]? = some lease ∧
        lease.generation = token.generation ∧ lease.attemptId = token.attemptId := by
  constructor
  · rintro ⟨lease, inspected⟩
    have shaped : ¬ (token.schema ≠ leaseTokenSchemaV1 ∨ token.leaseId = 0 ∨
        token.generation = 0) := by
      intro malformed
      rw [inspectToken, if_pos malformed] at inspected
      cases inspected
    simp only [not_or, ne_eq, not_not] at shaped
    exact ⟨shaped.1, shaped.2.1, shaped.2.2, lease, inspectToken_ok inspected⟩
  · rintro ⟨schema, leaseId, generation, lease, active, same, attempt⟩
    refine ⟨lease, ?_⟩
    simp [inspectToken, schema, leaseId, generation, active, same, attempt]

/-- A runtime in which every parked token is live, and whose leases are accounted for. -/
structure Keeping (issued : Nat) (runtime : AuthoritativeRuntime) : Prop where
  accounted : Accounted issued runtime
  parked : ∀ token, runtime.Parked token → runtime.Live token

/-- The tokens of the other leases stay live when a lease is issued. -/
theorem Live.started (h : runtime.Live token) (accounted : Accounted issued runtime)
    {ledger : TaskLedger} {limit : LaneLimit} :
    (runtime.withStarted request nowMs ledger limit).Live token := by
  obtain ⟨schema, leaseId, generation, lease, active, fence⟩ := live_iff.mp h
  refine live_iff.mpr ⟨schema, leaseId, generation, lease, ?_, fence⟩
  refine getElem?_insert_eq_some_iff.mpr (.inr ⟨?_, active⟩)
  exact (accounted.leaseIdLt _ _ active).ne'

theorem live_issued (accounted : Accounted issued runtime) {ledger : TaskLedger}
    {limit : LaneLimit} :
    (runtime.withStarted request nowMs ledger limit).Live
      (.fromLease (runtime.admission.issueLease request nowMs)) := by
  have positive : runtime.admission.nextLeaseId ≠ 0 := by
    rw [accounted.nextLeaseId]
    exact Nat.succ_ne_zero issued
  refine live_iff.mpr ⟨rfl, positive, ?_, runtime.admission.issueLease request nowMs,
    ExtTreeMap.getElem?_insert_self, rfl, rfl⟩
  simp only [ResourceLeaseToken.fromLease, issueLease, saturatingAdd]
  have : 0 < u64Max := by decide
  omega

/-- Giving a lease back ends its own token only. -/
theorem Live.released {other : ResourceLeaseToken} (h : runtime.Live other)
    (releases : ReleasesBy runtime token nowMs next) (distinct : other ≠ token) :
    next.Live other := by
  obtain ⟨lease, limit, card, settled, ledger, inspected, -⟩ := releases
  obtain ⟨schema', -, -, lease', active', generation', attempt'⟩ := live_iff.mp ⟨lease, inspected⟩
  obtain ⟨schema, leaseId, generation, found, active, same, attempt⟩ := live_iff.mp h
  refine live_iff.mpr ⟨schema, leaseId, generation, found, ?_, same, attempt⟩
  refine getElem?_erase_eq_some_iff.mpr ⟨fun sameId => distinct ?_, active⟩
  obtain rfl := Option.some.inj (active'.symm.trans (sameId ▸ active))
  cases other
  cases token
  simp_all

/-! ### What a call keeps -/

/-- What is parked after one part of a call was parked before it. -/
def Forgets (runtime next : AuthoritativeRuntime) : Prop :=
  ∀ (key : Nat × Nat) admission, next.pendingAdmissions[key]? = some admission →
    runtime.pendingAdmissions[key]? = some admission

theorem forgets_refl (runtime : AuthoritativeRuntime) : Forgets runtime runtime :=
  fun _ _ parked => parked

theorem Forgets.trans {last : AuthoritativeRuntime} (h : Forgets runtime next)
    (h' : Forgets next last) : Forgets runtime last :=
  fun key admission parked => h key admission (h' key admission parked)

theorem Forgets.parked (h : Forgets runtime next) (parked : next.Parked token) :
    runtime.Parked token :=
  parked.imp fun key => h key _

theorem Live.of_active (h : runtime.Live token)
    (active : next.admission.active = runtime.admission.active) : next.Live token := by
  rwa [live_iff, active, ← live_iff]

theorem Keeping.keep (h : Keeping issued runtime) {later : Nat} (accounted : Accounted later next)
    (forgets : Forgets runtime next) (live : ∀ token, runtime.Live token → next.Live token) :
    Keeping later next :=
  ⟨accounted, fun token parked => live token (h.parked token (forgets.parked parked))⟩

/-- What one part of a call does: tokens stay live, and what it admits is live. -/
structure Preserves (runtime next : AuthoritativeRuntime) (admitted : ResourceLeaseToken → Prop) :
    Prop where
  live : ∀ token, runtime.Live token → next.Live token
  pending : next.pendingAdmissions = runtime.pendingAdmissions
  fresh : ∀ token, admitted token → next.Live token

theorem Preserves.of_eq {admitted : ResourceLeaseToken → Prop}
    (active : next.admission.active = runtime.admission.active)
    (pending : next.pendingAdmissions = runtime.pendingAdmissions)
    (none_admitted : ∀ token, ¬ admitted token) : Preserves runtime next admitted where
  live := fun _ live => live.of_active active
  pending := pending
  fresh := fun token h => absurd h (none_admitted token)

theorem Preserves.forgets {admitted : ResourceLeaseToken → Prop}
    (h : Preserves runtime next admitted) : Forgets runtime next := by
  intro key admission parked
  rwa [← h.pending]

theorem admitExisting_preserves (accounted : Accounted issued runtime)
    (fresh : request.key ∉ runtime.admission.queuedAttempts) (nowMs : Nat)
    (attemptKind : AttemptKind) :
    Preserves runtime (runtime.admitExisting request nowMs attemptKind).2 fun token =>
      (runtime.admitExisting request nowMs attemptKind).1 = some (.ok (.admitted token)) := by
  obtain ⟨outcome, he, declined, -⟩ | ⟨outcome, he, declined, -⟩ | ⟨position, reason, card, he,
    -⟩ | ⟨card, ledger, limit, he, -⟩ := admitExisting_cases fresh nowMs attemptKind
  · rw [he]
    exact .of_eq rfl rfl fun token h => by cases declined <;> cases h
  · rw [he]
    exact .of_eq rfl rfl fun token h => by cases declined <;> cases h
  · rw [he]
    exact .of_eq rfl rfl fun token h => by cases h
  · rw [he]
    refine ⟨fun token live => live.started accounted, rfl, fun token h => ?_⟩
    cases h
    exact live_issued accounted

/-- The tokens in what an iteration of a drain yields. -/
def yielded : DrainProgress → ResourceLeaseToken → Prop
  | .yield result _, token => result.admission = .admitted token
  | _, _ => False

theorem yielded_readmitFront
    (h : yielded (runtime.readmitFront request nowMs attemptKind).1 token) :
    (runtime.dropFront.admitExisting request nowMs attemptKind).1 =
      some (.ok (.admitted token)) := by
  unfold readmitFront at h
  split at h
  · cases h
  · rename_i outcome next he
    rw [he]
    cases outcome with
    | error error => cases h
    | ok admission =>
        obtain rfl : admission = .admitted token := h
        rfl

theorem drainOnce_preserves (accounted : Accounted issued runtime) (nowMs : Nat) :
    Preserves runtime (runtime.drainOnce nowMs).2 (yielded (runtime.drainOnce nowMs).1) := by
  obtain he | ⟨request, rest, card, attemptKind, queue, found, waiting, hmove⟩ :=
    drainOnce_cases accounted.consistent nowMs
  · rw [he]
    exact .of_eq rfl rfl fun token h => h
  · obtain ⟨dropped, fresh, -⟩ := accounted.consistent.dropFront queue
    have front : runtime.dropFront.admission.active = runtime.admission.active := by
      rw [dropFront_eq queue]
    obtain ⟨ledger, he, -⟩ | he := hmove
    · rw [he]
      exact .of_eq front rfl fun token h => by cases h
    · have popped : Accounted issued runtime.dropFront := by
        refine accounted.of_eq dropped rfl rfl front ?_
        rw [dropFront_eq queue]
      have first : Preserves runtime runtime.dropFront fun _ => False :=
        .of_eq front rfl fun _ => id
      have second := admitExisting_preserves popped fresh nowMs attemptKind
      rw [he, readmitFront_state]
      exact ⟨fun token live => second.live token (first.live token live),
        second.pending.trans first.pending,
        fun token h => second.fresh token (yielded_readmitFront h)⟩

/-- Every token among the results of a drain is live when the drain ends. -/
theorem drainLoop_preserves (accounted : Accounted issued runtime) (nowMs remaining : Nat)
    (room : issued + resultsIssued (drainLoop nowMs remaining runtime).1 < u128Max) :
    Preserves runtime (drainLoop nowMs remaining runtime).2 fun token =>
      ∃ results, (drainLoop nowMs remaining runtime).1 = some results ∧
        ∃ result ∈ results, result.admission = .admitted token := by
  induction remaining generalizing runtime issued with
  | zero =>
      refine .of_eq rfl rfl ?_
      rintro token ⟨results, same, result, mem, -⟩
      cases same
      cases mem
  | succ remaining ih =>
      have first := drainOnce_preserves accounted nowMs
      have next := accounted.drainOnce nowMs
      obtain ⟨consistent, calm⟩ := accounted.consistent.drainOnce nowMs
      simp only [drainLoop] at room ⊢
      split at room <;> rename_i he <;> simp only [he] at first next calm consistent ⊢
      · refine ⟨first.live, first.pending, ?_⟩
        rintro token ⟨results, same, result, mem, -⟩
        cases same
        cases mem
      · exact absurd rfl calm
      · refine ⟨first.live, first.pending, ?_⟩
        rintro token ⟨results, same, result, mem, admitted⟩
        cases same
        obtain rfl := mem_singleton.mp mem
        exact first.fresh token admitted
      · rename_i result last
        have returned := (consistent.drainLoop nowMs remaining).2
        rw [resultsIssued_cons returned result true, ← Nat.add_assoc] at room
        have rest := ih (next (by omega)) room
        refine ⟨fun token live => rest.live token (first.live token live),
          rest.pending.trans first.pending, ?_⟩
        rintro token ⟨results, same, result', mem, admitted⟩
        obtain ⟨more, later, rfl⟩ := Option.map_eq_some_iff.mp same
        obtain rfl | mem := mem_cons.mp mem
        · exact rest.live token (first.fresh token admitted)
        · exact rest.fresh token ⟨more, later, result', mem, admitted⟩

/-- What is handed over, and what is parked, was parked before or is a result of the drain. -/
theorem deliver_fold_forall {P : RuntimeAdmission → Prop} (key : Nat × Nat)
    (results : List QueuedRuntimeAdmission)
    (start : Option RuntimeAdmission × ExtTreeMap (Nat × Nat) RuntimeAdmission pairCompare)
    (fresh : ∀ result ∈ results, P result.admission)
    (target : ∀ admission, start.1 = some admission → P admission)
    (parked : ∀ (key' : Nat × Nat) admission, start.2[key']? = some admission → P admission) :
    (∀ admission, (results.foldl (deliver key) start).1 = some admission → P admission) ∧
      ∀ (key' : Nat × Nat) admission,
        (results.foldl (deliver key) start).2[key']? = some admission → P admission := by
  induction results generalizing start with
  | nil => exact ⟨target, parked⟩
  | cons result results ih =>
      have own := fresh result mem_cons_self
      refine ih _ (fun result' mem => fresh result' (mem_cons_of_mem _ mem)) ?_ ?_
      · intro admission same
        unfold deliver at same
        split at same
        · exact Option.some.inj same ▸ own
        · exact target admission same
      · intro key' admission same
        unfold deliver at same
        split at same
        · exact parked key' admission same
        · obtain ⟨-, rfl⟩ | ⟨-, same⟩ := getElem?_insert_eq_some_iff.mp same
          · exact own
          · exact parked key' admission same

/-! ### Calls -/

theorem forgets_dropPending (runtime : AuthoritativeRuntime) (key : Nat × Nat) :
    Forgets runtime (runtime.dropPending key) :=
  fun _ _ parked => (getElem?_erase_eq_some_iff.mp parked).2

theorem forgets_consumeRejection (key : Nat × Nat) :
    Forgets runtime (runtime.consumeRejection key) := by
  unfold consumeRejection
  split
  · exact forgets_dropPending runtime key
  · exact forgets_refl _

section

variable (runtime : AuthoritativeRuntime)

theorem admitExisting_pending (request : ResourceRequest) (nowMs : Nat)
    (attemptKind : AttemptKind) :
    (runtime.admitExisting request nowMs attemptKind).2.pendingAdmissions =
      runtime.pendingAdmissions := by
  unfold admitExisting
  split
  · rfl
  · dsimp only
    repeat' split
    all_goals rfl

theorem admitExisting_forgets (request : ResourceRequest) (nowMs : Nat)
    (attemptKind : AttemptKind) :
    Forgets runtime (runtime.admitExisting request nowMs attemptKind).2 := by
  intro key admission parked
  rwa [admitExisting_pending] at parked

theorem retry_forgets (taskId : Nat) (request : ResourceRequest) (nowMs : Nat) :
    Forgets runtime (runtime.retry taskId request nowMs).2 := by
  unfold retry
  split
  · exact forgets_refl _
  split
  · exact forgets_refl _
  split
  · exact forgets_refl _
  split
  · exact forgets_refl _
  dsimp only
  split
  · split
    · exact (forgets_consumeRejection _).trans (forgets_dropPending _ _)
    · exact forgets_consumeRejection _
  · refine Forgets.trans ?_ (admitExisting_forgets _ _ _ _)
    exact (forgets_consumeRejection _).trans (forgets_dropPending _ _)

theorem cancelQueued_forgets (taskId attemptId : Nat) :
    Forgets runtime (runtime.cancelQueued taskId attemptId).2 := by
  unfold cancelQueued
  split
  · exact forgets_refl _
  split
  · exact forgets_refl _
  dsimp only
  split
  · split <;> exact forgets_refl _
  · unfold withdrawQueued
    split
    · exact forgets_refl _
    · dsimp only
      split <;> exact forgets_dropPending runtime _

end

section

variable (h : Keeping issued runtime)
include h

theorem Keeping.submit (task : TaskCard) (request : ResourceRequest)
    (nowMs : Nat) {later : Nat}
    (accounted : Accounted later (runtime.submit task request nowMs).2) :
    Keeping later (runtime.submit task request nowMs).2 := by
  obtain ⟨error, he⟩ | ⟨ledger, he, replaced, fresh, files⟩ :=
    submit_cases runtime task request nowMs
  · rw [he] at accounted ⊢
    exact ⟨accounted, h.parked⟩
  · rw [he] at accounted ⊢
    obtain ⟨filed, unqueued⟩ := h.accounted.consistent.filed replaced fresh
    have own := h.accounted.withLedger filed replaced (by simp [submittedCard])
    refine h.keep accounted (admitExisting_forgets _ _ _ _) fun token live => ?_
    refine (admitExisting_preserves own ?_ nowMs .initial).live token live
    rw [constrain_key, ResourceRequest.key, ← files.taskId]
    exact unqueued _

theorem Keeping.retry (taskId : Nat) (request : ResourceRequest)
    (nowMs : Nat) {later : Nat}
    (accounted : Accounted later (runtime.retry taskId request nowMs).2) :
    Keeping later (runtime.retry taskId request nowMs).2 := by
  refine h.keep accounted (retry_forgets runtime taskId request nowMs) fun token live => ?_
  obtain ⟨outcome, pending, he, -⟩ | ⟨pending, card, he, -, -, -, fresh⟩ :=
    retry_cases h.accounted.consistent taskId request nowMs
  · rw [he]
    exact live
  · rw [he]
    have kept : Accounted issued (runtime.withPending pending) :=
      h.accounted.of_eq (h.accounted.consistent.withPending pending) rfl rfl rfl rfl
    have fresh : (constrainRequestToTaskDeadline request card.hardDeadlineMs).key ∉
        (runtime.withPending pending).admission.queuedAttempts := fresh
    exact (admitExisting_preserves kept fresh nowMs .retry).live token live

theorem Keeping.finishAt (outcome : RuntimeOutcome) (nowMs : Nat)
    (spared : ¬ runtime.Parked token)
    (accounted : Accounted issued (runtime.finishAt token outcome nowMs).2) :
    Keeping issued (runtime.finishAt token outcome nowMs).2 ∧
      (runtime.finishAt token outcome nowMs).2.pendingAdmissions = runtime.pendingAdmissions := by
  obtain ⟨error, he⟩ | ⟨next, he, releases⟩ := runtime.finishAt_releases token outcome nowMs
  · rw [he]
    exact ⟨h, rfl⟩
  · rw [he] at accounted ⊢
    have pending : next.pendingAdmissions = runtime.pendingAdmissions := by
      cases releases
      rfl
    refine ⟨⟨accounted, fun other ⟨key, parked⟩ => ?_⟩, pending⟩
    rw [pending] at parked
    refine (h.parked other ⟨key, parked⟩).released releases ?_
    rintro rfl
    exact spared ⟨key, parked⟩

theorem Keeping.reap (tokens : List ResourceLeaseToken)
    (spared : ∀ token ∈ tokens, ¬ runtime.Parked token) (reclaimed : Nat) :
    Keeping issued (tokens.foldl (reapOne nowMs) (reclaimed, runtime)).2 := by
  induction tokens generalizing runtime reclaimed with
  | nil => exact h
  | cons token tokens ih =>
      have accounted : Accounted issued (runtime.finishAt token .timedOut nowMs).2 := by
        obtain ⟨error, he⟩ | ⟨next, he, releases⟩ := runtime.finishAt_cases token .timedOut nowMs
        · rw [he]
          exact h.accounted
        · rw [he]
          exact h.accounted.releases releases
      obtain ⟨kept, pending⟩ :=
        h.finishAt .timedOut nowMs (spared token mem_cons_self) accounted
      obtain ⟨count, he⟩ := reapOne_eq nowMs reclaimed runtime token
      rw [foldl_cons, he]
      refine ih kept (fun other mem => ?_) count
      rw [Parked, pending]
      exact spared other (mem_cons_of_mem _ mem)

/-- A poll answers with a live token, if with any. -/
theorem Keeping.pollQueued (taskId attemptId nowMs : Nat)
    (room : issued + runtime.leasesIssued (.pollQueued taskId attemptId nowMs) < u128Max)
    {later : Nat} (accounted : Accounted later (runtime.pollQueued taskId attemptId nowMs).2) :
    Keeping later (runtime.pollQueued taskId attemptId nowMs).2 ∧
      ∀ token, (runtime.pollQueued taskId attemptId nowMs).1 = some (some (.admitted token)) →
        (runtime.pollQueued taskId attemptId nowMs).2.Live token := by
  unfold AuthoritativeRuntime.pollQueued at accounted ⊢
  cases kept : runtime.pendingAdmissions[(taskId, attemptId)]? with
  | some admission =>
      simp only [kept] at accounted ⊢
      refine ⟨h.keep accounted (forgets_dropPending _ _) fun _ live => live, fun token answer => ?_⟩
      obtain rfl := Option.some.inj (Option.some.inj answer)
      exact h.parked token ⟨_, kept⟩
  | none =>
      simp only [leasesIssued, kept, Option.isSome_none, Bool.false_eq_true, if_false] at room
      have drained := drainLoop_preserves h.accounted nowMs _ room
      simp only [kept] at accounted ⊢
      have returned : runtime.drainQueued nowMs =
        drainLoop nowMs runtime.admission.queuedRequests.length runtime := rfl
      rw [← returned] at drained
      generalize runtime.drainQueued nowMs = drain at accounted drained ⊢
      obtain ⟨results, next⟩ := drain
      cases results with
      | none =>
          exact ⟨h.keep accounted drained.forgets drained.live,
            fun token answer => by cases answer⟩
      | some results =>
          obtain ⟨target, parked⟩ := deliver_fold_forall (P := fun admission =>
            ∀ token, admission = .admitted token → next.Live token) (taskId, attemptId) results
            (none, next.pendingAdmissions)
            (fun result mem token admitted =>
              drained.fresh token ⟨results, rfl, result, mem, admitted⟩)
            (fun _ found => by cases found)
            (fun key admission found token admitted => drained.live token
              (h.parked token ⟨key, drained.forgets key _ (admitted ▸ found)⟩))
          refine ⟨⟨accounted, fun token held => held.elim fun key found =>
            parked key _ found token rfl⟩, fun token answer => ?_⟩
          exact target _ (Option.some.inj answer) token rfl

theorem Keeping.step (op : RuntimeOp)
    (spared : runtime.SparesParked op) :
    Keeping (issued + runtime.leasesIssued op) (runtime.step op) := by
  have room : issued + runtime.leasesIssued op < u128Max := by
    have := h.accounted.nextLeaseId
    have := spared.1
    omega
  have accounted := h.accounted.step op room
  cases op with
  | submit task request nowMs => exact h.submit task request nowMs accounted
  | retry taskId request nowMs => exact h.retry taskId request nowMs accounted
  | finish token outcome nowMs => exact (h.finishAt outcome nowMs spared.2 accounted).1
  | drainQueued nowMs =>
      have drained := drainLoop_preserves h.accounted nowMs _ room
      exact h.keep accounted drained.forgets drained.live
  | pollQueued taskId attemptId nowMs =>
      exact (h.pollQueued taskId attemptId nowMs room accounted).1
  | cancelQueued taskId attemptId =>
      refine h.keep accounted (cancelQueued_forgets runtime taskId attemptId) fun token live => ?_
      simp only [AuthoritativeRuntime.step]
      obtain ⟨result, he⟩ | ⟨card, attemptKind, pending, ledger, he, -⟩ :=
        cancelQueued_cases runtime taskId attemptId
      · rw [he]
        exact live
      · rw [he]
        exact live.of_active rfl
  | reapExpired nowMs => exact h.reap _ spared.2 0
  | observeResourceSample sample =>
      exact h.keep accounted (forgets_refl _) fun token live => live.of_active rfl

end

/-- In every run that gives back no lease whose token is parked, and that does not run out of
lease ids, every token that a poll returns is live after the poll. -/
theorem run_polled_tokens_live (deadlineHorizonMs : Nat) (profile : HardwareProfile)
    (ops : List RuntimeOp) (taskId attemptId nowMs : Nat) (token : ResourceLeaseToken)
    (spared : Along step SparesParked (new deadlineHorizonMs profile)
      (ops ++ [.pollQueued taskId attemptId nowMs]))
    (answer : ((run step (new deadlineHorizonMs profile) ops).pollQueued taskId attemptId
      nowMs).1 = some (some (.admitted token))) :
    ∃ lease : ResourceLease, ((run step (new deadlineHorizonMs profile) ops).pollQueued taskId
        attemptId nowMs).2.admission.inspectToken token = .ok lease ∧
      ((run step (new deadlineHorizonMs profile) ops).pollQueued taskId attemptId
        nowMs).2.admission.active[token.leaseId]? = some lease ∧
      lease.generation = token.generation ∧ lease.attemptId = token.attemptId := by
  have keep : ∀ s op, (∃ issued, Keeping issued s) → SparesParked s op →
      ∃ issued, Keeping issued (step s op) :=
    fun s op ⟨issued, h⟩ spared => ⟨_, h.step op spared⟩
  obtain ⟨issued, h⟩ := run_invariant_along keep spared.append_left
    ⟨0, accounted_new deadlineHorizonMs profile, fun token ⟨key, parked⟩ => by simp [new] at parked⟩
  have last := spared.at_step
  have room : issued + leasesIssued (run step (new deadlineHorizonMs profile) ops)
      (.pollQueued taskId attemptId nowMs) < u128Max := by
    have := h.accounted.nextLeaseId
    have := last.1
    omega
  have accounted := h.accounted.step _ room
  obtain ⟨lease, inspected⟩ :=
    (h.pollQueued taskId attemptId nowMs room accounted).2 token answer
  exact ⟨lease, inspected, inspectToken_ok inspected⟩

theorem startAfterRelease_polled_token_live :
    ∃ lease : ResourceLease, ((run step (new 1000 .small) (startAfterRelease.take 4)).pollQueued
        3 1 6).2.admission.inspectToken ⟨leaseTokenSchemaV1, 3, 3, 1⟩ = .ok lease ∧
      ((run step (new 1000 .small) (startAfterRelease.take 4)).pollQueued
        3 1 6).2.admission.active[3]? = some lease ∧
      lease.generation = 3 ∧ lease.attemptId = 1 := by
  refine run_polled_tokens_live 1000 .small (startAfterRelease.take 4) 3 1 6
    ⟨leaseTokenSchemaV1, 3, 3, 1⟩ ?_ (by decide)
  refine ⟨⟨by decide, trivial⟩, ⟨by decide, trivial⟩, ⟨by decide, trivial⟩, ⟨by decide, ?_⟩,
    ⟨by decide, trivial⟩, trivial⟩
  rintro ⟨key, parked⟩
  have none_parked : (run step (new 1000 .small) (startAfterRelease.take 3)).pendingAdmissions =
    ∅ := by decide
  have parked : (run step (new 1000 .small)
    (startAfterRelease.take 3)).pendingAdmissions[key]? = some (.admitted _) := parked
  rw [none_parked] at parked
  simp at parked

/-- The reaper takes the lease of an admission that is parked since another task polled. -/
def reapedWhileParked : List RuntimeOp :=
  [.submit (.new 1 [] 0 none none) (.minimal 1 .nativeTask) 0,
    .submit (.new 2 [] 0 none none) (.minimal 2 .nativeTask) 0,
    .submit (.new 3 [] 0 (some 100) none) (.minimal 3 .nativeTask) 0,
    .finish ⟨leaseTokenSchemaV1, 1, 1, 1⟩ .done 5,
    .pollQueued 2 1 6,
    .reapExpired 100]

theorem reapedWhileParked_polled_token_dead :
    ((run step (new 1000 .small) reapedWhileParked).pollQueued 3 1 101).1 =
      some (some (.admitted ⟨leaseTokenSchemaV1, 3, 3, 1⟩)) ∧
    ((run step (new 1000 .small) reapedWhileParked).pollQueued 3 1 101).2.admission.inspectToken
      ⟨leaseTokenSchemaV1, 3, 3, 1⟩ = .error (.unknownLease 3) := by
  decide

end AuthoritativeRuntime

end Aegis.Runtime
