import AegisCognition.Runtime.Transition

/-!
# Consistency of the three subsystems

Every active lease belongs to a running task and to its current attempt, no task holds
two leases, and the queue holds one entry per waiting attempt, each for a task that the
ledger shows waiting for exactly that attempt. All operations keep this, without a bound
on the number of leases: a lease whose id is used twice is lost, but what is left is
still consistent. It follows that no operation of the runtime ever panics.
-/

namespace Aegis.Runtime

open Std Foundation Resource Aegis.Task AdmissionController OrderedMap List

theorem Waiting.unique {card : TaskCard} {first second : Nat}
    {firstKind secondKind : AttemptKind} (h : Waiting card first firstKind)
    (h' : Waiting card second secondKind) : first = second := by
  cases h with
  | initial status attempt =>
      cases h' with
      | initial _ attempt' => exact attempt.symm.trans attempt'
      | retry status' _ => rw [status] at status'; cases status'
  | retry status attempt =>
      cases h' with
      | initial status' _ => rw [status] at status'; cases status'
      | retry _ attempt' => exact Option.some.inj (attempt.symm.trans attempt')

namespace AuthoritativeRuntime

structure Consistent (runtime : AuthoritativeRuntime) : Prop where
  holder : ∀ (leaseId : Nat) (lease : ResourceLease),
    runtime.admission.active[leaseId]? = some lease →
    ∃ card, runtime.ledger.task lease.taskId = some card ∧ card.status = .running ∧
      card.attemptId = lease.attemptId
  single : ∀ (leaseId : Nat) (lease : ResourceLease) (otherId : Nat) (other : ResourceLease),
    runtime.admission.active[leaseId]? = some lease →
    runtime.admission.active[otherId]? = some other → lease.taskId = other.taskId →
    leaseId = otherId
  index : ∀ key, key ∈ runtime.admission.queuedAttempts ↔
    ∃ request ∈ runtime.admission.queuedRequests, request.key = key
  keys_nodup : (runtime.admission.queuedRequests.map ResourceRequest.key).Nodup
  bounded : runtime.admission.queuedRequests.length ≤ runtime.admission.queueLimit
  waiting : ∀ request ∈ runtime.admission.queuedRequests, ∃ card attemptKind,
    runtime.ledger.task request.taskId = some card ∧
      Waiting card request.attemptId attemptKind

variable {runtime other : AuthoritativeRuntime} {request : ResourceRequest} {nowMs : Nat}
variable {card : TaskCard} {ledger : TaskLedger} {taskId : Nat}

theorem consistent_new (deadlineHorizonMs : Nat) (profile : HardwareProfile) :
    Consistent (new deadlineHorizonMs profile) where
  holder := by simp [new, fromHardware, AdmissionController.new]
  single := by simp [new, fromHardware, AdmissionController.new]
  index := by simp [new, fromHardware, AdmissionController.new]
  keys_nodup := nodup_nil
  bounded := Nat.zero_le _
  waiting := by simp [new, fromHardware, AdmissionController.new]

namespace Consistent

/-- Capacities, lanes and kept results play no part in it. -/
theorem of_eq (h : Consistent runtime) (htask : other.ledger.task = runtime.ledger.task)
    (hactive : other.admission.active = runtime.admission.active)
    (hrequests : other.admission.queuedRequests = runtime.admission.queuedRequests)
    (hattempts : other.admission.queuedAttempts = runtime.admission.queuedAttempts)
    (hlimit : other.admission.queueLimit = runtime.admission.queueLimit) :
    Consistent other := by
  obtain ⟨holder, single, index, keys_nodup, bounded, waiting⟩ := h
  constructor <;> simp only [htask, hactive, hrequests, hattempts, hlimit] <;> assumption

variable {attemptKind : AttemptKind}

section

variable (h : Consistent runtime)
include h

/-- A waiting attempt without a queue entry: its task has no queue entry at all. -/
theorem unqueued {attemptId : Nat}
    (hfound : runtime.ledger.task taskId = some card)
    (hwaiting : Waiting card attemptId attemptKind)
    (fresh : (taskId, attemptId) ∉ runtime.admission.queuedAttempts) :
    ∀ queued ∈ runtime.admission.queuedRequests, queued.taskId ≠ taskId := by
  intro queued hmem htask
  obtain ⟨card', attemptKind', hfound', hwaiting'⟩ := h.waiting queued hmem
  rw [htask, hfound] at hfound'
  cases hfound'
  refine fresh ((h.index _).mpr ⟨queued, hmem, ?_⟩)
  exact Prod.ext htask (hwaiting'.unique hwaiting)

/-- The card of a task that neither runs nor is queued may be replaced. -/
theorem replace
    (idle : ∀ card, runtime.ledger.task taskId = some card → card.status ≠ .running)
    (unqueued : ∀ queued ∈ runtime.admission.queuedRequests, queued.taskId ≠ taskId)
    (replaced : TaskLedger.Replaced runtime.ledger taskId card ledger) :
    Consistent { runtime with ledger := ledger } := by
  refine ⟨?_, h.single, h.index, h.keys_nodup, h.bounded, ?_⟩
  · intro leaseId lease hactive
    obtain ⟨held, hfound, hrunning, hattempt⟩ := h.holder leaseId lease hactive
    refine ⟨held, ?_, hrunning, hattempt⟩
    rw [← hfound]
    refine replaced.task_of_ne ?_
    rintro rfl
    exact idle held hfound hrunning
  · intro queued hmem
    obtain ⟨waits, attemptKind, hfound, hwaiting⟩ := h.waiting queued hmem
    refine ⟨waits, attemptKind, ?_, hwaiting⟩
    rw [← hfound]
    exact replaced.task_of_ne (unqueued queued hmem).symm

theorem withQueued
    (fresh : request.key ∉ runtime.admission.queuedAttempts)
    (space : runtime.admission.queuedRequests.length < runtime.admission.queueLimit)
    (hfound : runtime.ledger.task request.taskId = some card)
    (hwaiting : Waiting card request.attemptId attemptKind) :
    Consistent (runtime.withQueued request) := by
  refine ⟨h.holder, h.single, ?_, ?_, ?_, ?_⟩
  · intro key
    simp only [AuthoritativeRuntime.withQueued, pushQueued,
      Finset.mem_insert, mem_append, mem_singleton, h.index]
    constructor
    · rintro (rfl | ⟨queued, hmem, hkey⟩)
      · exact ⟨request, .inr rfl, rfl⟩
      · exact ⟨queued, .inl hmem, hkey⟩
    · rintro ⟨queued, hmem | rfl, hkey⟩
      · exact .inr ⟨queued, hmem, hkey⟩
      · exact .inl hkey.symm
  · simp only [AuthoritativeRuntime.withQueued, pushQueued, map_append, map_singleton]
    refine nodup_append.mpr ⟨h.keys_nodup, nodup_singleton _, ?_⟩
    intro key hkey key' hkey' same
    rw [mem_singleton] at hkey'
    subst hkey' same
    exact fresh ((h.index _).mpr (mem_map.mp hkey))
  · simp only [AuthoritativeRuntime.withQueued, pushQueued,
      length_append, length_singleton]
    omega
  · intro queued hmem
    obtain hmem | hmem := mem_append.mp hmem
    · exact h.waiting queued hmem
    · rw [mem_singleton] at hmem
      subst hmem
      exact ⟨card, attemptKind, hfound, hwaiting⟩

theorem withStarted {limit : LaneLimit}
    (fresh : request.key ∉ runtime.admission.queuedAttempts)
    (hfound : runtime.ledger.task request.taskId = some card)
    (hwaiting : Waiting card request.attemptId attemptKind)
    (replaced : TaskLedger.Replaced runtime.ledger request.taskId
      (card.started request.attemptId) ledger) :
    Consistent (runtime.withStarted request nowMs ledger limit) := by
  have unleased : ∀ (leaseId : Nat) (lease : ResourceLease),
      runtime.admission.active[leaseId]? = some lease → lease.taskId ≠ request.taskId := by
    intro leaseId lease hactive htask
    obtain ⟨held, hheld, hrunning, -⟩ := h.holder leaseId lease hactive
    rw [htask, hfound] at hheld
    cases hheld
    exact hwaiting.not_running hrunning
  refine ⟨?_, ?_, h.index, h.keys_nodup, h.bounded, ?_⟩
  · intro leaseId lease hactive
    obtain ⟨rfl, rfl⟩ | ⟨-, hactive⟩ := getElem?_insert_eq_some_iff.mp hactive
    · exact ⟨card.started request.attemptId, replaced.task_self, rfl, rfl⟩
    · obtain ⟨held, hheld, hrunning, hattempt⟩ := h.holder leaseId lease hactive
      refine ⟨held, ?_, hrunning, hattempt⟩
      rw [← hheld]
      exact replaced.task_of_ne (unleased leaseId lease hactive).symm
  · intro leaseId lease otherId other hactive hother same
    obtain ⟨rfl, rfl⟩ | ⟨-, hactive⟩ := getElem?_insert_eq_some_iff.mp hactive
    · obtain ⟨rfl, rfl⟩ | ⟨-, hother⟩ := getElem?_insert_eq_some_iff.mp hother
      · rfl
      · exact absurd same.symm (unleased otherId other hother)
    · obtain ⟨rfl, rfl⟩ | ⟨-, hother⟩ := getElem?_insert_eq_some_iff.mp hother
      · exact absurd same (unleased leaseId lease hactive)
      · exact h.single leaseId lease otherId other hactive hother same
  · intro queued hmem
    obtain ⟨waits, attemptKind', hwaits, hwaiting'⟩ := h.waiting queued hmem
    refine ⟨waits, attemptKind', ?_, hwaiting'⟩
    rw [← hwaits]
    exact replaced.task_of_ne (h.unqueued hfound hwaiting fresh queued hmem).symm

theorem releases (step : Releases runtime other) :
    Consistent other := by
  obtain ⟨leaseId, lease, limit, card, settled, ledger, active, counted, positive, found,
    settles, replaced⟩ := step
  obtain ⟨held, hheld, hrunning, -⟩ := h.holder leaseId lease active
  rw [found] at hheld
  cases hheld
  refine ⟨?_, ?_, h.index, h.keys_nodup, h.bounded, ?_⟩
  · intro otherId other hother
    obtain ⟨hne, hother⟩ := getElem?_erase_eq_some_iff.mp hother
    obtain ⟨held, hheld, hheldRunning, hattempt⟩ := h.holder otherId other hother
    refine ⟨held, ?_, hheldRunning, hattempt⟩
    rw [← hheld]
    refine replaced.task_of_ne fun same => hne ?_
    exact h.single leaseId lease otherId other active hother same
  · intro firstId first secondId second hfirst hsecond same
    exact h.single _ _ _ _ (getElem?_erase_eq_some_iff.mp hfirst).2
      (getElem?_erase_eq_some_iff.mp hsecond).2 same
  · intro queued hmem
    obtain ⟨waits, attemptKind, hwaits, hwaiting⟩ := h.waiting queued hmem
    refine ⟨waits, attemptKind, ?_, hwaiting⟩
    rw [← hwaits]
    refine replaced.task_of_ne ?_
    intro same
    rw [← same, found] at hwaits
    cases hwaits
    exact hwaiting.not_running hrunning

end

end Consistent

end AuthoritativeRuntime

end Aegis.Runtime
