import AegisCognition.Runtime.Move

/-!
# Hard deadlines

A request is cut to the hard deadline of its task when a call brings it, and nowhere else: the
queue keeps the request that was cut, and the card keeps its deadline. So every lease of a task
with a hard deadline ends after it was issued and no later than the deadline.
-/

namespace Aegis.Runtime

open Std Foundation Resource Aegis.Task AdmissionController List

theorem CardMove.hardDeadlineMs {nowMs taskId : Nat} {policy : RetryPolicy} {card : TaskCard}
    {event : Option Happening} {after : Option TaskCard}
    (h : CardMove nowMs policy taskId (some card) event after) :
    after.map TaskCard.hardDeadlineMs = some card.hardDeadlineMs := by
  cases h with
  | same => rfl
  | dismissed => simp
  | started => rfl
  | settled card settled _ settles _ => cases settles <;> simp

namespace AuthoritativeRuntime

variable {runtime base next : AuthoritativeRuntime} {request : ResourceRequest}
variable {nowMs taskId : Nat} {card : TaskCard} {event : Option Happening}

/-- The lease of a task ends after it was issued, and no later than the task has to. -/
def Timely (card : TaskCard) (lease : ResourceLease) : Prop :=
  ∀ limitMs, card.hardDeadlineMs = some limitMs → ∃ expiresMs,
    lease.expiresAtMs = some expiresMs ∧ lease.issuedAtMs < expiresMs ∧ expiresMs ≤ limitMs

structure KeepsDeadlines (runtime : AuthoritativeRuntime) : Prop where
  leases : ∀ (leaseId : Nat) (lease : ResourceLease) (card : TaskCard),
    runtime.admission.active[leaseId]? = some lease →
    runtime.ledger.task lease.taskId = some card → Timely card lease
  queue : ∀ request ∈ runtime.admission.queuedRequests, ∀ card,
    runtime.ledger.task request.taskId = some card → Clamped card request

theorem deadline_of_validate (valid : request.validate nowMs = .ok ()) {deadlineMs : Nat}
    (own : request.deadlineMs = some deadlineMs) : nowMs < deadlineMs := by
  by_contra early
  have late : request.deadlineMs.any (· ≤ nowMs) = true := by
    rw [own]
    simpa using early
  unfold ResourceRequest.validate at valid
  repeat' split at valid
  all_goals contradiction

theorem Offer.clamped (offer : Offer runtime request base) (h : KeepsDeadlines runtime)
    (found : runtime.ledger.task request.taskId = some card) : Clamped card request := by
  cases offer with
  | called card' found' clamped _ => exact Option.some.inj (found.symm.trans found') ▸ clamped
  | front rest queue => exact h.queue request (queue ▸ mem_cons_self) card found

/-- A lease was there before the move, or it has just been issued for an offered request. -/
theorem Move.active_cases (h : Move nowMs runtime event next) {leaseId : Nat}
    {lease : ResourceLease} (active : next.admission.active[leaseId]? = some lease) :
    runtime.admission.active[leaseId]? = some lease ∨
    ∃ request base card, Offer runtime request base ∧
      runtime.ledger.task request.taskId = some card ∧ request.validate nowMs = .ok () ∧
      lease = base.admission.issueLease request nowMs := by
  cases h with
  | filed | kept | withdrawn | observed => exact .inl active
  | dropped request rest queue =>
      rw [dropFront_eq queue] at active
      exact .inl active
  | timedOut request rest card ledger queue =>
      have same : (runtime.dropFront.withLedger ledger).admission = runtime.dropFront.admission :=
        rfl
      rw [same, dropFront_eq queue] at active
      exact .inl active
  | queued request base card attemptKind offer =>
      exact .inl (offer.active_eq ▸ active)
  | started request base card attemptKind ledger limit offer found _ _ valid _ =>
      obtain ⟨-, same⟩ | ⟨-, active⟩ := OrderedMap.getElem?_insert_eq_some_iff.mp active
      · exact .inr ⟨request, base, card, offer, found, valid, same.symm⟩
      · exact .inl (offer.active_eq ▸ active)
  | released token lease next inspected releases =>
      cases releases
      exact .inl (OrderedMap.getElem?_erase_eq_some_iff.mp active).2

/-- What is queued was queued before the move, or has just been offered. -/
theorem Move.queue_cases (h : Move nowMs runtime event next) {queued : ResourceRequest}
    (mem : queued ∈ next.admission.queuedRequests) :
    queued ∈ runtime.admission.queuedRequests ∨ ∃ base, Offer runtime queued base := by
  cases h with
  | filed | kept | observed => exact .inl mem
  | withdrawn => exact .inl (mem_filter.mp mem).1
  | dropped request rest queue => exact .inl ((Offer.front rest queue).queued_of_queued mem)
  | timedOut request rest card ledger queue =>
      exact .inl ((Offer.front rest queue).queued_of_queued mem)
  | queued request base card attemptKind offer =>
      obtain mem | mem := mem_append.mp mem
      · exact .inl (offer.queued_of_queued mem)
      · obtain rfl := mem_singleton.mp mem
        exact .inr ⟨base, offer⟩
  | started request base card attemptKind ledger limit offer =>
      exact .inl (offer.queued_of_queued mem)
  | released token lease next inspected releases =>
      cases releases
      exact .inl mem

theorem Move.hardDeadlineMs (h : Move nowMs runtime event next) (consistent : Consistent runtime)
    (found : runtime.ledger.task taskId = some card) {after : TaskCard}
    (found' : next.ledger.task taskId = some after) :
    after.hardDeadlineMs = card.hardDeadlineMs := by
  have moved := (h.card consistent taskId).2
  rw [found, found'] at moved
  exact Option.some.inj moved.hardDeadlineMs

theorem KeepsDeadlines.move (h : KeepsDeadlines runtime) (consistent : Consistent runtime)
    (move : Move nowMs runtime event next) : KeepsDeadlines next where
  leases := by
    intro leaseId lease card active found limitMs limited
    obtain before | ⟨request, base, held, offer, found', valid, rfl⟩ := move.active_cases active
    · obtain ⟨held, found', -⟩ := consistent.holder leaseId lease before
      rw [move.hardDeadlineMs consistent found' found] at limited
      exact h.leases leaseId lease held before found' limitMs limited
    · rw [move.hardDeadlineMs consistent found' found] at limited
      obtain ⟨deadlineMs, own, le⟩ := offer.clamped h found' limitMs limited
      exact ⟨deadlineMs, own, deadline_of_validate valid own, le⟩
  queue := by
    intro request mem card found limitMs limited
    obtain before | ⟨base, offer⟩ := move.queue_cases mem
    · obtain ⟨held, -, found', -⟩ := consistent.waiting request before
      rw [move.hardDeadlineMs consistent found' found] at limited
      exact h.queue request before held found' limitMs limited
    · obtain ⟨held, found'⟩ : ∃ held, runtime.ledger.task request.taskId = some held := by
        cases offer with
        | called held found' => exact ⟨held, found'⟩
        | front rest queue =>
            obtain ⟨held, -, found', -⟩ :=
              consistent.waiting request (queue ▸ mem_cons_self)
            exact ⟨held, found'⟩
      rw [move.hardDeadlineMs consistent found' found] at limited
      exact offer.clamped h found' limitMs limited

theorem keepsDeadlines_new (deadlineHorizonMs : Nat) (profile : HardwareProfile) :
    KeepsDeadlines (new deadlineHorizonMs profile) where
  leases := by simp [new, fromHardware, AdmissionController.new]
  queue := by simp [new, fromHardware, AdmissionController.new]

theorem run_keepsDeadlines (deadlineHorizonMs : Nat) (profile : HardwareProfile)
    (ops : List RuntimeOp) : KeepsDeadlines (run step (new deadlineHorizonMs profile) ops) :=
  run_invariant_moves (fun _ => KeepsDeadlines) (fun _ _ _ _ _ consistent h => h.move consistent)
    (keepsDeadlines_new deadlineHorizonMs profile) ops

/-- After every run, each lease of a task with a hard deadline ends after it was issued and no
later than the deadline, and each queued request of such a task ends no later than it. -/
theorem run_keeps_hard_deadlines (deadlineHorizonMs : Nat) (profile : HardwareProfile)
    (ops : List RuntimeOp) :
    (∀ (leaseId : Nat) (lease : ResourceLease) (card : TaskCard) (limitMs : Nat),
      (run step (new deadlineHorizonMs profile) ops).admission.active[leaseId]? = some lease →
      (run step (new deadlineHorizonMs profile) ops).ledger.task lease.taskId = some card →
      card.hardDeadlineMs = some limitMs →
      ∃ expiresMs, lease.expiresAtMs = some expiresMs ∧ lease.issuedAtMs < expiresMs ∧
        expiresMs ≤ limitMs) ∧
    (∀ request ∈ (run step (new deadlineHorizonMs profile) ops).admission.queuedRequests,
      ∀ card limitMs,
      (run step (new deadlineHorizonMs profile) ops).ledger.task request.taskId = some card →
      card.hardDeadlineMs = some limitMs →
      ∃ deadlineMs, request.deadlineMs = some deadlineMs ∧ deadlineMs ≤ limitMs) := by
  have kept := run_keepsDeadlines deadlineHorizonMs profile ops
  constructor
  · intro leaseId lease card limitMs active found limited
    exact kept.leases leaseId lease card active found limitMs limited
  · intro request mem card limitMs found limited
    exact kept.queue request mem card found limitMs limited

end AuthoritativeRuntime

end Aegis.Runtime
