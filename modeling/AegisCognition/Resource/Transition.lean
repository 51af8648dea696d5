import AegisCognition.Foundation.Run
import AegisCognition.Resource.Admission

/-!
# What one admission operation can do

One inversion lemma per operation of the controller that can change it. Later proofs
argue from these cases and never unfold the operations again.
-/

namespace Aegis.Resource

open Std Foundation GrantedResources

namespace AdmissionController

variable {controller next : AdmissionController} {request : ResourceRequest} {nowMs : Nat}

/-- Queueing fails, finds the identical entry, or adds one entry at the back. -/
theorem enqueue_cases (controller : AdmissionController) (request : ResourceRequest)
    (nowMs : Nat) :
    (∃ error, controller.enqueue request nowMs = (.error error, controller)) ∨
    (∃ position, controller.enqueue request nowMs = (.ok position, controller) ∧
      request.validate nowMs = .ok () ∧
      controller.queuedAttempt request.taskId request.attemptId = some (position, request)) ∨
    (controller.enqueue request nowMs =
        (.ok (controller.queuedRequests.length + 1), controller.pushQueued request) ∧
      request.validate nowMs = .ok () ∧
      controller.queuedAttempt request.taskId request.attemptId = none ∧
      controller.queuedRequests.length < controller.queueLimit ∧
      request.key ∉ controller.queuedAttempts) := by
  unfold enqueue
  cases hvalid : request.validate nowMs with
  | error error => exact .inl ⟨error, rfl⟩
  | ok _ =>
      cases hqueued : controller.queuedAttempt request.taskId request.attemptId with
      | some entry =>
          obtain ⟨position, queued⟩ := entry
          by_cases hsame : queued = request
          · subst hsame
            exact .inr (.inl ⟨position, by simp, rfl, rfl⟩)
          · exact .inl ⟨_, if_neg hsame⟩
      | none =>
          by_cases hfull : controller.queueLimit ≤ controller.queuedRequests.length
          · exact .inl ⟨_, if_pos hfull⟩
          · by_cases hindex : request.key ∈ controller.queuedAttempts
            · exact .inl ⟨_, (if_neg hfull).trans (if_pos hindex)⟩
            · exact .inr (.inr ⟨(if_neg hfull).trans (if_neg hindex), rfl, rfl, by omega, hindex⟩)

/-- A well-formed request that cannot be granted a lease at once. -/
def Blocked (controller : AdmissionController) (request : ResourceRequest) : Prop :=
  controller.deferred request = true ∨
    (fromRequest request).fitsWithin controller.capacity
      controller.used = false

/-- The ways a request is refused without touching the controller. -/
inductive Refused (controller : AdmissionController) (request : ResourceRequest)
    (nowMs : Nat) : Prop where
  | invalid (error : ResourceError) (h : request.validate nowMs = .error error)
  | denied (error : ResourceError) (h : controller.acceleratorDenial request = some error)
  | full (blocked : Blocked controller request)
      (h : controller.queueLimit ≤ controller.queuedRequests.length)
  | conflict (error : ResourceError) (blocked : Blocked controller request)
      (h : controller.enqueue request nowMs = (.error error, controller))

section

variable (controller : AdmissionController)

/-- A request is refused, queued, admitted, or panics on a conflicting queue entry. -/
theorem admitRequest_cases (request : ResourceRequest) (nowMs : Nat) :
    (∃ reason, controller.admitRequest request nowMs = (some (.rejected reason), controller) ∧
      Refused controller request nowMs) ∨
    (∃ position reason next,
      controller.admitRequest request nowMs = (some (.queued position reason), next) ∧
      controller.enqueue request nowMs = (.ok position, next) ∧
      controller.acceleratorDenial request = none ∧ Blocked controller request) ∨
    (controller.admitRequest request nowMs =
        (some (.admitted (controller.issueLease request nowMs)),
          controller.grant request nowMs) ∧
      request.validate nowMs = .ok () ∧
      controller.acceleratorDenial request = none ∧
      controller.deferred request = false ∧
      (fromRequest request).fitsWithin controller.capacity
        controller.used = true) ∨
    (controller.admitRequest request nowMs = (none, controller) ∧
      ∃ error, controller.enqueue request nowMs = (.error error, controller) ∧
        request.validate nowMs = .ok () ∧
        controller.queuedRequests.length < controller.queueLimit) := by
  unfold admitRequest
  cases hvalid : request.validate nowMs with
  | error error => exact .inl ⟨error, rfl, .invalid error hvalid⟩
  | ok _ =>
      cases hdenied : controller.acceleratorDenial request with
      | some error => exact .inl ⟨error, rfl, .denied error hdenied⟩
      | none =>
          by_cases hroom : controller.queuedRequests.length < controller.queueLimit
          · by_cases hdeferred : controller.deferred request = true
            · simp only [hdeferred, hroom, if_true]
              obtain ⟨error, he⟩ | ⟨position, he, -⟩ | ⟨he, -⟩ :=
                enqueue_cases controller request nowMs
              · exact .inr (.inr (.inr ⟨by rw [he], error, he, trivial, trivial⟩))
              · exact .inr (.inl ⟨position, _, controller, by rw [he], he, trivial, .inl hdeferred⟩)
              · exact .inr (.inl ⟨_, _, _, by rw [he], he, trivial, .inl hdeferred⟩)
            · have hnot : controller.deferred request = false := by simpa using hdeferred
              by_cases hfits : (fromRequest request).fitsWithin
                  controller.capacity controller.used = true
              · refine .inr (.inr (.inl ⟨?_, rfl, rfl, hnot, hfits⟩))
                simp only [hnot, hfits, if_true, Bool.false_eq_true, if_false]
              · have blocked : Blocked controller request := .inr (by simpa using hfits)
                simp only [hnot, hfits, hroom, if_true, Bool.false_eq_true, if_false]
                obtain ⟨error, he⟩ | ⟨position, he, -⟩ | ⟨he, -⟩ :=
                  enqueue_cases controller request nowMs
                · exact .inl ⟨error, by rw [he], .conflict error blocked he⟩
                · exact .inr (.inl ⟨position, _, controller, by rw [he], he, trivial, blocked⟩)
                · exact .inr (.inl ⟨_, _, _, by rw [he], he, trivial, blocked⟩)
          · by_cases hdeferred : controller.deferred request = true
            · refine .inl ⟨.resourceExhausted, ?_, .full (.inl hdeferred) (by omega)⟩
              simp only [hdeferred, hroom, if_true, if_false]
            · have hnot : controller.deferred request = false := by simpa using hdeferred
              by_cases hfits : (fromRequest request).fitsWithin
                  controller.capacity controller.used = true
              · refine .inr (.inr (.inl ⟨?_, rfl, rfl, hnot, hfits⟩))
                simp only [hnot, hfits, if_true, Bool.false_eq_true, if_false]
              · refine .inl ⟨.resourceExhausted, ?_,
                  .full (.inr (by simpa using hfits)) (by omega)⟩
                simp only [hnot, hfits, hroom, Bool.false_eq_true, if_false]

def dropLease (leaseId : Nat) (lease : ResourceLease) : AdmissionController :=
  { controller with
    active := controller.active.erase leaseId
    used := subtractResources controller.used lease.granted }

theorem release_cases (leaseId : Nat) :
    controller.release leaseId = (.error (.unknownLease leaseId), controller) ∨
    ∃ lease, controller.active[leaseId]? = some lease ∧
      controller.release leaseId = (.ok lease, controller.dropLease leaseId lease) := by
  unfold release
  cases h : controller.active[leaseId]? with
  | none => exact .inl rfl
  | some lease => exact .inr ⟨lease, rfl, rfl⟩

end

theorem inspectToken_ok {token : ResourceLeaseToken} {lease : ResourceLease}
    (h : controller.inspectToken token = .ok lease) :
    controller.active[token.leaseId]? = some lease ∧ lease.generation = token.generation ∧
      lease.attemptId = token.attemptId := by
  unfold inspectToken at h
  split at h
  · cases h
  · split at h
    · cases h
    · rename_i found hfound
      split at h
      · cases h
      · rename_i hfence
        cases h
        simp only [not_or, ne_eq, not_not] at hfence
        exact ⟨hfound, hfence⟩

/-- A fenced release either fails without effect or drops exactly the inspected lease. -/
theorem releaseFenced_cases (controller : AdmissionController) (token : ResourceLeaseToken) :
    (∃ error, controller.releaseFenced token = (.error error, controller)) ∨
    ∃ lease, controller.inspectToken token = .ok lease ∧
      controller.active[token.leaseId]? = some lease ∧
      controller.releaseFenced token =
        (.ok lease, controller.dropLease token.leaseId lease) := by
  unfold releaseFenced
  cases h : controller.inspectToken token with
  | error error => exact .inl ⟨error, rfl⟩
  | ok lease =>
      have hactive := (inspectToken_ok h).1
      refine .inr ⟨lease, rfl, hactive, ?_⟩
      simp [release, hactive, dropLease]

end AdmissionController

/-- One call on the admission controller with its arguments. -/
inductive AdmissionOp where
  | admitRequest (request : ResourceRequest) (nowMs : Nat)
  | enqueue (request : ResourceRequest) (nowMs : Nat)
  | popQueued
  | removeQueued (taskId attemptId : Nat)
  | release (leaseId : Nat)
  | releaseFenced (token : ResourceLeaseToken)
  | capacityFeedback (sample : ResourceUsageSample)

namespace AdmissionController

def step (controller : AdmissionController) : AdmissionOp → AdmissionController
  | .admitRequest request nowMs => (controller.admitRequest request nowMs).2
  | .enqueue request nowMs => (controller.enqueue request nowMs).2
  | .popQueued => controller.popQueued.2
  | .removeQueued taskId attemptId => (controller.removeQueued taskId attemptId).2
  | .release leaseId => (controller.release leaseId).2
  | .releaseFenced token => (controller.releaseFenced token).2
  | .capacityFeedback sample => (controller.capacityFeedback sample).2

/-- A call issues a lease exactly when it returns one. -/
def leasesIssued (controller : AdmissionController) : AdmissionOp → Nat
  | .admitRequest request nowMs =>
      match (controller.admitRequest request nowMs).1 with
      | some (.admitted _) => 1
      | _ => 0
  | _ => 0

/-- The two constructors of the controller. -/
inductive Initial : AdmissionController → Prop where
  | new (capacity : GrantedResources) (queueLimit : Nat) : Initial (.new capacity queueLimit)
  | fromHardware (profile : HardwareProfile) : Initial (.fromHardware profile)

end AdmissionController

end Aegis.Resource
