import AegisCognition.Resource.Conservation

/-!
# The admission queue

The index of queued keys holds exactly the keys in the queue, and no key is queued twice. So a
repeated request finds its own entry, and the only request that cannot be queued although there is
room is one whose key is taken by another request.

Two calls disagree with the queueing below them. Under critical pressure a background request is
queued without an answer for the case that its key is taken. And the bound of the queue is
tested before a repeated request is looked up.
-/

namespace Aegis.Resource

open Std Foundation List

namespace AdmissionController

/-- The index and the queue agree. -/
structure Indexed (controller : AdmissionController) : Prop where
  index : ∀ key, key ∈ controller.queuedAttempts ↔
    ∃ request ∈ controller.queuedRequests, request.key = key
  keys_nodup : (controller.queuedRequests.map ResourceRequest.key).Nodup

variable {controller start : AdmissionController} {request queued : ResourceRequest}
variable {nowMs position : Nat}

namespace Indexed

theorem of_eq {other : AdmissionController} (h : Indexed controller)
    (requests : other.queuedRequests = controller.queuedRequests)
    (attempts : other.queuedAttempts = controller.queuedAttempts) : Indexed other := by
  obtain ⟨index, keys_nodup⟩ := h
  constructor <;> simp only [requests, attempts] <;> assumption

theorem of_initial (initial : Initial start) : Indexed start := by
  cases initial <;> exact ⟨by simp [new, fromHardware], nodup_nil⟩

section

variable (h : Indexed controller)
include h

theorem pushQueued (fresh : request.key ∉ controller.queuedAttempts) :
    Indexed (controller.pushQueued request) := by
  constructor
  · intro key
    simp only [AdmissionController.pushQueued, Finset.mem_insert, mem_append,
      mem_singleton, h.index]
    constructor
    · rintro (rfl | ⟨queued, mem, same⟩)
      · exact ⟨request, .inr rfl, rfl⟩
      · exact ⟨queued, .inl mem, same⟩
    · rintro ⟨queued, mem | rfl, rfl⟩
      · exact .inr ⟨queued, mem, rfl⟩
      · exact .inl rfl
  · simp only [AdmissionController.pushQueued, map_append, map_cons, map_nil]
    refine nodup_append.mpr ⟨h.keys_nodup, nodup_singleton _, ?_⟩
    intro key mem other mem' same
    obtain ⟨queued, inQueue, rfl⟩ := mem_map.mp mem
    rw [mem_singleton] at mem'
    exact fresh ((h.index _).mpr ⟨queued, inQueue, same.trans mem'⟩)

theorem enqueue (request : ResourceRequest) (nowMs : Nat) :
    Indexed (controller.enqueue request nowMs).2 := by
  obtain ⟨error, he⟩ | ⟨position, he, -⟩ | ⟨he, -, -, -, fresh⟩ :=
    enqueue_cases controller request nowMs <;> rw [he]
  · exact h
  · exact h
  · exact h.pushQueued fresh

theorem admitRequest (request : ResourceRequest) (nowMs : Nat) :
    Indexed (controller.admitRequest request nowMs).2 := by
  obtain ⟨reason, he, -⟩ | ⟨position, reason, next, he, hq, -⟩ | ⟨he, -⟩ | ⟨he, -⟩ :=
    admitRequest_cases controller request nowMs <;> rw [he]
  · exact h
  · have kept := h.enqueue request nowMs
    rwa [hq] at kept
  · exact h.of_eq rfl rfl
  · exact h

/-- The queue without the entries of one key, and the index without that key. -/
theorem filter (key : Nat × Nat) :
    Indexed { controller with
      queuedRequests := controller.queuedRequests.filter (·.key ≠ key)
      queuedAttempts := controller.queuedAttempts.erase key } := by
  constructor
  · intro other
    simp only [Finset.mem_erase, h.index, mem_filter, decide_eq_true_eq]
    constructor
    · rintro ⟨ne, queued, mem, rfl⟩
      exact ⟨queued, ⟨mem, ne⟩, rfl⟩
    · rintro ⟨queued, ⟨mem, ne⟩, rfl⟩
      exact ⟨ne, queued, mem, rfl⟩
  · exact h.keys_nodup.sublist (filter_sublist.map _)

theorem popQueued : Indexed controller.popQueued.2 := by
  unfold AdmissionController.popQueued
  cases hqueue : controller.queuedRequests with
  | nil => exact h
  | cons front rest =>
      have distinct := h.keys_nodup
      rw [hqueue, map_cons, nodup_cons] at distinct
      have kept : (front :: rest).filter (·.key ≠ front.key) = rest := by
        rw [filter_cons_of_neg (by simp), filter_eq_self]
        intro queued mem
        have other : queued.key ≠ front.key := fun same =>
          distinct.1 (same ▸ mem_map_of_mem mem)
        exact decide_eq_true other
      have filtered := h.filter front.key
      rw [hqueue, kept] at filtered
      exact filtered

theorem removeQueued (taskId attemptId : Nat) :
    Indexed (controller.removeQueued taskId attemptId).2 := by
  have same (queued : ResourceRequest) :
      decide (queued.taskId ≠ taskId ∨ queued.attemptId ≠ attemptId) =
        decide (queued.key ≠ (taskId, attemptId)) := by
    rw [decide_eq_decide, ResourceRequest.key, ne_eq (queued.taskId, _), Prod.mk.injEq, not_and_or]
  unfold AdmissionController.removeQueued
  simp only [same]
  split
  · exact h.filter _
  · rename_i all
    rw [not_not] at all
    refine h.of_eq ?_ rfl
    exact filter_eq_self.mpr (length_filter_eq_length_iff.mp all)

theorem step (op : AdmissionOp) :
    Indexed (AdmissionController.step controller op) := by
  cases op with
  | admitRequest request nowMs => exact h.admitRequest request nowMs
  | enqueue request nowMs => exact h.enqueue request nowMs
  | popQueued => exact h.popQueued
  | removeQueued taskId attemptId => exact h.removeQueued taskId attemptId
  | release leaseId =>
      simp only [AdmissionController.step]
      obtain he | ⟨lease, -, he⟩ := release_cases controller leaseId <;> rw [he]
      · exact h
      · exact h.of_eq rfl rfl
  | releaseFenced token =>
      simp only [AdmissionController.step]
      obtain ⟨error, he⟩ | ⟨lease, -, -, he⟩ := releaseFenced_cases controller token <;> rw [he]
      · exact h
      · exact h.of_eq rfl rfl
  | capacityFeedback sample => exact h.of_eq rfl rfl

end

theorem run (initial : Initial start) (ops : List AdmissionOp) :
    Indexed (Foundation.run AdmissionController.step start ops) :=
  run_invariant (fun _ op h => h.step op) ops (of_initial initial)

end Indexed

/-! ### Looking a request up -/

/-- A queued request is found at its place. -/
theorem Indexed.queuedAttempt_of_getElem (h : Indexed controller)
    (queued : controller.queuedRequests[position]? = some request) :
    controller.queuedAttempt request.taskId request.attemptId = some (position + 1, request) := by
  obtain ⟨inside, found⟩ := List.getElem?_eq_some_iff.mp queued
  have indexed : (request.taskId, request.attemptId) ∈ controller.queuedAttempts :=
    (h.index _).mpr ⟨request, found ▸ List.getElem_mem inside, rfl⟩
  have first : controller.queuedRequests.zipIdx.find? (fun entry =>
      decide (entry.1.taskId = request.taskId ∧ entry.1.attemptId = request.attemptId)) =
        some (request, position) := by
    rw [List.find?_eq_some_iff_getElem]
    refine ⟨by simp, position, by simpa using inside, by simp [found], fun earlier before => ?_⟩
    have distinct : controller.queuedRequests[earlier].key ≠ request.key := by
      have apart := List.pairwise_iff_getElem.mp h.keys_nodup earlier position
        (by simp; omega) (by simpa using inside) before
      simpa [found] using apart
    simpa [ResourceRequest.key, ← not_and_or] using distinct
  rw [queuedAttempt, if_neg (not_not.mpr indexed), first]
  rfl

theorem Indexed.queuedAttempt_eq_none (h : Indexed controller)
    (absent : ∀ queued ∈ controller.queuedRequests, queued.key ≠ request.key) :
    controller.queuedAttempt request.taskId request.attemptId = none ∧
      request.key ∉ controller.queuedAttempts := by
  have unindexed : request.key ∉ controller.queuedAttempts := fun mem => by
    obtain ⟨queued, mem, same⟩ := (h.index _).mp mem
    exact absent queued mem same
  exact ⟨if_pos unindexed, unindexed⟩

/-- The key of the request is taken by another request in the queue. -/
def HasRival (controller : AdmissionController) (request : ResourceRequest) : Prop :=
  ∃ queued ∈ controller.queuedRequests, queued.key = request.key ∧ queued ≠ request

/-- A valid request is queued, or found in the queue, unless the queue is full or its key is
taken. -/
theorem Indexed.enqueue_ok_iff (h : Indexed controller) (valid : request.validate nowMs = .ok ())
    (room : controller.queuedRequests.length < controller.queueLimit) :
    (∃ position next, controller.enqueue request nowMs = (.ok position, next)) ↔
      ¬ HasRival controller request := by
  unfold AdmissionController.enqueue
  by_cases taken : ∃ queued ∈ controller.queuedRequests, queued.key = request.key
  · obtain ⟨queued, mem, same⟩ := taken
    obtain ⟨place, inside, rfl⟩ := mem_iff_getElem.mp mem
    have found := h.queuedAttempt_of_getElem (getElem?_eq_getElem inside)
    obtain ⟨task, attempt⟩ := Prod.mk.inj same
    rw [task, attempt] at found
    simp only [valid, found]
    constructor
    · rintro ⟨position, next, done⟩ ⟨rival, mem', key, other⟩
      split at done
      · rename_i own
        refine other (own ▸ ?_)
        exact inj_on_of_nodup_map h.keys_nodup mem' mem (key.trans same.symm)
      · cases done
    · intro alone
      have own : controller.queuedRequests[place] = request := by
        by_contra other
        exact alone ⟨_, mem, same, other⟩
      exact ⟨place + 1, controller, if_pos own⟩
  · have absent : ∀ queued ∈ controller.queuedRequests, queued.key ≠ request.key :=
      fun queued mem same => taken ⟨queued, mem, same⟩
    obtain ⟨unfound, unindexed⟩ := h.queuedAttempt_eq_none absent
    simp only [valid, unfound, if_neg (Nat.not_le.mpr room), if_neg unindexed]
    exact iff_of_true ⟨_, _, rfl⟩ fun ⟨queued, mem, same, _⟩ => absent queued mem same

/-! ### Answers -/

/-- A background request waits for critical pressure to pass, and another request holds its key. -/
structure Clashes (controller : AdmissionController) (request : ResourceRequest) (nowMs : Nat) :
    Prop where
  valid : request.validate nowMs = .ok ()
  capable : controller.acceleratorDenial request = none
  deferred : controller.deferred request = true
  room : controller.queuedRequests.length < controller.queueLimit
  rival : HasRival controller request

theorem Indexed.answers_iff (h : Indexed controller) (request : ResourceRequest) (nowMs : Nat) :
    (∃ decision, (controller.admitRequest request nowMs).1 = some decision) ↔
      ¬ Clashes controller request nowMs := by
  unfold AdmissionController.admitRequest
  cases valid : request.validate nowMs with
  | error error => exact iff_of_true ⟨_, rfl⟩ fun clash => nomatch valid.symm.trans clash.valid
  | ok _ =>
      cases capable : controller.acceleratorDenial request with
      | some error =>
          exact iff_of_true ⟨_, rfl⟩ fun clash => nomatch capable.symm.trans clash.capable
      | none =>
          by_cases deferred : controller.deferred request = true
          · by_cases room : controller.queuedRequests.length < controller.queueLimit
            · have queues := h.enqueue_ok_iff valid room
              have clashes : Clashes controller request nowMs ↔ HasRival controller request :=
                ⟨Clashes.rival, fun rival => ⟨valid, capable, deferred, room, rival⟩⟩
              rw [clashes, ← queues]
              simp only [if_pos deferred, if_pos room]
              cases controller.enqueue request nowMs with
              | mk answer next => cases answer <;> simp
            · simp only [if_pos deferred, if_neg room]
              exact iff_of_true ⟨_, rfl⟩ fun clash => room clash.room
          · simp only [if_neg deferred]
            refine iff_of_true ?_ fun clash => deferred clash.deferred
            split
            · exact ⟨_, rfl⟩
            · split
              · split <;> exact ⟨_, rfl⟩
              · exact ⟨_, rfl⟩

/-- In every state that calls reach, the controller answers a request unless it is a background
request under critical pressure whose key is queued for another request. -/
theorem run_answers_iff (initial : Initial start) (ops : List AdmissionOp)
    (request : ResourceRequest) (nowMs : Nat) :
    (∃ decision, ((run step start ops).admitRequest request nowMs).1 = some decision) ↔
      ¬ Clashes (run step start ops) request nowMs :=
  (Indexed.run initial ops).answers_iff request nowMs

/-- Background work of task 1, with this much memory. -/
def backgroundRequest (hostMemoryBytes : Nat) : ResourceRequest :=
  { ResourceRequest.minimal 1 .nativeTask with hostMemoryBytes, priority := .background }

def criticalSample : ResourceUsageSample where
  cpuThreadsActive := 0
  hostMemoryBytes := some 100
  hostMemoryAvailableBytes := some 2
  memoryPressure := true

/-- Two background requests of one attempt: the first one finds the queue empty. -/
theorem deferredBackground_answered :
    ∃ decision, ((run step (new smallCapacity 2)
      [.capacityFeedback criticalSample]).admitRequest (backgroundRequest 1) 0).1 = some decision :=
  (run_answers_iff (.new smallCapacity 2) _ (backgroundRequest 1) 0).mpr fun clash => by
    obtain ⟨queued, mem, -⟩ := clash.rival
    have empty : (run step (new smallCapacity 2)
      [.capacityFeedback criticalSample]).queuedRequests = [] := by decide
    rw [empty] at mem
    cases mem

/-- The second one, for another amount of memory, finds its key taken. -/
theorem rivalBackground_unanswered :
    Initial (new smallCapacity 2) ∧
      ((run step (new smallCapacity 2) [.capacityFeedback criticalSample,
        .admitRequest (backgroundRequest 1) 0]).admitRequest (backgroundRequest 2) 0).1 = none :=
  ⟨.new smallCapacity 2, by decide⟩

/-- A repeated request that still cannot start keeps its place if the queue has room and the
accelerators are not what it lacks. -/
theorem Indexed.resubmission_iff (h : Indexed controller)
    (queued : controller.queuedRequests[position]? = some request)
    (valid : request.validate nowMs = .ok ()) (blocked : Blocked controller request) :
    (∃ reason, controller.admitRequest request nowMs =
        (some (.queued (position + 1) reason), controller)) ↔
      controller.queuedRequests.length < controller.queueLimit ∧
        controller.acceleratorDenial request = none := by
  have found := h.queuedAttempt_of_getElem queued
  have repeated : controller.enqueue request nowMs = (.ok (position + 1), controller) := by
    simp only [AdmissionController.enqueue, valid, found, if_true]
  unfold AdmissionController.admitRequest
  simp only [valid, repeated]
  cases controller.acceleratorDenial request with
  | some error => simp
  | none =>
      by_cases room : controller.queuedRequests.length < controller.queueLimit
      · obtain deferred | unfit := blocked
        · simp [deferred, room]
        · by_cases deferred : controller.deferred request = true <;> simp [deferred, unfit, room]
      · obtain deferred | unfit := blocked
        · simp [deferred, room]
        · by_cases deferred : controller.deferred request = true <;> simp [deferred, unfit, room]

/-- In every state that calls reach: re-submitting a queued request that is valid and blocked is
answered by its place, without any change, exactly if the queue is not full and the accelerators
that it asks for are there. -/
theorem run_resubmission_iff (initial : Initial start) (ops : List AdmissionOp)
    (request : ResourceRequest) (position nowMs : Nat)
    (queued : (run step start ops).queuedRequests[position]? = some request)
    (valid : request.validate nowMs = .ok ())
    (blocked : Blocked (run step start ops) request) :
    (∃ reason, (run step start ops).admitRequest request nowMs =
        (some (.queued (position + 1) reason), run step start ops)) ↔
      (run step start ops).queuedRequests.length < (run step start ops).queueLimit ∧
        (run step start ops).acceleratorDenial request = none :=
  (Indexed.run initial ops).resubmission_iff queued valid blocked

/-- One background request deferred under critical pressure. -/
def deferredOnce : List AdmissionOp :=
  [.capacityFeedback criticalSample, .admitRequest (backgroundRequest 1) 0]

theorem deferredOnce_keeps_place :
    ∃ reason, (run step (new smallCapacity 2) deferredOnce).admitRequest (backgroundRequest 1) 0 =
      (some (.queued 1 reason), run step (new smallCapacity 2) deferredOnce) :=
  (run_resubmission_iff (.new smallCapacity 2) deferredOnce (backgroundRequest 1) 0 0 (by decide)
    (by decide) (.inl (by decide))).mpr ⟨by decide, by decide⟩

/-- In a queue for one, the request that fills it is turned away when it is repeated. -/
theorem fullQueue_refuses_repeat :
    (run step (new smallCapacity 1) deferredOnce).queuedRequests[0]? = some (backgroundRequest 1) ∧
      (backgroundRequest 1).validate 0 = .ok () ∧
      Blocked (run step (new smallCapacity 1) deferredOnce) (backgroundRequest 1) ∧
      (run step (new smallCapacity 1) deferredOnce).admitRequest (backgroundRequest 1) 0 =
        (some (.rejected .resourceExhausted), run step (new smallCapacity 1) deferredOnce) :=
  ⟨by decide, by decide, .inl (by decide), by decide⟩

end AdmissionController

end Aegis.Resource
