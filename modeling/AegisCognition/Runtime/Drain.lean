import AegisCognition.Runtime.Operation

/-!
# The order of a drain

A drain takes entries off the front of the queue and tries them again. It stops at an entry that
has to go on waiting. If that entry waits for its backoff it is left where it is; if it waits for a
lane or for capacity it has been taken off already, and it goes to the back. So the order of the
queue is kept exactly if the entry that goes to the back has nothing behind it.

An entry that is admitted is never overtaken by the drain: everything ahead of it has left.
-/

namespace Aegis.Runtime

open Std Foundation Resource Aegis.Task AdmissionController List

namespace AuthoritativeRuntime

variable {runtime : AuthoritativeRuntime} {request : ResourceRequest} {nowMs : Nat}
variable {rest : List ResourceRequest}

/-- The front entry is tried, cannot start, and is queued again. -/
structure PutsBack (runtime : AuthoritativeRuntime) (request : ResourceRequest) (nowMs : Nat) :
    Prop where
  tried : ∃ attemptKind, runtime.queuedAttemptKind request = .ok attemptKind ∧
    runtime.attemptRefusal request nowMs attemptKind = none
  blocked : ¬ Startable runtime.dropFront request nowMs
  queueable : Queueable runtime.dropFront request nowMs

theorem PutsBack.drainOnce_eq (h : PutsBack runtime request nowMs)
    (queue : runtime.admission.queuedRequests = request :: rest) :
    ∃ attemptKind, runtime.attemptRefusal request nowMs attemptKind = none ∧
      runtime.drainOnce nowMs = runtime.readmitFront request nowMs attemptKind := by
  obtain ⟨attemptKind, kind, passes⟩ := h.tried
  refine ⟨attemptKind, passes, ?_⟩
  obtain ⟨card, ledger, found, -, due, -⟩ :=
    attemptRefusal_none passes (runtime.admission.issueLease request nowMs) rfl rfl
  simp only [drainOnce, peekQueued, queue, List.head?_cons, kind]
  cases attemptKind with
  | initial => rfl
  | retry =>
      obtain ⟨ahead, passed⟩ := due
      simp only [found, ahead, passed, Bool.false_eq_true, if_false]

/-- An iteration leaves the queue as it is, takes its front entry off, or moves it to the back. -/
theorem Consistent.drainOnce_front (h : Consistent runtime)
    (queue : runtime.admission.queuedRequests = request :: rest) (nowMs : Nat) :
    (runtime.drainOnce nowMs = (.stop, runtime) ∧ ¬ PutsBack runtime request nowMs) ∨
    (∃ result, (runtime.drainOnce nowMs).1 = .yield result true ∧ resultKey result = request.key ∧
      (runtime.drainOnce nowMs).2.admission.queuedRequests = rest ∧
      ¬ PutsBack runtime request nowMs) ∨
    (∃ position reason, (runtime.drainOnce nowMs).1 =
        .yield ⟨request.taskId, request.attemptId, .queued position reason⟩ false ∧
      (runtime.drainOnce nowMs).2.admission.queuedRequests = rest ++ [request] ∧
      PutsBack runtime request nowMs) := by
  obtain ⟨-, fresh, left⟩ := h.dropFront queue
  by_cases back : PutsBack runtime request nowMs
  · obtain ⟨attemptKind, passes, he⟩ := back.drainOnce_eq queue
    have passes' : runtime.dropFront.attemptRefusal request nowMs attemptKind = none := passes
    obtain ⟨outcome, -, -, refused⟩ | ⟨outcome, -, -, -, closed⟩ |
      ⟨position, reason, card, same, -⟩ | ⟨card, ledger, limit, -, -, -, -, -, startable, -⟩ :=
      admitExisting_cases fresh nowMs attemptKind
    · exact nomatch passes'.symm.trans refused
    · exact absurd back.queueable closed
    · refine .inr (.inr ⟨position, reason, ?_, ?_, back⟩)
      · simp only [he, readmitFront, same, isQueued, Bool.not_true]
      · have queued : (runtime.dropFront.withQueued request).admission.queuedRequests =
            runtime.dropFront.admission.queuedRequests ++ [request] := rfl
        simp only [he, readmitFront, same, queued, left]
    · exact absurd startable back.blocked
  · obtain he | ⟨request', rest', card, attemptKind, queue', found, waiting, hmove⟩ :=
      drainOnce_cases h nowMs
    · exact .inl ⟨he, back⟩
    · obtain ⟨rfl, rfl⟩ := List.cons.inj (queue.symm.trans queue')
      refine .inr (.inl ?_)
      obtain ⟨ledger, he, -⟩ | he := hmove
      · rw [he]
        exact ⟨_, rfl, rfl, left, back⟩
      · rw [he, readmitFront]
        obtain ⟨outcome, same, declined, -⟩ | ⟨outcome, same, declined, -⟩ |
          ⟨position, reason, card', same, -, -, blocked, queueable⟩ |
          ⟨card', ledger, limit, same, -⟩ := admitExisting_cases fresh nowMs attemptKind
        · simp only [same]
          cases declined <;> exact ⟨_, rfl, rfl, left, back⟩
        · simp only [same]
          cases declined <;> exact ⟨_, rfl, rfl, left, back⟩
        · -- An entry that is queued again has been put back.
          refine absurd ⟨⟨attemptKind, queuedAttemptKind_of_waiting found waiting, ?_⟩, blocked,
            queueable⟩ back
          cases refusal : runtime.attemptRefusal request nowMs attemptKind with
          | none => rfl
          | some outcome =>
              have refusal' : runtime.dropFront.attemptRefusal request nowMs attemptKind =
                some outcome := refusal
              have declined := attemptRefusal_declined refusal
              simp only [AuthoritativeRuntime.admitExisting, refusal'] at same
              obtain rfl := Option.some.inj (Prod.mk.inj same).1
              cases declined
        · simp only [same]
          exact ⟨_, rfl, rfl, left, back⟩

/-- The front entry is not about to be moved behind another one. -/
def KeepsFront (runtime : AuthoritativeRuntime) (nowMs : Nat) : Prop :=
  ∀ request rest, runtime.admission.queuedRequests = request :: rest →
    PutsBack runtime request nowMs → rest = []

/-- No iteration of the drain moves an entry behind another one. -/
def KeepsOrder (nowMs : Nat) : Nat → AuthoritativeRuntime → Prop
  | 0, _ => True
  | remaining + 1, runtime =>
      KeepsFront runtime nowMs ∧ ∀ result, (runtime.drainOnce nowMs).1 = .yield result true →
        KeepsOrder nowMs remaining (runtime.drainOnce nowMs).2

theorem keepsFront_of_not_putsBack (queue : runtime.admission.queuedRequests = request :: rest)
    (stays : ¬ PutsBack runtime request nowMs) : KeepsFront runtime nowMs := by
  intro request' rest' same back
  obtain ⟨rfl, rfl⟩ := List.cons.inj (queue.symm.trans same)
  exact absurd back stays

/-- What a drain does to the queue: some entries have left it, admitted ones among them, and the
others are still in their order, or the first of them is behind the rest. -/
structure Drained (before after : List ResourceRequest) (results : List QueuedRuntimeAdmission)
    (taken left : List ResourceRequest) : Prop where
  split : before = taken ++ left
  admitted : ∀ result ∈ results, (∃ token, result.admission = .admitted token) →
    resultKey result ∈ taken.map ResourceRequest.key
  perm : after.Perm left

theorem Drained.nothing {queue : List ResourceRequest} : Drained queue queue [] [] queue :=
  ⟨rfl, fun _ mem => (by cases mem), .refl _⟩

theorem Consistent.drainLoop_order (h : Consistent runtime) (nowMs remaining : Nat) :
    ∃ results taken left,
      (AuthoritativeRuntime.drainLoop nowMs remaining runtime).1 = some results ∧
      Drained runtime.admission.queuedRequests
        (AuthoritativeRuntime.drainLoop nowMs remaining runtime).2.admission.queuedRequests
        results taken left ∧
      (KeepsOrder nowMs remaining runtime ↔
        (AuthoritativeRuntime.drainLoop nowMs remaining runtime).2.admission.queuedRequests =
          left) := by
  induction remaining generalizing runtime with
  | zero => exact ⟨[], [], _, rfl, .nothing, iff_of_true trivial rfl⟩
  | succ remaining ih =>
      have next := (h.drainOnce nowMs).1
      cases queue : runtime.admission.queuedRequests with
      | nil =>
          have stops : runtime.drainOnce nowMs = (.stop, runtime) := by
            simp [AuthoritativeRuntime.drainOnce, peekQueued, queue]
          simp only [AuthoritativeRuntime.drainLoop, stops, queue, KeepsOrder]
          refine ⟨[], [], [], rfl, .nothing, iff_of_true ⟨?_, fun _ yields => by cases yields⟩ rfl⟩
          intro request rest same
          rw [queue] at same
          cases same
      | cons request rest =>
          obtain ⟨stops, stays⟩ | ⟨result, yields, key, left, stays⟩ |
            ⟨position, reason, yields, left, back⟩ := h.drainOnce_front queue nowMs
          · simp only [AuthoritativeRuntime.drainLoop, stops, queue, KeepsOrder]
            exact ⟨[], [], request :: rest, rfl, .nothing,
              iff_of_true ⟨keepsFront_of_not_putsBack queue stays,
                fun _ yields => by cases yields⟩ rfl⟩
          · obtain ⟨results, taken, others, returned, drained, order⟩ := ih next
            have front := keepsFront_of_not_putsBack queue stays
            cases once : runtime.drainOnce nowMs with
            | mk progress after =>
                rw [once] at yields returned drained order left
                subst yields
                simp only [AuthoritativeRuntime.drainLoop, once, KeepsOrder, returned,
                  Option.map_some]
                refine ⟨result :: results, request :: taken, others, rfl,
                  ⟨?_, ?_, drained.perm⟩, ?_⟩
                · rw [← left, drained.split, cons_append]
                · intro found mem admitted
                  obtain rfl | mem := mem_cons.mp mem
                  · exact key ▸ mem_cons_self
                  · exact mem_cons_of_mem _ (drained.admitted found mem admitted)
                · rw [← order]
                  exact ⟨fun kept => kept.2 result rfl, fun kept => ⟨front, fun _ _ => kept⟩⟩
          · have distinct := h.keys_nodup
            rw [queue, map_cons, nodup_cons] at distinct
            cases once : runtime.drainOnce nowMs with
            | mk progress after =>
                rw [once] at yields left
                subst yields
                have left : after.admission.queuedRequests = rest ++ [request] := left
                simp only [AuthoritativeRuntime.drainLoop, once, KeepsOrder]
                rw [left]
                refine ⟨_, [], request :: rest, rfl, ⟨rfl, ?_, perm_append_singleton _ _⟩, ?_⟩
                · rintro found mem ⟨token, admitted⟩
                  obtain rfl := mem_singleton.mp mem
                  cases admitted
                · cases rest with
                  | nil =>
                      refine iff_of_true ⟨?_, fun _ yields => by cases yields⟩ rfl
                      intro request' rest' same back
                      exact (List.cons.inj (queue.symm.trans same)).2.symm
                  | cons other rest =>
                      refine iff_of_false (fun kept => ?_) fun same => ?_
                      · exact cons_ne_nil _ _ (kept.1 request _ queue back)
                      · obtain ⟨rfl, -⟩ := List.cons.inj same
                        exact distinct.1 (mem_map_of_mem mem_cons_self)

/-- The drain was first-in, first-out: what is in the queue before and after it has kept its order,
and whatever was ahead of an admitted request has left. -/
structure FirstInFirstOut (before after : List ResourceRequest)
    (results : List QueuedRuntimeAdmission) : Prop where
  order : before.filter (· ∈ after) = after.filter (· ∈ before)
  admitted : ∀ result ∈ results, (∃ token, result.admission = .admitted token) →
    ∀ earlier request later, before = earlier ++ request :: later →
      request.key = resultKey result → ∀ ahead ∈ earlier, ahead ∉ after

section Drained

variable {before after taken left : List ResourceRequest} {results : List QueuedRuntimeAdmission}

theorem Drained.left_of_admitted (h : Drained before after results taken left)
    (distinct : (before.map ResourceRequest.key).Nodup) :
    ∀ result ∈ results, (∃ token, result.admission = .admitted token) →
      ∀ earlier request later, before = earlier ++ request :: later →
        request.key = resultKey result → ∀ ahead ∈ earlier, ahead ∉ after := by
  intro result mem admitted earlier request later split key ahead inEarlier inAfter
  have inLeft : ahead ∈ left := h.perm.mem_iff.mp inAfter
  have taken' := h.admitted result mem admitted
  have apart : ∀ first ∈ taken, ∀ second ∈ left, first.key ≠ second.key := by
    intro first inTaken second inLeft
    rw [h.split, map_append, nodup_append] at distinct
    exact distinct.2.2 _ (mem_map_of_mem inTaken) _ (mem_map_of_mem inLeft)
  obtain ⟨owner, inTaken, same⟩ := mem_map.mp taken'
  obtain ⟨gap, rfl, rest⟩ | ⟨gap, rfl, rest⟩ :=
    append_eq_append_iff.mp (h.split.symm.trans split)
  · -- The request would be among those that are left.
    have stays : request ∈ left := rest ▸ mem_append_right _ mem_cons_self
    exact apart owner inTaken request stays (same.trans key.symm)
  · exact apart ahead (mem_append_left _ inEarlier) ahead inLeft rfl

theorem Drained.firstInFirstOut_iff (h : Drained before after results taken left)
    (distinct : (before.map ResourceRequest.key).Nodup) :
    FirstInFirstOut before after results ↔ after = left := by
  have unique : before.Nodup := distinct.of_map _
  have disjoint : ∀ request ∈ taken, request ∉ left := fun request inTaken inLeft => by
    rw [h.split, nodup_append] at unique
    exact unique.2.2 request inTaken request inLeft rfl
  have first : before.filter (· ∈ after) = left := by
    rw [h.split, filter_append, filter_eq_nil_iff.mpr, nil_append,
      filter_eq_self.mpr]
    · exact fun request mem => decide_eq_true (h.perm.mem_iff.mpr mem)
    · intro request mem
      simpa [h.perm.mem_iff] using disjoint request mem
  have second : after.filter (· ∈ before) = after :=
    filter_eq_self.mpr fun request mem => decide_eq_true
      (h.split ▸ mem_append_right _ (h.perm.mem_iff.mp mem))
  constructor
  · rintro ⟨order, -⟩
    rw [first, second] at order
    exact order.symm
  · intro same
    exact ⟨by rw [first, second, same], h.left_of_admitted distinct⟩

end Drained

/-- In every state that operations reach, a drain returns its results and is first-in, first-out
exactly if none of its iterations moves an entry behind another one. -/
theorem run_drain_firstInFirstOut_iff (deadlineHorizonMs : Nat) (profile : HardwareProfile)
    (ops : List RuntimeOp) (nowMs : Nat) :
    ∃ results, ((run step (new deadlineHorizonMs profile) ops).drainQueued nowMs).1 =
        some results ∧
      (FirstInFirstOut (run step (new deadlineHorizonMs profile) ops).admission.queuedRequests
          ((run step (new deadlineHorizonMs profile) ops).drainQueued
            nowMs).2.admission.queuedRequests results ↔
        KeepsOrder nowMs
          (run step (new deadlineHorizonMs profile) ops).admission.queuedRequests.length
          (run step (new deadlineHorizonMs profile) ops)) := by
  have consistent := run_consistent deadlineHorizonMs profile ops
  obtain ⟨results, taken, left, returned, drained, order⟩ := consistent.drainLoop_order nowMs
    (run step (new deadlineHorizonMs profile) ops).admission.queuedRequests.length
  exact ⟨results, returned, (drained.firstInFirstOut_iff consistent.keys_nodup).trans order.symm⟩

/-- Four tasks for a lane for two: the last two are queued. -/
def twoQueued : List RuntimeOp :=
  [.submit (.new 1 [] 0 none none) (.minimal 1 .nativeTask) 0,
    .submit (.new 2 [] 0 none none) (.minimal 2 .nativeTask) 0,
    .submit (.new 3 [] 0 none none) (.minimal 3 .nativeTask) 0,
    .submit (.new 4 [] 0 none none) (.minimal 4 .nativeTask) 0]

/-- A drain while the lane is full turns the queue around. -/
theorem twoQueued_drain_reorders :
    (run step (new 1000 .small) twoQueued).admission.queuedRequests =
        [.minimal 3 .nativeTask, .minimal 4 .nativeTask] ∧
      ((run step (new 1000 .small) twoQueued).drainQueued 5).2.admission.queuedRequests =
        [.minimal 4 .nativeTask, .minimal 3 .nativeTask] ∧
      ∀ results, ¬ FirstInFirstOut
        (run step (new 1000 .small) twoQueued).admission.queuedRequests
        ((run step (new 1000 .small) twoQueued).drainQueued 5).2.admission.queuedRequests
        results := by
  have before : (run step (new 1000 .small) twoQueued).admission.queuedRequests =
      [.minimal 3 .nativeTask, .minimal 4 .nativeTask] := by decide
  have after : ((run step (new 1000 .small) twoQueued).drainQueued 5).2.admission.queuedRequests =
      [.minimal 4 .nativeTask, .minimal 3 .nativeTask] := by decide
  refine ⟨before, after, fun results fifo => ?_⟩
  have order := fifo.order
  rw [before, after] at order
  exact absurd order (by decide)

end AuthoritativeRuntime

end Aegis.Runtime
