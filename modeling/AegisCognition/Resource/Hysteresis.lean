import AegisCognition.Foundation.Latest
import AegisCognition.Resource.Conservation

/-!
# Hysteresis of the memory pressure

The controller gets worse at once and better slowly. One counter serves both recoveries: in the
critical state it counts the samples at the end of the history with fifteen percent free, in the
guarded state those with thirty-five. Every change of state clears it, so no sample counts for two
recoveries.
-/

namespace Aegis.Resource

open Std Foundation Bool

/-- The sample reports no critical pressure, and at least this much of the memory is known to be
free. -/
def HealthyAbove (percent : Nat) (sample : ResourceUsageSample) : Prop :=
  criticalSignal sample = false ∧ (availableMemoryPercent sample).any (percent ≤ ·) = true

/-- What the counter of healthy samples says about the samples so far. -/
def Counts (samples : List ResourceUsageSample) (healthy : Nat) : MemoryPressureState → Prop
  | .normal => healthy = 0
  | .guarded => healthy < recoverySamplesRequired ∧
      EndsWith (HealthyAbove guardedExitPercent) healthy samples
  | .critical => healthy < recoverySamplesRequired ∧
      EndsWith (HealthyAbove criticalExitPercent) healthy samples

/-- The state that the machine may be in after a sample. -/
structure Moves (samples : List ResourceUsageSample) (sample : ResourceUsageSample)
    (previous next : MemoryPressureState) : Prop where
  alarm : criticalSignal sample = true → next = .critical
  fromCritical : previous = .critical → next = .critical ∨ next = .guarded ∧
    EndsWith (HealthyAbove criticalExitPercent) recoverySamplesRequired (samples ++ [sample])
  fromGuarded : previous = .guarded → next = .normal →
    EndsWith (HealthyAbove guardedExitPercent) recoverySamplesRequired (samples ++ [sample])

section Machine

variable {samples : List ResourceUsageSample} {sample : ResourceUsageSample} {healthy : Nat}
variable {previous held released : MemoryPressureState} {percent : Nat}

theorem counts_zero (samples : List ResourceUsageSample) (state : MemoryPressureState) :
    Counts samples 0 state := by
  cases state with
  | normal => rfl
  | guarded => exact ⟨by decide, endsWith_zero _ _⟩
  | critical => exact ⟨by decide, endsWith_zero _ _⟩

/-- One more healthy sample: the streak grows, and the third one releases. -/
theorem countHealthySample_cases (below : healthy < recoverySamplesRequired) :
    (countHealthySample held released healthy = (held, healthy + 1) ∧
      healthy + 1 < recoverySamplesRequired) ∨
    (countHealthySample held released healthy = (released, healthy + 1) ∧
      healthy + 1 = recoverySamplesRequired) := by
  have small : healthy + 1 ≤ u8Max := by
    unfold recoverySamplesRequired at below
    unfold u8Max
    omega
  rw [countHealthySample, saturatingAdd_of_le small]
  by_cases enough : recoverySamplesRequired ≤ healthy + 1
  · exact .inr ⟨by simp [enough], by omega⟩
  · exact .inl ⟨by simp [enough], by omega⟩

theorem nextMemoryPressure_counts (h : Counts samples healthy previous)
    (sample : ResourceUsageSample) :
    Counts (samples ++ [sample]) (nextMemoryPressure previous healthy sample).2
        (nextMemoryPressure previous healthy sample).1 ∧
      Moves samples sample previous (nextMemoryPressure previous healthy sample).1 := by
  have fresh := counts_zero (samples ++ [sample])
  unfold nextMemoryPressure
  cases alarm : criticalSignal sample with
  | true =>
      cases previous with
      | critical => exact ⟨fresh .critical, fun _ => rfl, fun _ => .inl rfl, nofun⟩
      | normal => exact ⟨fresh .critical, fun _ => rfl, fun _ => .inl rfl, nofun⟩
      | guarded => exact ⟨fresh .critical, fun _ => rfl, fun _ => .inl rfl, nofun⟩
  | false =>
      have calm {p : Prop} : criticalSignal sample = true → p := fun yes =>
        nomatch alarm.symm.trans yes
      cases previous with
      | normal =>
          obtain rfl : healthy = 0 := h
          by_cases low : (availableMemoryPercent sample).any (· < guardedEnterPercent) = true
          · simp only [low, if_true, false_eq_true, if_false]
            exact ⟨fresh .guarded, calm, nofun, nofun⟩
          · simp only [low, if_true, false_eq_true, if_false]
            exact ⟨rfl, calm, nofun, nofun⟩
      | guarded =>
          obtain ⟨below, streak⟩ := h
          by_cases high : (availableMemoryPercent sample).any (guardedExitPercent ≤ ·) = true
          · have longer := streak.snoc (x := sample) ⟨alarm, high⟩
            obtain ⟨same, short⟩ | ⟨same, enough⟩ := @countHealthySample_cases healthy
              .guarded .normal below
            · simp only [high, same, if_true, false_eq_true, if_false]
              exact ⟨⟨short, longer⟩, calm, nofun, nofun⟩
            · simp only [high, same, if_true, false_eq_true, if_false, reduceCtorEq]
              exact ⟨rfl, calm, nofun, fun _ _ => enough ▸ longer⟩
          · simp only [high, if_true, false_eq_true, if_false]
            exact ⟨fresh .guarded, calm, nofun, nofun⟩
      | critical =>
          obtain ⟨below, streak⟩ := h
          by_cases high : (availableMemoryPercent sample).any (criticalExitPercent ≤ ·) = true
          · have longer := streak.snoc (x := sample) ⟨alarm, high⟩
            obtain ⟨same, short⟩ | ⟨same, enough⟩ := @countHealthySample_cases healthy
              .critical .guarded below
            · simp only [high, same, if_true, false_eq_true, if_false]
              exact ⟨⟨short, longer⟩, calm, fun _ => .inl rfl, nofun⟩
            · simp only [high, same, if_true, false_eq_true, if_false, reduceCtorEq]
              exact ⟨fresh .guarded, calm, fun _ => .inr ⟨rfl, enough ▸ longer⟩, nofun⟩
          · simp only [high, if_true, false_eq_true, if_false]
            exact ⟨fresh .critical, calm, fun _ => .inl rfl, nofun⟩

end Machine

namespace AdmissionController

variable {start controller : AdmissionController} {sample : ResourceUsageSample}

/-- The samples among the calls, in order. -/
def readings (ops : List AdmissionOp) : List ResourceUsageSample :=
  ops.filterMap fun
    | .capacityFeedback sample => some sample
    | _ => none

/-- No other call touches the pressure state or its counter. -/
theorem step_pressure (controller : AdmissionController) (op : AdmissionOp) :
    (∃ sample, op = .capacityFeedback sample) ∨
      (controller.step op).memoryPressureState = controller.memoryPressureState ∧
        (controller.step op).healthyMemorySamples = controller.healthyMemorySamples := by
  have queueing (request : ResourceRequest) (nowMs : Nat) :
      (controller.enqueue request nowMs).2.memoryPressureState = controller.memoryPressureState ∧
        (controller.enqueue request nowMs).2.healthyMemorySamples =
          controller.healthyMemorySamples := by
    obtain ⟨error, he⟩ | ⟨position, he, -⟩ | ⟨he, -⟩ := enqueue_cases controller request nowMs <;>
      rw [he] <;> exact ⟨rfl, rfl⟩
  cases op with
  | admitRequest request nowMs =>
      refine .inr ?_
      simp only [step]
      obtain ⟨reason, he, -⟩ | ⟨position, reason, next, he, hq, -⟩ | ⟨he, -⟩ | ⟨he, -⟩ :=
        admitRequest_cases controller request nowMs <;> rw [he]
      · exact ⟨rfl, rfl⟩
      · have kept := queueing request nowMs
        rwa [hq] at kept
      · exact ⟨rfl, rfl⟩
      · exact ⟨rfl, rfl⟩
  | enqueue request nowMs => exact .inr (queueing request nowMs)
  | popQueued =>
      refine .inr ?_
      simp only [step, popQueued]
      split <;> exact ⟨rfl, rfl⟩
  | removeQueued taskId attemptId =>
      refine .inr ?_
      simp only [step, removeQueued]
      split <;> exact ⟨rfl, rfl⟩
  | release leaseId =>
      refine .inr ?_
      simp only [step]
      obtain he | ⟨lease, -, he⟩ := release_cases controller leaseId <;> rw [he] <;>
        exact ⟨rfl, rfl⟩
  | releaseFenced token =>
      refine .inr ?_
      simp only [step]
      obtain ⟨error, he⟩ | ⟨lease, -, -, he⟩ := releaseFenced_cases controller token <;> rw [he] <;>
        exact ⟨rfl, rfl⟩
  | capacityFeedback sample => exact .inl ⟨sample, rfl⟩

theorem run_counts (initial : Initial start) (ops : List AdmissionOp) :
    Counts (readings ops) (run step start ops).healthyMemorySamples
      (run step start ops).memoryPressureState := by
  induction ops using List.reverseRecOn with
  | nil => cases initial <;> exact rfl
  | append_singleton ops op ih =>
      have longer : readings (ops ++ [op]) = readings ops ++ readings [op] := List.filterMap_append
      rw [run_append, run_cons, run_nil, longer]
      obtain ⟨sample, rfl⟩ | ⟨state, healthy⟩ := step_pressure (run step start ops) op
      · exact (nextMemoryPressure_counts ih sample).1
      · rw [state, healthy]
        cases op with
        | capacityFeedback sample =>
            rw [← state, ← healthy]
            exact (nextMemoryPressure_counts ih sample).1
        | _ => exact (List.append_nil (readings ops)).symm ▸ ih

/-- Nothing is granted to background work under critical pressure. -/
theorem admitRequest_critical {request : ResourceRequest}
    (critical : controller.memoryPressureState = .critical)
    (background : request.priority = .background) (nowMs : Nat) (lease : ResourceLease) :
    (controller.admitRequest request nowMs).1 ≠ some (.admitted lease) := by
  have deferred : controller.deferred request = true := by
    simp [AdmissionController.deferred, critical, background]
  intro granted
  obtain ⟨reason, he, -⟩ | ⟨position, reason, next, he, -⟩ | ⟨-, -, -, prompt, -⟩ | ⟨he, -⟩ :=
    admitRequest_cases controller request nowMs
  · rw [he] at granted
    cases granted
  · rw [he] at granted
    cases granted
  · rw [deferred] at prompt
    cases prompt
  · rw [he] at granted
    cases granted

/-- After any calls, in any order, on a new controller: a sample with a critical signal leads to
the critical state, the critical state is only left for the guarded one and the guarded one only
for the normal one after three healthy samples in a row, no other call changes the state, and
in the critical state no lease goes to background work. -/
theorem run_memory_pressure (initial : Initial start) (ops : List AdmissionOp) :
    (∀ sample, Moves (readings ops) sample (run step start ops).memoryPressureState
      ((run step start ops).capacityFeedback sample).2.memoryPressureState) ∧
    (∀ op, (∀ sample, op ≠ .capacityFeedback sample) →
      ((run step start ops).step op).memoryPressureState =
        (run step start ops).memoryPressureState) ∧
    ∀ request nowMs lease, (run step start ops).memoryPressureState = .critical →
      request.priority = .background →
        ((run step start ops).admitRequest request nowMs).1 ≠ some (.admitted lease) := by
  refine ⟨fun sample => (nextMemoryPressure_counts (run_counts initial ops) sample).2,
    fun op other => ?_, fun request nowMs lease critical background =>
      admitRequest_critical critical background nowMs lease⟩
  obtain ⟨sample, rfl⟩ | ⟨state, -⟩ := step_pressure (run step start ops) op
  · exact absurd rfl (other sample)
  · exact state

def freeSample (hostMemoryAvailableBytes : Nat) : ResourceUsageSample where
  cpuThreadsActive := 0
  hostMemoryBytes := some 100
  hostMemoryAvailableBytes := some hostMemoryAvailableBytes
  memoryPressure := false

/-- Five percent free, then twice sixteen and a third time. -/
theorem threeSamples_leave_critical :
    ((run step (new smallCapacity 2) [.capacityFeedback (freeSample 5),
      .capacityFeedback (freeSample 16), .capacityFeedback (freeSample 16)]).capacityFeedback
        (freeSample 16)).2.memoryPressureState = .guarded ∧
      EndsWith (HealthyAbove 15) 3 [freeSample 5, freeSample 16, freeSample 16, freeSample 16] := by
  have guarded : ((run step (new smallCapacity 2) [.capacityFeedback (freeSample 5),
      .capacityFeedback (freeSample 16), .capacityFeedback (freeSample 16)]).capacityFeedback
        (freeSample 16)).2.memoryPressureState = .guarded := by decide
  have left := ((run_memory_pressure (.new smallCapacity 2) [.capacityFeedback (freeSample 5),
    .capacityFeedback (freeSample 16), .capacityFeedback (freeSample 16)]).1
      (freeSample 16)).fromCritical (by decide)
  obtain stayed | ⟨-, streak⟩ := left
  · rw [guarded] at stayed
    cases stayed
  · exact ⟨guarded, streak⟩

end AdmissionController

end Aegis.Resource
