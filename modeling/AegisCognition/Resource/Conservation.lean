import AegisCognition.Resource.Transition

/-!
# Conservation of admitted resources

In each of the seven dimensions the running total is the exact sum over the active
leases and never exceeds the current capacity, although the capacity itself shrinks
and grows under live leases.

The invariant carries three facts the statement does not mention. Lease ids count the
leases issued, so an insertion never overwrites a lease. The running total fits the
machine type, so the growing branch of a capacity step cannot fall below it. The
adaptive process limit is positive, so the critical target stays under it.
-/

namespace Aegis.Resource

open Std Foundation GrantedResources OrderedMap Option

inductive Dimension where
  | cpuThreads
  | hostMemoryBytes
  | acceleratorMemoryBytes
  | ioInFlight
  | processLimit
  | threadLimit
  | fdLimit
  deriving DecidableEq

/-- The largest amount of a dimension: two of the seven are `u64`, the others `u32`. -/
def Dimension.bound : Dimension → Nat
  | .hostMemoryBytes | .acceleratorMemoryBytes => u64Max
  | _ => u32Max

namespace GrantedResources

def amount (granted : GrantedResources) : Dimension → Nat
  | .cpuThreads => granted.cpuThreads
  | .hostMemoryBytes => granted.hostMemoryBytes
  | .acceleratorMemoryBytes => granted.acceleratorMemoryBytes
  | .ioInFlight => granted.ioInFlight
  | .processLimit => granted.processLimit
  | .threadLimit => granted.threadLimit
  | .fdLimit => granted.fdLimit

@[simp] theorem amount_zero (d : Dimension) : zero.amount d = 0 := by
  cases d <;> rfl

theorem fitsWithin_iff {granted capacity used : GrantedResources} :
    granted.fitsWithin capacity used = true ↔
      ∀ d, used.amount d + granted.amount d ≤ d.bound ∧
        used.amount d + granted.amount d ≤ capacity.amount d := by
  simp only [fitsWithin, Bool.and_eq_true, checkedAdd_isSome_le]
  constructor
  · rintro ⟨⟨⟨⟨⟨⟨hcpu, hhost⟩, haccelerator⟩, hio⟩, hprocess⟩, hthread⟩, hfd⟩ d
    cases d <;> assumption
  · intro h
    exact ⟨⟨⟨⟨⟨⟨h .cpuThreads, h .hostMemoryBytes⟩, h .acceleratorMemoryBytes⟩,
      h .ioInFlight⟩, h .processLimit⟩, h .threadLimit⟩, h .fdLimit⟩

end GrantedResources

theorem addResources_amount {left right : GrantedResources} {d : Dimension}
    (h : left.amount d + right.amount d ≤ d.bound) :
    (addResources left right).amount d = left.amount d + right.amount d := by
  cases d <;> exact checkedAdd_getD h

theorem moveTowards_le (current target step : Nat) :
    moveTowards current target step ≤ max current target := by
  simp only [moveTowards]
  split <;> omega

theorem le_moveTowards {low current target step : Nat} (hcurrent : low ≤ current)
    (htarget : low ≤ target) (hlow : low ≤ u64Max) : low ≤ moveTowards current target step := by
  simp only [moveTowards, saturatingAdd]
  split <;> omega

namespace AdmissionController

/-- What the active leases hold in one dimension. -/
def leased (controller : AdmissionController) (d : Dimension) : Nat :=
  ((valueList controller.active).map (fun lease => lease.granted.amount d)).sum

structure Conserved (issued : Nat) (controller : AdmissionController) : Prop where
  nextLeaseId : controller.nextLeaseId = issued + 1
  leaseIdLt : ∀ leaseId lease, controller.active[leaseId]? = some lease →
    leaseId < controller.nextLeaseId
  used_eq : ∀ d, controller.used.amount d = controller.leased d
  used_bound : ∀ d, controller.used.amount d ≤ d.bound
  used_le : ∀ d, controller.used.amount d ≤ controller.capacity.amount d
  capacity_le : ∀ d, d ≠ .processLimit →
    controller.capacity.amount d ≤ controller.baselineCapacity.amount d
  process_le : controller.capacity.processLimit ≤ controller.adaptiveMaxProcessLimit
  adaptive_pos : 1 ≤ controller.adaptiveMaxProcessLimit

variable {controller : AdmissionController} {issued : Nat}

theorem conserved_new (capacity : GrantedResources) (queueLimit : Nat) :
    Conserved 0 (new capacity queueLimit) where
  nextLeaseId := rfl
  leaseIdLt := by simp [new]
  used_eq := by simp [new, leased]
  used_bound := by simp [new]
  used_le := by simp [new]
  capacity_le := fun _ _ => Nat.le_refl _
  process_le := Nat.le_max_left _ _
  adaptive_pos := Nat.le_max_right _ _

theorem hardwareConcurrency_pos (profile : HardwareProfile) :
    2 ≤ hardwareConcurrency profile := by
  unfold hardwareConcurrency
  split <;> omega

theorem conserved_fromHardware (profile : HardwareProfile) :
    Conserved 0 (fromHardware profile) := by
  have hpos := hardwareConcurrency_pos profile
  have base := conserved_new (fromHardware profile).capacity (fromHardware profile).queueLimit
  refine ⟨base.nextLeaseId, base.leaseIdLt, base.used_eq, base.used_bound, base.used_le,
    base.capacity_le, ?_, ?_⟩
  · simp only [fromHardware, new]
    split
    · simp only [hardwareConcurrency, ‹profile.operatingProfile = _›]
      omega
    · exact Nat.le_refl _
    · exact Nat.le_refl _
  · simp only [fromHardware]
    split <;> omega

section

variable (h : Conserved issued controller)
include h

/-- Only the queue, the pressure state and the accelerator inventory may differ. -/
theorem Conserved.of_eq {other : AdmissionController}
    (hnext : other.nextLeaseId = controller.nextLeaseId)
    (hactive : other.active = controller.active) (hused : other.used = controller.used)
    (hcapacity : other.capacity = controller.capacity)
    (hbaseline : other.baselineCapacity = controller.baselineCapacity)
    (hadaptive : other.adaptiveMaxProcessLimit = controller.adaptiveMaxProcessLimit) :
    Conserved issued other := by
  obtain ⟨h1, h2, h3, h4, h5, h6, h7, h8⟩ := h
  constructor <;> simp only [leased, hnext, hactive, hused, hcapacity, hbaseline, hadaptive] <;>
    assumption

theorem Conserved.pushQueued (request : ResourceRequest) :
    Conserved issued (controller.pushQueued request) :=
  h.of_eq rfl rfl rfl rfl rfl rfl

theorem Conserved.enqueue (request : ResourceRequest)
    (nowMs : Nat) : Conserved issued (controller.enqueue request nowMs).2 := by
  obtain ⟨error, he⟩ | ⟨position, he, -⟩ | ⟨he, -⟩ := enqueue_cases controller request nowMs
  · rwa [he]
  · rwa [he]
  · rw [he]
    exact h.pushQueued request

theorem leased_grant (request : ResourceRequest)
    (nowMs : Nat) (d : Dimension) :
    (controller.grant request nowMs).leased d =
      (fromRequest request).amount d + controller.leased d := by
  have fresh : controller.active[controller.nextLeaseId]? = none := by
    cases hlease : controller.active[controller.nextLeaseId]? with
    | none => rfl
    | some lease =>
        have hlt := h.leaseIdLt _ _ hlease
        omega
  have moved := (valueList_insert_perm (v := controller.issueLease request nowMs)
    fresh).map (fun lease => lease.granted.amount d)
  simpa [leased, grant, issueLease] using moved.sum_eq

theorem Conserved.grant (hroom : issued + 1 < u128Max)
    {request : ResourceRequest} (nowMs : Nat)
    (hfits : (fromRequest request).fitsWithin controller.capacity
      controller.used = true) :
    Conserved (issued + 1) (controller.grant request nowMs) := by
  have hfits := fitsWithin_iff.mp hfits
  have hnext : (controller.grant request nowMs).nextLeaseId = issued + 1 + 1 := by
    change saturatingAdd u128Max controller.nextLeaseId 1 = _
    rw [h.nextLeaseId, saturatingAdd_of_le (by omega)]
  have hused : ∀ d, (controller.grant request nowMs).used.amount d =
      controller.used.amount d + (fromRequest request).amount d :=
    fun d => addResources_amount (hfits d).1
  refine ⟨hnext, ?_, ?_, ?_, ?_, h.capacity_le, h.process_le, h.adaptive_pos⟩
  · intro leaseId lease hlease
    have hold := h.nextLeaseId
    rw [hnext]
    obtain ⟨rfl, -⟩ | ⟨-, hlease⟩ := getElem?_insert_eq_some_iff.mp hlease
    · omega
    · have := h.leaseIdLt _ _ hlease
      omega
  · intro d
    rw [hused, leased_grant h, h.used_eq, Nat.add_comm]
  · intro d
    rw [hused]
    exact (hfits d).1
  · intro d
    rw [hused]
    exact (hfits d).2

end

theorem leased_dropLease {leaseId : Nat} {lease : ResourceLease}
    (hactive : controller.active[leaseId]? = some lease) (d : Dimension) :
    controller.leased d =
      lease.granted.amount d + (controller.dropLease leaseId lease).leased d := by
  have moved := (valueList_erase_perm hactive).map
    (fun lease => lease.granted.amount d)
  simpa [leased, dropLease] using moved.sum_eq

theorem Conserved.dropLease (h : Conserved issued controller) {leaseId : Nat}
    {lease : ResourceLease} (hactive : controller.active[leaseId]? = some lease) :
    Conserved issued (controller.dropLease leaseId lease) := by
  have hused : ∀ d, (controller.dropLease leaseId lease).used.amount d =
      controller.used.amount d - lease.granted.amount d := by
    intro d
    cases d <;> rfl
  refine ⟨h.nextLeaseId, ?_, ?_, ?_, ?_, h.capacity_le, h.process_le, h.adaptive_pos⟩
  · intro other otherLease hother
    exact h.leaseIdLt _ _ (getElem?_erase_eq_some_iff.mp hother).2
  · intro d
    have hsum := leased_dropLease hactive d
    rw [hused, h.used_eq]
    omega
  · intro d
    rw [hused]
    exact Nat.le_trans (Nat.sub_le _ _) (h.used_bound d)
  · intro d
    rw [hused]
    exact Nat.le_trans (Nat.sub_le _ _) (h.used_le d)

theorem Conserved.admitRequest (h : Conserved issued controller) (request : ResourceRequest)
    (nowMs : Nat)
    (hroom : issued + controller.leasesIssued (.admitRequest request nowMs) < u128Max) :
    Conserved (issued + controller.leasesIssued (.admitRequest request nowMs))
      (controller.admitRequest request nowMs).2 := by
  obtain ⟨reason, he, -⟩ | ⟨position, reason, next, he, hq, -⟩ |
    ⟨he, -, -, -, hfits⟩ | ⟨he, -⟩ :=
    admitRequest_cases controller request nowMs <;>
    simp only [leasesIssued, he] at hroom ⊢
  · exact h
  · have kept := h.enqueue request nowMs
    rwa [hq] at kept
  · exact h.grant hroom nowMs hfits
  · exact h

section Feedback

variable {sample : ResourceUsageSample} {previousState : MemoryPressureState}

theorem le_memoryTarget (free : Nat) :
    controller.used.hostMemoryBytes ≤ controller.memoryTarget free :=
  Nat.le_max_right _ _

section

variable (h : Conserved issued controller)
include h

theorem adjustedHostMemory_bounds
    (previousState : MemoryPressureState) (sample : ResourceUsageSample) :
    controller.used.hostMemoryBytes ≤ controller.adjustedHostMemory previousState sample ∧
    controller.adjustedHostMemory previousState sample ≤
      controller.baselineCapacity.hostMemoryBytes := by
  have hbound : controller.used.hostMemoryBytes ≤ u64Max := h.used_bound .hostMemoryBytes
  have hused : controller.used.hostMemoryBytes ≤ controller.capacity.hostMemoryBytes :=
    h.used_le .hostMemoryBytes
  have hbase : controller.capacity.hostMemoryBytes ≤
      controller.baselineCapacity.hostMemoryBytes := h.capacity_le .hostMemoryBytes (by decide)
  have htarget : ∀ free, controller.used.hostMemoryBytes ≤
      min (controller.memoryTarget free) controller.baselineCapacity.hostMemoryBytes :=
    fun free => Nat.le_min.mpr ⟨le_memoryTarget free, Nat.le_trans hused hbase⟩
  unfold adjustedHostMemory
  cases hfree : sample.hostMemoryAvailableBytes with
  | none =>
      simp only [map_none, getD_none]
      split
      · exact ⟨htarget _, Nat.min_le_right _ _⟩
      · split <;> exact ⟨hused, hbase⟩
  | some free =>
      simp only [map_some, getD_some]
      split
      · exact ⟨htarget _, Nat.min_le_right _ _⟩
      · split
        · exact ⟨hused, hbase⟩
        · refine ⟨le_moveTowards hused (htarget free) hbound, ?_⟩
          exact Nat.le_trans (moveTowards_le _ _ _)
            (Nat.max_le.mpr ⟨hbase, Nat.min_le_right _ _⟩)

theorem adjustedCpuThreads_bounds
    (sample : ResourceUsageSample) :
    controller.used.cpuThreads ≤ controller.adjustedCpuThreads sample ∧
    controller.adjustedCpuThreads sample ≤ controller.baselineCapacity.cpuThreads := by
  have hused : controller.used.cpuThreads ≤ controller.capacity.cpuThreads :=
    h.used_le .cpuThreads
  have hbase : controller.capacity.cpuThreads ≤ controller.baselineCapacity.cpuThreads :=
    h.capacity_le .cpuThreads (by decide)
  unfold adjustedCpuThreads
  split <;> omega

theorem targetProcessLimit_bounds :
    controller.used.processLimit ≤ controller.targetProcessLimit ∧
    controller.targetProcessLimit ≤ controller.adaptiveMaxProcessLimit := by
  have hused : controller.used.processLimit ≤ controller.capacity.processLimit :=
    h.used_le .processLimit
  have hcapacity := h.process_le
  have hpos := h.adaptive_pos
  unfold targetProcessLimit
  split <;> omega

theorem adjustedProcessLimit_bounds
    (sample : ResourceUsageSample) :
    controller.used.processLimit ≤ controller.adjustedProcessLimit sample ∧
    controller.adjustedProcessLimit sample ≤ controller.adaptiveMaxProcessLimit := by
  have hbound : controller.used.processLimit ≤ u32Max := h.used_bound .processLimit
  have hused : controller.used.processLimit ≤ controller.capacity.processLimit :=
    h.used_le .processLimit
  have hcapacity := h.process_le
  obtain ⟨hlow, hhigh⟩ := targetProcessLimit_bounds h
  unfold adjustedProcessLimit saturatingAdd
  split
  · split <;> omega
  · omega

theorem Conserved.adjustedCapacity :
    Conserved issued
      { controller with capacity := controller.adjustedCapacity previousState sample } := by
  have hhost := adjustedHostMemory_bounds h previousState sample
  have hcpu := adjustedCpuThreads_bounds h sample
  have hprocess := adjustedProcessLimit_bounds h sample
  refine ⟨h.nextLeaseId, h.leaseIdLt, h.used_eq, h.used_bound, ?_, ?_, hprocess.2,
    h.adaptive_pos⟩
  · intro d
    cases d with
    | cpuThreads => exact hcpu.1
    | hostMemoryBytes => exact hhost.1
    | processLimit => exact hprocess.1
    | acceleratorMemoryBytes => exact h.used_le .acceleratorMemoryBytes
    | ioInFlight => exact h.used_le .ioInFlight
    | threadLimit => exact h.used_le .threadLimit
    | fdLimit => exact h.used_le .fdLimit
  · intro d hd
    cases d with
    | cpuThreads => exact hcpu.2
    | hostMemoryBytes => exact hhost.2
    | processLimit => exact absurd rfl hd
    | acceleratorMemoryBytes => exact h.capacity_le .acceleratorMemoryBytes (by decide)
    | ioInFlight => exact h.capacity_le .ioInFlight (by decide)
    | threadLimit => exact h.capacity_le .threadLimit (by decide)
    | fdLimit => exact h.capacity_le .fdLimit (by decide)

theorem Conserved.capacityFeedback :
    Conserved issued (controller.capacityFeedback sample).2 := by
  have hupdated : Conserved issued (controller.updateMemoryPressureState sample) :=
    h.of_eq rfl rfl rfl rfl rfl rfl
  exact hupdated.adjustedCapacity

end

end Feedback

/-- One call keeps the invariant as long as the lease counter does not run out. -/
theorem Conserved.step (h : Conserved issued controller) (op : AdmissionOp)
    (hroom : issued + controller.leasesIssued op < u128Max) :
    Conserved (issued + controller.leasesIssued op) (controller.step op) := by
  cases op with
  | admitRequest request nowMs => exact h.admitRequest request nowMs hroom
  | enqueue request nowMs => exact h.enqueue request nowMs
  | popQueued =>
      simp only [AdmissionController.step, popQueued]
      split
      · exact h
      · exact h.of_eq rfl rfl rfl rfl rfl rfl
  | removeQueued taskId attemptId =>
      simp only [AdmissionController.step, removeQueued]
      split <;> exact h.of_eq rfl rfl rfl rfl rfl rfl
  | release leaseId =>
      simp only [AdmissionController.step]
      obtain he | ⟨lease, hactive, he⟩ := release_cases controller leaseId
      · rwa [he]
      · rw [he]
        exact h.dropLease hactive
  | releaseFenced token =>
      simp only [AdmissionController.step]
      obtain ⟨error, he⟩ | ⟨lease, -, hactive, he⟩ := releaseFenced_cases controller token
      · rwa [he]
      · rw [he]
        exact h.dropLease hactive
  | capacityFeedback sample => exact h.capacityFeedback

theorem Initial.conserved (h : Initial controller) : Conserved 0 controller := by
  cases h with
  | new capacity queueLimit => exact conserved_new capacity queueLimit
  | fromHardware profile => exact conserved_fromHardware profile

/-- Over every run of calls from a new controller that issues fewer than `2 ^ 128 - 1`
leases, the total in use is the exact sum over the active leases and stays within the
adaptive capacity, which stays within its own limits. -/
theorem run_conserves_resources {start : AdmissionController} (initial : Initial start)
    (ops : List AdmissionOp) (bounded : totalCost step leasesIssued start ops < u128Max) :
    (∀ d, (run step start ops).used.amount d =
      ((valueList (run step start ops).active).map
        (fun lease => lease.granted.amount d)).sum) ∧
    (∀ d, (run step start ops).used.amount d ≤ (run step start ops).capacity.amount d) ∧
    (∀ d, d ≠ .processLimit → (run step start ops).capacity.amount d ≤
      (run step start ops).baselineCapacity.amount d) ∧
    (run step start ops).capacity.processLimit ≤
      (run step start ops).adaptiveMaxProcessLimit := by
  have keep : ∀ issued s op, Conserved issued s → issued + leasesIssued s op < u128Max →
      Conserved (issued + leasesIssued s op) (step s op) :=
    fun _ _ op h hroom => h.step op hroom
  have final := run_invariant_metered keep ops initial.conserved (by simpa using bounded)
  exact ⟨final.used_eq, final.used_le, final.capacity_le, final.process_le⟩

/-- A lease that is live while a critical sample takes the memory capacity from a
hundred bytes down to the two it still can promise. -/
def shrinkUnderLease : List AdmissionOp :=
  [.admitRequest (.minimal 1 .nativeTask) 0,
    .capacityFeedback
      { cpuThreadsActive := 0
        hostMemoryBytes := some 100
        hostMemoryAvailableBytes := some 2
        memoryPressure := true }]

def smallCapacity : GrantedResources where
  cpuThreads := 4
  hostMemoryBytes := 100
  acceleratorMemoryBytes := 0
  ioInFlight := 4
  processLimit := 4
  threadLimit := 4
  fdLimit := 1024

theorem shrinkUnderLease_conserves_resources :
    (run step (new smallCapacity 2) shrinkUnderLease).capacity.hostMemoryBytes = 2 ∧
    ∀ d, (run step (new smallCapacity 2) shrinkUnderLease).used.amount d ≤
      (run step (new smallCapacity 2) shrinkUnderLease).capacity.amount d :=
  ⟨by decide, (run_conserves_resources (.new smallCapacity 2) shrinkUnderLease (by decide)).2.1⟩

end AdmissionController

end Aegis.Resource
