import AegisCognition.Placement.SelectedPlan
import AegisCognition.Placement.Soundness

/-!
# The deadline of a cooperative plan

Every slice is placed on a pair that meets the deadline of the task on its own. A plan with one
slice or with independent slices takes no longer than one of them, so it meets the deadline too.
A pipeline takes as long as its slowest chain of dependencies, which is compared with nothing.
-/

namespace Aegis.Placement

open Std Foundation Resource CooperativePlacementTask List

variable {debug : PlacementError → String} {task : CooperativePlacementTask}
variable {capabilities : List PlacementCapability} {paths : List PlacementTransferPath}
variable {nowMs deadline cost budgetUs : Nat} {plan : CooperativePlacementPlan}
variable {slices chain : List CooperativePlacementSlice} {slice : CooperativePlacementSlice}
variable {specification : CooperativeSliceSpec} {specifications : List CooperativeSliceSpec}

/-- A plan for which it is not too late, and which takes no longer than the time left. -/
def MeetsDeadline (plan : CooperativePlacementPlan) (nowMs deadline : Nat) : Prop :=
  nowMs < deadline ∧ ∃ makespan, plan.estimatedMakespanUs = some makespan ∧
    makespan ≤ (deadline - nowMs) * 1000

/-- Each of the specifications depends on the one before it. -/
structure SpecificationChain (specifications chain : List CooperativeSliceSpec) : Prop where
  nonempty : chain ≠ []
  listed : chain ⊆ specifications
  depends : chain.IsChain fun first next => first.id ∈ next.dependsOn

/-- Placed at the least costs, no chain of dependencies takes longer than the time left. -/
def ChainsInTime (task : CooperativePlacementTask) (capabilities : List PlacementCapability)
    (paths : List PlacementTransferPath) (nowMs budgetUs : Nat) : Prop :=
  ∀ chain, SpecificationChain task.slices chain → ∀ costs,
    List.Forall₂ (fun specification cost =>
      IsLeast (sliceCosts task capabilities paths nowMs specification) cost) chain costs →
    min costs.sum u64Max ≤ budgetUs

/-! ### Slices -/

theorem sliceCosts_inTime (due : task.deadlineMs = some deadline)
    (mem : cost ∈ sliceCosts task capabilities paths nowMs specification) :
    nowMs < deadline ∧ cost ≤ (deadline - nowMs) * 1000 ∧ cost ≤ u64Max := by
  obtain ⟨pair, listed, known⟩ := mem
  obtain ⟨executor, dataTier, -, rfl⟩ := mem_pairsOf.mp listed
  obtain ⟨_, _, priced, -⟩ := priced_of_cost known
  obtain ⟨early, below⟩ :=
    (missesDeadline_eq_false_iff priced.bounded).mp priced.inTime deadline due
  exact ⟨early, below, priced.bounded⟩

theorem isLeast_latency (inventoried : Inventoried capabilities paths)
    (placed : placeSlice task capabilities paths nowMs specification = .ok (.bound slice)) :
    slice.estimatedLatencyUs = some (latency slice) ∧
      IsLeast (sliceCosts task capabilities paths nowMs specification) (latency slice) := by
  obtain ⟨cost, known, least⟩ := placeSlice_isLeast inventoried placed
  obtain rfl : latency slice = cost := by rw [latency, known, Option.getD_some]
  exact ⟨known, least⟩

/-! ### Plans without dependencies -/

theorem length_of_single (valid : task.validate = .ok ()) (mode : task.mode = .singleExecutor) :
    task.slices.length = 1 := by
  simp only [CooperativePlacementTask.validate, bind_eq_ok_iff] at valid
  obtain ⟨_, -, _, -, _, -, _, -, _, -, checked⟩ := valid
  rw [validateMode, mode] at checked
  obtain ⟨single, -⟩ := not_or.mp (refuseWhen_eq_ok_iff.mp checked)
  exact not_not.mp single

theorem makespan_of_parallel (mode : task.mode = .parallelSlices) (nonempty : slices ≠ [])
    (known : ∀ slice ∈ slices, slice.estimatedLatencyUs = some (latency slice)) :
    ∃ slice ∈ slices, cooperativeMakespan task.mode slices = some (latency slice) := by
  have unknown : slices.any (·.estimatedLatencyUs.isNone) = false := by
    apply any_eq_false.mpr
    intro slice mem
    simp [known slice mem]
  have latencies : slices.filterMap (·.estimatedLatencyUs) = slices.map latency := by
    rw [← filterMap_eq_map]
    exact filterMap_congr known
  rw [mode, cooperativeMakespan, unknown]
  show ∃ slice ∈ slices, (slices.filterMap (·.estimatedLatencyUs)).max? = _
  rw [latencies]
  cases greatest : (slices.map latency).max? with
  | none => exact absurd (map_eq_nil_iff.mp (List.max?_eq_none_iff.mp greatest)) nonempty
  | some makespan =>
      obtain ⟨slice, mem, rfl⟩ := mem_map.mp (List.max?_eq_some_iff.mp greatest).1
      exact ⟨slice, mem, rfl⟩

/-! ### Pipelines -/

theorem depends_iff {other : CooperativeSliceSpec} {next : CooperativePlacementSlice}
    (placed : placeSlice task capabilities paths nowMs specification = .ok (.bound slice))
    (placed' : placeSlice task capabilities paths nowMs other = .ok (.bound next)) :
    slice.id ∈ next.dependsOn ↔ specification.id ∈ other.dependsOn := by
  obtain ⟨_, -, -, -, -, rfl⟩ := placeSlice_bound_iff.mp placed
  obtain ⟨_, -, -, -, -, rfl⟩ := placeSlice_bound_iff.mp placed'
  simp only [cooperativeBoundSlice, sortedDependencies, mem_sortBy]

theorem isLeast_latencies (inventoried : Inventoried capabilities paths)
    (placed : PlacedFor task capabilities paths nowMs specifications chain) :
    List.Forall₂ (fun specification cost =>
      IsLeast (sliceCosts task capabilities paths nowMs specification) cost) specifications
      (chain.map latency) := by
  apply List.forall₂_map_right_iff.mpr
  apply placed.imp
  intro specification slice placed
  exact (isLeast_latency inventoried placed).2

/-- The chains of the slices are those of the specifications. -/
theorem chainsInTime_iff (inventoried : Inventoried capabilities paths)
    (placed : PlacedFor task capabilities paths nowMs task.slices slices) :
    ChainsInTime task capabilities paths nowMs budgetUs ↔
      ∀ chain, DependencyChain slices chain → chainLatency chain ≤ budgetUs := by
  constructor
  · intro inTime chain linked
    obtain ⟨specifications, listed, bound⟩ := exists_forall₂_of_subset
      (fun slice mem => exists_left_of_forall₂ placed mem) linked.placed
    have specified : SpecificationChain task.slices specifications := by
      refine ⟨?_, listed, ?_⟩
      · rintro rfl
        exact linked.nonempty (List.forall₂_nil_right_iff.mp bound)
      · refine isChain_of_forall₂ ?_ bound linked.waits
        intro _ _ _ _ first second
        exact (depends_iff first second).mp
    rw [chainLatency_eq]
    exact inTime specifications specified _ (isLeast_latencies inventoried bound.flip)
  · intro inTime specifications specified costs least
    obtain ⟨chain, inside, bound⟩ := exists_forall₂_of_subset
      (fun specification mem => exists_right_of_forall₂ placed mem) specified.listed
    have linked : DependencyChain slices chain := by
      refine ⟨?_, inside, ?_⟩
      · rintro rfl
        exact specified.nonempty (List.forall₂_nil_right_iff.mp bound)
      · refine isChain_of_forall₂ ?_ bound specified.depends
        intro _ _ _ _ first second
        exact (depends_iff first second).mpr
    have unique : Relator.RightUnique fun specification cost =>
        IsLeast (sliceCosts task capabilities paths nowMs specification) cost :=
      fun _ _ _ first second => first.unique second
    obtain rfl : costs = chain.map latency :=
      unique.forall₂ least (isLeast_latencies inventoried bound)
    rw [← chainLatency_eq]
    exact inTime chain linked

/-- A selected plan meets its deadline exactly if it is not a pipeline, or if the chains of its
dependencies fit into the time left. -/
theorem meetsDeadline_iff
    (built : CooperativePlacementPlan.build debug task capabilities paths nowMs = .ok plan)
    (selected : plan.decision = "selected") (due : task.deadlineMs = some deadline) :
    MeetsDeadline plan nowMs deadline ↔ (task.mode = .pipeline →
      ChainsInTime task capabilities paths nowMs ((deadline - nowMs) * 1000)) := by
  obtain ⟨inventory, read, assembled⟩ := build_assembled built selected
  have inventoried := fromInventory_inventoried read
  have inTime : ∀ slice ∈ plan.slices, slice.estimatedLatencyUs = some (latency slice) ∧
      nowMs < deadline ∧ latency slice ≤ (deadline - nowMs) * 1000 ∧ latency slice ≤ u64Max := by
    intro slice mem
    obtain ⟨specification, -, placed⟩ := exists_left_of_forall₂ assembled.placed mem
    obtain ⟨known, least⟩ := isLeast_latency inventoried placed
    exact ⟨known, sliceCosts_inTime due least.1⟩
  have nonempty : plan.slices ≠ [] := by
    intro none_placed
    have placed := assembled.placed
    rw [none_placed, PlacedFor, List.forall₂_nil_right_iff] at placed
    exact slices_ne_nil assembled.valid placed
  have early : nowMs < deadline := by
    obtain ⟨slice, mem⟩ := exists_mem_of_ne_nil _ nonempty
    exact (inTime slice mem).2.1
  rw [MeetsDeadline, and_iff_right early, assembled.makespan]
  cases mode : task.mode with
  | singleExecutor =>
      simp only [reduceCtorEq, false_implies, iff_true]
      obtain ⟨slice, single⟩ := length_eq_one_iff.mp
        (assembled.placed.length_eq.symm.trans (length_of_single assembled.valid mode))
      have mem : slice ∈ plan.slices := by simp [single]
      obtain ⟨known, -, below, bounded⟩ := inTime slice mem
      exact ⟨_, by simp [cooperativeMakespan, single, known, saturatingAdd, bounded], below⟩
  | parallelSlices =>
      simp only [reduceCtorEq, false_implies, iff_true]
      obtain ⟨slice, mem, makespan⟩ :=
        makespan_of_parallel mode nonempty fun slice mem => (inTime slice mem).1
      exact ⟨_, mode ▸ makespan, (inTime slice mem).2.2.1⟩
  | pipeline =>
      simp only [forall_const]
      obtain ⟨makespan, computed, greatest⟩ := cooperativeMakespan_isGreatest assembled.valid mode
        (assembled.placed.binds inventoried)
      rw [chainsInTime_iff inventoried assembled.placed, ← mode, computed]
      constructor
      · rintro ⟨_, same, below⟩ chain linked
        cases same
        exact (greatest.2 ⟨chain, linked, rfl⟩).trans below
      · intro fits
        obtain ⟨chain, linked, rfl⟩ := greatest.1
        exact ⟨_, rfl, fits chain linked⟩

/-- A pipeline of two slices that is due after one millisecond. -/
def dueTask (workUnits : Nat) : CooperativePlacementTask :=
  { scatteredTask with
    slices := [{ scatteredSlice "decode" 0 [] with workUnits := workUnits },
      { scatteredSlice "infer" 1 ["decode"] with workUnits := workUnits }]
    deadlineMs := some 1 }

/-- Either slice of 600 units of work is in time, and the two one after the other are not. -/
theorem slow_pipeline_selected : ∃ plan, CooperativePlacementPlan.build PlacementError.debug
    (dueTask 600) hostCapabilities [] 0 = .ok plan ∧ plan.decision = "selected" ∧
      ¬ MeetsDeadline plan 0 1 := by
  obtain ⟨plan, built, facts⟩ := exists_ok_of_any
    (x := CooperativePlacementPlan.build PlacementError.debug (dueTask 600) hostCapabilities [] 0)
    (p := fun plan => plan.decision = "selected" ∧ plan.estimatedMakespanUs = some 1204)
    (by decide +kernel)
  obtain ⟨selected, makespan⟩ := of_decide_eq_true facts
  refine ⟨plan, built, selected, ?_⟩
  rintro ⟨-, _, same, below⟩
  obtain rfl := Option.some.inj (makespan.symm.trans same)
  omega

/-- Slices of 400 units of work are in time one after the other. -/
theorem fast_pipeline_inTime :
    ChainsInTime (dueTask 400) hostCapabilities [] 0 ((1 - 0) * 1000) := by
  obtain ⟨plan, built, facts⟩ := exists_ok_of_any
    (x := CooperativePlacementPlan.build PlacementError.debug (dueTask 400) hostCapabilities [] 0)
    (p := fun plan => plan.decision = "selected" ∧ plan.estimatedMakespanUs = some 804)
    (by decide +kernel)
  obtain ⟨selected, makespan⟩ := of_decide_eq_true facts
  exact (meetsDeadline_iff built selected rfl).mp ⟨by omega, 804, makespan, by omega⟩ rfl

end Aegis.Placement
