import AegisCognition.Foundation.Chain
import AegisCognition.Placement.CooperativePlan

/-!
# How long a pipeline takes

The makespan of a pipeline is computed in one pass over the slices by their stages: a slice
finishes when its latency has passed after the last of the slices it waits for. The check of a
task makes sure that these belong to earlier stages, so their finish times are known. The makespan
is the latency of the slowest chain of slices that wait for each other.
-/

namespace Aegis.Placement

open Std Foundation Resource CooperativeSliceSpec List
open CooperativePlacementSlice CooperativePlacementTask OrderedMap

/-- Slices of a plan each of which waits for the one before it. -/
structure DependencyChain (slices chain : List CooperativePlacementSlice) : Prop where
  nonempty : chain ≠ []
  placed : chain ⊆ slices
  waits : chain.IsChain fun first next => first.id ∈ next.dependsOn

/-- The latencies of a chain added up, where the sum saturates. -/
def chainLatency (chain : List CooperativePlacementSlice) : Nat :=
  chain.foldl (fun total slice => saturatingAdd u64Max total (slice.estimatedLatencyUs.getD 0)) 0

/-- A slice that is bound to its specification and has a latency. -/
structure Binds (specification : CooperativeSliceSpec) (slice : CooperativePlacementSlice) :
    Prop where
  id : slice.id = specification.id
  stage : slice.stage = specification.stage
  dependsOn : slice.dependsOn = sortedDependencies specification.dependsOn
  latency : slice.estimatedLatencyUs.isSome

variable {task : CooperativePlacementTask} {specification : CooperativeSliceSpec}
variable {slices seen rest chain : List CooperativePlacementSlice}
variable {slice other : CooperativePlacementSlice} {finishTimes : ExtTreeMap String Nat}

/-! ### What the check of a task makes sure of -/

/-- The identities differ, and every dependency is one of an earlier stage. -/
structure Staged {α : Type} (id : α → String) (stage : α → Nat) (dependsOn : α → List String)
    (items : List α) : Prop where
  distinct : (items.map id).Nodup
  earlier : ∀ item ∈ items, ∀ dependency ∈ dependsOn item,
    ∃ other ∈ items, id other = dependency ∧ stage other < stage item

theorem validateDependency_ok {stageById : ExtTreeMap String Nat}
    {before after : ExtTreeSet String} {dependency : String}
    (h : validateDependency stageById specification before dependency =
      .ok after) :
    ∃ stage, stageById[dependency]? = some stage ∧ stage < specification.stage := by
  simp only [validateDependency, bind_eq_ok_iff, okOr_eq_ok_iff,
    refuseWhen_eq_ok_iff, not_or, Nat.not_le] at h
  obtain ⟨_, -, stage, found, _, ⟨-, earlier⟩, -⟩ := h
  exact ⟨stage, found, earlier⟩

theorem validateSlice_ok {stageById : ExtTreeMap String Nat} {before after : ExtTreeSet String}
    (h : task.validateSlice stageById before specification = .ok after) :
    ∀ dependency ∈ specification.dependsOn,
      ∃ stage, stageById[dependency]? = some stage ∧ stage < specification.stage := by
  simp only [validateSlice, bind_eq_ok_iff] at h
  obtain ⟨_, -, _, -, _, -, _, -, _, -, _, -, _, dependencies, -⟩ := h
  intro dependency mem
  obtain ⟨_, _, checked⟩ := foldlM_ok_mem dependencies mem
  exact validateDependency_ok checked

theorem CooperativePlacementTask.staged (valid : task.validate = .ok ()) :
    Staged CooperativeSliceSpec.id CooperativeSliceSpec.stage dependsOn
      task.slices := by
  simp only [CooperativePlacementTask.validate, bind_eq_ok_iff, refuseWhen_eq_ok_iff,
    ne_eq, not_not] at valid
  obtain ⟨_, -, _, -, _, -, _, size, _, each, -⟩ := valid
  have distinct : ((task.slices.map fun slice => (slice.id, slice.stage)).map Prod.fst).Nodup :=
    nodup_of_size_ofList (size.trans (length_map _).symm)
  refine ⟨by simpa only [map_map, Function.comp_def] using distinct, ?_⟩
  intro specification mem dependency depends
  obtain ⟨_, _, checked⟩ := foldlM_ok_mem each mem
  obtain ⟨stage, found, earlier⟩ := validateSlice_ok checked dependency depends
  rw [getElem?_ofList_eq_some_iff distinct, mem_map] at found
  obtain ⟨other, listed, same⟩ := found
  obtain ⟨named, staged⟩ := Prod.mk.inj same
  exact ⟨other, listed, named, staged.symm ▸ earlier⟩

theorem CooperativePlacementTask.slices_ne_nil (valid : task.validate = .ok ()) :
    task.slices ≠ [] := by
  simp only [CooperativePlacementTask.validate, bind_eq_ok_iff, refuseWhen_eq_ok_iff,
    not_or] at valid
  obtain ⟨_, -, _, ⟨-, nonempty⟩, -⟩ := valid
  exact nonempty

theorem Staged.of_binds {specifications : List CooperativeSliceSpec}
    (staged : Staged CooperativeSliceSpec.id CooperativeSliceSpec.stage
      dependsOn specifications)
    (bound : List.Forall₂ Binds specifications slices) :
    Staged CooperativePlacementSlice.id CooperativePlacementSlice.stage
      dependsOn slices := by
  have ids : specifications.map (·.id) = slices.map (·.id) := by
    rw [← List.forall₂_eq_eq_eq, List.forall₂_map_left_iff, List.forall₂_map_right_iff]
    exact bound.imp fun _ _ binds => binds.id.symm
  refine ⟨ids ▸ staged.distinct, ?_⟩
  intro slice mem dependency depends
  obtain ⟨specification, listed, binds⟩ := exists_left_of_forall₂ bound mem
  rw [binds.dependsOn, sortedDependencies, mem_sortBy] at depends
  obtain ⟨earlier, inside, named, before⟩ :=
    staged.earlier specification listed dependency depends
  obtain ⟨other, placed, binds'⟩ := exists_right_of_forall₂ bound inside
  refine ⟨other, placed, binds'.id.trans named, ?_⟩
  rw [binds.stage, binds'.stage]
  exact before

/-! ### The slices that a slice waits for -/

section

variable (slices : List CooperativePlacementSlice)

/-- The slices of earlier stages that a slice waits for. -/
def slicesBefore (slice : CooperativePlacementSlice) : List CooperativePlacementSlice :=
  slice.dependsOn.filterMap fun dependency =>
    slices.find? fun other => other.id = dependency ∧ other.stage < slice.stage

def latency (slice : CooperativePlacementSlice) : Nat :=
  slice.estimatedLatencyUs.getD 0

theorem slicesBefore_wf : WellFounded fun other slice => other ∈ slicesBefore slices slice := by
  refine Subrelation.wf (fun {other slice} mem => ?_)
    (InvImage.wf CooperativePlacementSlice.stage Nat.lt_wfRel.wf)
  obtain ⟨dependency, -, found⟩ := mem_filterMap.mp mem
  have sound := List.find?_some found
  simp only [decide_eq_true_eq] at sound
  exact sound.2

noncomputable def finishTime (slice : CooperativePlacementSlice) : Nat :=
  min (heaviest (slicesBefore_wf slices) latency slice) u64Max

end

section Staged

variable (staged : Staged CooperativePlacementSlice.id CooperativePlacementSlice.stage
  dependsOn slices)

include staged

theorem find?_of_waits (mem : slice ∈ slices) (placed : other ∈ slices)
    (waits : other.id ∈ slice.dependsOn) :
    slices.find? (fun earlier => earlier.id = other.id ∧ earlier.stage < slice.stage) =
      some other := by
  obtain ⟨earlier, inside, named, before⟩ := staged.earlier slice mem other.id waits
  obtain rfl := inj_on_of_nodup_map staged.distinct inside placed named
  cases found : slices.find? fun earlier' =>
      earlier'.id = earlier.id ∧ earlier'.stage < slice.stage with
  | none =>
      have absent := List.find?_eq_none.mp found earlier inside
      simp only [decide_eq_true_eq, true_and] at absent
      exact absurd before absent
  | some first =>
      have sound := List.find?_some found
      simp only [decide_eq_true_eq] at sound
      exact congrArg some
        (inj_on_of_nodup_map staged.distinct (mem_of_find?_eq_some found) inside sound.1)

theorem mem_slicesBefore (mem : slice ∈ slices) :
    other ∈ slicesBefore slices slice ↔ other ∈ slices ∧ other.id ∈ slice.dependsOn := by
  rw [slicesBefore, mem_filterMap]
  constructor
  · rintro ⟨dependency, depends, found⟩
    have sound := List.find?_some found
    simp only [decide_eq_true_eq] at sound
    exact ⟨mem_of_find?_eq_some found, sound.1 ▸ depends⟩
  · rintro ⟨placed, waits⟩
    exact ⟨other.id, waits, find?_of_waits staged mem placed waits⟩

/-- Going back from a slice to slices before it is following a chain backwards. -/
theorem isChain_slicesBefore (mem : slice ∈ slices) :
    (slice :: rest).IsChain (fun later earlier => earlier ∈ slicesBefore slices later) ↔
      rest ⊆ slices ∧
        (slice :: rest).IsChain fun later earlier => earlier.id ∈ later.dependsOn := by
  induction rest generalizing slice with
  | nil => simp
  | cons other rest ih =>
      rw [isChain_cons_cons, isChain_cons_cons, mem_slicesBefore staged mem,
        cons_subset]
      constructor
      · rintro ⟨⟨placed, waits⟩, chain⟩
        obtain ⟨inside, chain⟩ := (ih placed).mp chain
        exact ⟨⟨placed, inside⟩, waits, chain⟩
      · rintro ⟨⟨placed, inside⟩, waits, chain⟩
        exact ⟨⟨placed, waits⟩, (ih placed).mpr ⟨inside, chain⟩⟩

theorem dependencyChain_reverse_iff (mem : slice ∈ slices) :
    DependencyChain slices (slice :: rest).reverse ↔
      (slice :: rest).IsChain fun later earlier => earlier ∈ slicesBefore slices later := by
  rw [isChain_slicesBefore staged mem]
  constructor
  · intro chain
    refine ⟨fun other inside => chain.placed ?_, ?_⟩
    · simp [inside]
    · exact isChain_reverse.mp chain.waits
  · rintro ⟨inside, chain⟩
    refine ⟨by simp, ?_, isChain_reverse.mpr chain⟩
    intro other listed
    obtain rfl | listed := mem_cons.mp (mem_reverse.mp listed)
    · exact mem
    · exact inside listed

end Staged

/-! ### Chains and finish times -/

theorem chainLatency_eq (chain : List CooperativePlacementSlice) :
    chainLatency chain = min (chain.map latency).sum u64Max := by
  have total := foldl_saturatingAdd u64Max latency chain 0
  rw [Nat.zero_min, Nat.zero_add] at total
  exact total

theorem finishTime_eq (slices : List CooperativePlacementSlice)
    (slice : CooperativePlacementSlice) : finishTime slices slice =
      saturatingAdd u64Max (((slicesBefore slices slice).map (finishTime slices)).foldl max 0)
        (latency slice) :=
  min_heaviest_eq (slicesBefore_wf slices) slice

section Chains

variable (staged : Staged CooperativePlacementSlice.id CooperativePlacementSlice.stage
  dependsOn slices)

include staged

theorem exists_chain_of_finishTime (mem : slice ∈ slices) :
    ∃ chain, DependencyChain slices chain ∧ finishTime slices slice = chainLatency chain := by
  have reached : heaviest (slicesBefore_wf slices) latency slice ∈
      ChainWeights (slicesBefore slices) latency slice := (isGreatest_heaviest _ slice).1
  obtain ⟨rest, chain, total⟩ := reached
  refine ⟨(slice :: rest).reverse, (dependencyChain_reverse_iff staged mem).mpr chain, ?_⟩
  rw [chainLatency_eq, map_reverse, sum_reverse, finishTime, total]

theorem exists_finishTime_of_chain (linked : DependencyChain slices chain) :
    ∃ slice ∈ slices, chainLatency chain ≤ finishTime slices slice := by
  obtain ⟨slice, rest, reversed⟩ :=
    exists_cons_of_ne_nil (reverse_ne_nil_iff.mpr linked.nonempty)
  have turned : chain = (slice :: rest).reverse := by rw [← reversed, reverse_reverse]
  have mem : slice ∈ slices := linked.placed (turned ▸ by simp)
  refine ⟨slice, mem, ?_⟩
  rw [turned] at linked
  have below : ((slice :: rest).map latency).sum ≤
      heaviest (slicesBefore_wf slices) latency slice :=
    (isGreatest_heaviest (slicesBefore_wf slices) slice).2
      ⟨rest, (dependencyChain_reverse_iff staged mem).mp linked, rfl⟩
  rw [turned, chainLatency_eq, map_reverse, sum_reverse, finishTime]
  omega

end Chains

/-! ### The pass over the stages -/

/-- The order in which the pass meets the slices. -/
def compareStages (left right : CooperativePlacementSlice) : Ordering :=
  (compare left.stage right.stage).then (compare left.id right.id)

instance : TransCmp compareStages :=
  inferInstanceAs (TransCmp (compareLex (compareOn CooperativePlacementSlice.stage)
    (compareOn CooperativePlacementSlice.id)))

theorem pairwise_stage (slices : List CooperativePlacementSlice) :
    (sortBy compareStages slices).Pairwise fun first next => first.stage ≤ next.stage := by
  apply (pairwise_sortBy slices).imp
  intro first next le
  apply Nat.isLE_compare.mp
  simp only [compareStages] at le
  cases order : compare first.stage next.stage <;> simp_all

/-- The finish times of some slices, and of no others. -/
def Finished (slices seen : List CooperativePlacementSlice)
    (finishTimes : ExtTreeMap String Nat) : Prop :=
  ∀ id time, finishTimes[id]? = some time ↔
    ∃ slice ∈ seen, slice.id = id ∧ finishTime slices slice = time

theorem Finished.insert (finished : Finished slices seen finishTimes)
    (fresh : ∀ other ∈ seen, other.id ≠ slice.id) :
    Finished slices (seen ++ [slice])
      (finishTimes.insert slice.id (finishTime slices slice)) := by
  intro id time
  rw [getElem?_insert_eq_some_iff, finished]
  constructor
  · rintro (⟨rfl, rfl⟩ | ⟨-, other, mem, named, same⟩)
    · exact ⟨slice, by simp, rfl, rfl⟩
    · exact ⟨other, mem_append_left _ mem, named, same⟩
  · rintro ⟨other, mem, rfl, rfl⟩
    obtain mem | mem := mem_append.mp mem
    · exact .inr ⟨(fresh other mem).symm, other, mem, rfl, rfl⟩
    · rw [mem_singleton.mp mem]
      exact .inl ⟨rfl, rfl⟩

section Pass

variable (staged : Staged CooperativePlacementSlice.id CooperativePlacementSlice.stage
  dependsOn slices)

include staged

/-- Where all slices that a slice waits for are finished, so is the slice after them. -/
theorem finishSlice_eq (finished : Finished slices seen finishTimes) (mem : slice ∈ slices)
    (known : slice.estimatedLatencyUs.isSome)
    (ready : ∀ other ∈ slices, other.id ∈ slice.dependsOn → other ∈ seen) :
    finishSlice finishTimes slice =
      some (finishTimes.insert slice.id (finishTime slices slice)) := by
  have start : ∀ (dependencies : List String) (from_ : Nat), dependencies ⊆ slice.dependsOn →
      dependencies.foldlM (fun start dependency => do
        return max start (← finishTimes[dependency]?)) from_ =
      some (((dependencies.filterMap fun dependency =>
        slices.find? fun other => other.id = dependency ∧ other.stage < slice.stage).map
          (finishTime slices)).foldl max from_) := by
    intro dependencies
    induction dependencies with
    | nil => exact fun _ _ => rfl
    | cons dependency dependencies ih =>
        intro from_ inside
        obtain ⟨other, placed, rfl, -⟩ :=
          staged.earlier slice mem dependency (cons_subset.mp inside).1
        have waits : other.id ∈ slice.dependsOn := (cons_subset.mp inside).1
        have found : finishTimes[other.id]? = some (finishTime slices other) :=
          (finished other.id _).mpr ⟨other, ready other placed waits, rfl, rfl⟩
        rw [foldlM_cons, found, filterMap_cons,
          find?_of_waits staged mem placed (cons_subset.mp inside).1]
        exact ih _ (cons_subset.mp inside).2
  obtain ⟨time, same⟩ := Option.isSome_iff_exists.mp known
  have spent : latency slice = time := by rw [latency, same, Option.getD_some]
  rw [finishSlice, start slice.dependsOn 0 (List.Subset.refl _), finishTime_eq, spent, same]
  rfl

/-- The pass finishes every slice, if it meets them by their stages. -/
theorem foldlM_finishSlice (known : ∀ slice ∈ slices, slice.estimatedLatencyUs.isSome)
    (perm : (seen ++ rest).Perm slices)
    (sorted : (seen ++ rest).Pairwise fun first next => first.stage ≤ next.stage)
    (finished : Finished slices seen finishTimes) :
    ∃ final, rest.foldlM finishSlice finishTimes = some final ∧
      Finished slices (seen ++ rest) final := by
  induction rest generalizing seen finishTimes with
  | nil => exact ⟨finishTimes, rfl, (append_nil seen).symm ▸ finished⟩
  | cons slice rest ih =>
      have mem : slice ∈ slices := perm.mem_iff.mp (by simp)
      have distinct : ((seen ++ slice :: rest).map (·.id)).Nodup :=
        (perm.map _).nodup_iff.mpr staged.distinct
      have ready : ∀ other ∈ slices, other.id ∈ slice.dependsOn → other ∈ seen := by
        intro other placed waits
        obtain ⟨earlier, inside, named, before⟩ := staged.earlier slice mem other.id waits
        obtain rfl := inj_on_of_nodup_map staged.distinct inside placed named
        obtain done | later := mem_append.mp (perm.mem_iff.mpr placed)
        · exact done
        · have behind := (pairwise_append.mp sorted).2.1
          obtain rfl | later := mem_cons.mp later
          · exact absurd before (Nat.lt_irrefl _)
          · exact absurd before (Nat.not_lt.mpr ((pairwise_cons.mp behind).1 _ later))
      have fresh : ∀ other ∈ seen, other.id ≠ slice.id := by
        intro other done same
        rw [map_append, map_cons] at distinct
        exact (disjoint_of_nodup_append distinct) (mem_map_of_mem done)
          (same ▸ mem_cons_self)
      rw [foldlM_cons, finishSlice_eq staged finished mem (known slice mem) ready]
      have shifted : seen ++ slice :: rest = (seen ++ [slice]) ++ rest := by simp
      rw [shifted] at perm sorted ⊢
      exact ih perm sorted (finished.insert fresh)

end Pass

/-- The pass over all slices. -/
theorem foldlM_sorted (staged : Staged CooperativePlacementSlice.id CooperativePlacementSlice.stage
      dependsOn slices)
    (known : ∀ slice ∈ slices, slice.estimatedLatencyUs.isSome) :
    ∃ final, (sortBy compareStages slices).foldlM finishSlice ∅ = some final ∧
      ∀ time, time ∈ valueList final ↔
        ∃ slice ∈ slices, finishTime slices slice = time := by
  have perm : ([] ++ sortBy compareStages slices).Perm slices := sortBy_perm compareStages slices
  have start : Finished slices [] ∅ := by simp [Finished]
  obtain ⟨final, passed, finished⟩ :=
    foldlM_finishSlice staged known perm (pairwise_stage slices) start
  refine ⟨final, passed, fun time => ?_⟩
  rw [mem_valueList_iff]
  constructor
  · rintro ⟨id, found⟩
    obtain ⟨slice, mem, -, same⟩ := (finished id time).mp found
    exact ⟨slice, perm.mem_iff.mp mem, same⟩
  · rintro ⟨slice, mem, same⟩
    exact ⟨slice.id, (finished slice.id time).mpr ⟨slice, perm.mem_iff.mpr mem, rfl, same⟩⟩

/-- The makespan of a pipeline is the latency of its slowest dependency chain, whatever the
order of the slices and their stages. -/
theorem cooperativeMakespan_isGreatest (valid : task.validate = .ok ())
    (pipeline : task.mode = .pipeline) (bound : List.Forall₂ Binds task.slices slices) :
    ∃ makespan, cooperativeMakespan task.mode slices = some makespan ∧
      IsGreatest { total | ∃ chain, DependencyChain slices chain ∧ total = chainLatency chain }
        makespan := by
  have staged := (CooperativePlacementTask.staged valid).of_binds bound
  have known : ∀ slice ∈ slices, slice.estimatedLatencyUs.isSome := by
    intro slice mem
    obtain ⟨specification, -, binds⟩ := exists_left_of_forall₂ bound mem
    exact binds.latency
  have nonempty : slices ≠ [] := by
    rintro rfl
    exact slices_ne_nil valid (List.forall₂_nil_right_iff.mp bound)
  obtain ⟨final, passed, times⟩ := foldlM_sorted staged known
  have unknown : slices.any (·.estimatedLatencyUs.isNone) = false := by
    apply any_eq_false.mpr
    intro slice mem
    simp [Option.isSome_iff_ne_none.mp (known slice mem)]
  have computed : cooperativeMakespan task.mode slices = (valueList final).max? := by
    rw [pipeline, cooperativeMakespan, unknown]
    show (do
      let finishTimes ← (sortBy compareStages slices).foldlM finishSlice ∅
      (valueList finishTimes).max?) = _
    rw [passed]
    rfl
  cases greatest : (valueList final).max? with
  | none =>
      obtain ⟨slice, mem⟩ := exists_mem_of_ne_nil slices nonempty
      have listed := (times _).mpr ⟨slice, mem, rfl⟩
      rw [List.max?_eq_none_iff.mp greatest] at listed
      cases listed
  | some makespan =>
      obtain ⟨listed, above⟩ := List.max?_eq_some_iff.mp greatest
      refine ⟨makespan, computed.trans greatest, ?_, ?_⟩
      · obtain ⟨slice, mem, rfl⟩ := (times makespan).mp listed
        exact exists_chain_of_finishTime staged mem
      · rintro total ⟨chain, linked, rfl⟩
        obtain ⟨slice, mem, below⟩ := exists_finishTime_of_chain staged linked
        exact below.trans (above _ ((times _).mpr ⟨slice, mem, rfl⟩))

def scatteredSlice (id : String) (stage : Nat) (dependsOn : List String) :
    CooperativeSliceSpec where
  id := id
  stage := stage
  dependsOn := dependsOn
  executorDomain := .cpu
  dataTierDomain := .hostMemory
  requiredDataTierId := none
  inputBytes := 8
  outputBytes := 8
  workingMemoryBytes := 64
  workUnits := 1

/-- A pipeline that lists its last slice first and leaves stages out. -/
def scatteredTask : CooperativePlacementTask where
  schema := cooperativePlacementTaskSchemaV1
  taskId := 1
  mode := .pipeline
  slices := [scatteredSlice "merge" 9 ["infer", "decode"], scatteredSlice "infer" 4 ["decode"],
    scatteredSlice "decode" 1 []]
  bufferPolicy := {
    capacityBytes := 16
    maxInFlightBuffers := 2
    highWatermarkBytes := 12
    lowWatermarkBytes := 4
    allowSpillToStorage := false }
  deadlineMs := none
  requiresLocalOnly := true
  allowStorage := false

def scatteredSlices : List CooperativePlacementSlice :=
  (scatteredTask.slices.zip [3, 5, 4]).map fun entry =>
    { cooperativeUnboundSlice entry.1 "" with estimatedLatencyUs := some entry.2 }

/-- The slowest chain passes through all three slices. -/
theorem scattered_makespan : cooperativeMakespan scatteredTask.mode scatteredSlices = some 12 ∧
    IsGreatest { total | ∃ chain, DependencyChain scatteredSlices chain ∧
      total = chainLatency chain } 12 := by
  have binds : List.Forall₂ Binds scatteredTask.slices scatteredSlices :=
    .cons ⟨rfl, rfl, rfl, rfl⟩ (.cons ⟨rfl, rfl, rfl, rfl⟩ (.cons ⟨rfl, rfl, rfl, rfl⟩ .nil))
  have value : cooperativeMakespan scatteredTask.mode scatteredSlices = some 12 := by
    decide +kernel
  obtain ⟨makespan, computed, greatest⟩ :=
    cooperativeMakespan_isGreatest (by decide +kernel) rfl binds
  obtain rfl := Option.some.inj (value.symm.trans computed)
  exact ⟨value, greatest⟩

end Aegis.Placement
