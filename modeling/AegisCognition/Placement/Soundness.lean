import AegisCognition.Placement.Choice

/-!
# What a selected plan can rely on

Every check of the evaluation of resources, paths and pairs holds of the pair that a plan selects,
and the binding that it emits is well formed. The memory of an executor may stay unknown where the
task needs none of it.
-/

namespace Aegis.Placement

open Std Foundation Resource PlacementPlan Option

def PlacementBinding.validate (binding : PlacementBinding) : Except PlacementError Unit := do
  refuseWhen (binding.schema ≠ placementBindingSchemaV1)
    (.invalidTask "unsupported placement binding schema")
  refuseWhen (isBlank binding.executorId ∨ isBlank binding.dataTierId)
    (.invalidTask "placement executor and data-tier identities must be non-empty")
  refuseWhen (binding.transferPathId.any isBlank)
    (.invalidTask "transfer path identity must be non-empty when present")
  refuseWhen (0 < binding.storageBytes ∧ binding.storageInFlight = 0)
    (.invalidTask "storage bytes require a non-zero storage in-flight reservation")
  refuseWhen (0 < binding.storageInFlight ∧ binding.storageBytes = 0)
    (.invalidTask "storage in-flight reservation requires storage bytes")
  refuseWhen (0 < binding.transferTokens ∧ binding.transferPathId = none)
    (.invalidTask "transfer tokens require a transfer-path identity")

variable {task : PlacementTask} {capability : PlacementCapability}
variable {capabilities : List PlacementCapability} {path : PlacementTransferPath}
variable {paths : List PlacementTransferPath} {nowMs total : Nat} {plan : PlacementPlan}
variable {executor dataTier : Option PlacementCandidate} {pair : PlacementPairCandidate}
variable {required : Prop} {computes : Bool}

/-! ### The ends of a selected pair -/

/-- An end of a pair with a cost is a capability that has passed all checks. -/
theorem exists_admissible {candidate : PlacementCandidate}
    (isEnd : IsEnd (candidatesOf task capabilities nowMs) computes required (some candidate))
    (ready : EndReady required (some candidate)) :
    ∃ capability ∈ capabilities, capability.id = candidate.id ∧
      capability.domain = candidate.domain ∧ computeDomain capability.domain = computes ∧
      Admissible task capability := by
  obtain ⟨-, listed, side⟩ := isEnd
  obtain ⟨capability, mem, rfl⟩ := mem_candidatesOf.mp listed
  rw [evaluateCandidate_domain] at side
  exact ⟨capability, mem, evaluateCandidate_id.symm, evaluateCandidate_domain.symm, side,
    admissible_of_priced ready.2⟩

theorem isBlank_of_validate (valid : path.validate = .ok ()) :
    isBlank path.id = false ∧ isBlank path.fromExecutor = false ∧
      isBlank path.toDataTier = false := by
  simp only [PlacementTransferPath.validate, ite_error_eq_ok_iff, not_or, Bool.not_eq_true] at valid
  exact valid.2.1

/-- A pair that takes a path takes one between its ends that has passed all checks. -/
theorem exists_passable {charged : PlacementPairCandidate} {cost : Nat}
    (taken : evaluateTransfer task (pairOf executor dataTier) executor dataTier paths =
      .ok (charged, cost)) :
    (task.dataBytes = 0 ∨ HostCoherent executor dataTier) ∧ charged.transferPathId = none ∨
      ∃ path ∈ paths, path.fromExecutor = (executor.map (·.id)).getD "" ∧
        path.toDataTier = (dataTier.map (·.id)).getD "" ∧
        charged.transferPathId = some path.id ∧ Passable task path := by
  rw [evaluateTransfer_eq] at taken
  split at taken
  · rename_i direct
    obtain rfl := congrArg Prod.fst (Except.ok.inj taken)
    exact .inl ⟨direct, rfl⟩
  · obtain ⟨path, chosen, taken⟩ := bind_eq_ok_iff.mp taken
    obtain ⟨least, -⟩ := choosePath_eq_ok_iff.mp chosen
    obtain ⟨mem, source, target⟩ := mem_pathsBetween.mp (mem_of_minBy least)
    obtain ⟨passable, between, -⟩ := evaluatePath_ok unpriced_pairOf taken
    exact .inr ⟨path, mem, source, target, between.route, passable⟩

/-! ### The selected pair -/

/-- Bytes move exactly where some go in or out. -/
theorem dataBytes_ne_zero_iff :
    task.dataBytes ≠ 0 ↔ 0 < task.inputBytes ∨ 0 < task.outputBytes := by
  have positive : 0 < u64Max := by decide
  rw [PlacementTask.dataBytes, saturatingAdd]
  omega

/-- What a pair with a cost can rely on. -/
structure Reliable (task : PlacementTask) (capabilities : List PlacementCapability)
    (paths : List PlacementTransferPath) (pair : PlacementPairCandidate) : Prop where
  executor : ∃ capability ∈ capabilities, pair.executorId = some capability.id ∧
    computeDomain capability.domain = true ∧ Admissible task capability
  dataTier : task.dataBytes ≠ 0 → ∃ capability ∈ capabilities,
    pair.dataTierId = some capability.id ∧ computeDomain capability.domain = false ∧
      Admissible task capability
  unmoved : task.dataBytes = 0 → pair.dataTierId = none
  path : (pair.transferPathId = none ∧ (task.dataBytes ≠ 0 →
      ∃ executor ∈ capabilities, ∃ dataTier ∈ capabilities,
        pair.executorId = some executor.id ∧ pair.dataTierId = some dataTier.id ∧
          executor.domain = .cpu ∧ dataTier.domain = .hostMemory)) ∨
    ∃ path ∈ paths, pair.executorId = some path.fromExecutor ∧
      pair.dataTierId = some path.toDataTier ∧ pair.transferPathId = some path.id ∧
        Passable task path

theorem reliable_of_cost (valid : ∀ path ∈ paths, path.validate = .ok ())
    (mem : pair ∈ pairsOf task capabilities paths nowMs)
    (known : pair.estimatedLatencyUs = some total) :
    Reliable task capabilities paths pair ∧ task.missesDeadline nowMs total = false ∧
      total ≤ u64Max := by
  obtain ⟨executor, dataTier, ends, rfl⟩ := mem_pairsOf.mp mem
  obtain ⟨executes, stores, inhabited⟩ := mem_pairEnds.mp ends
  obtain ⟨charged, cost, priced, same, -⟩ := priced_of_cost known
  refine ⟨?_, priced.inTime, priced.bounded⟩
  have stored : task.dataBytes ≠ 0 → ∃ candidate, dataTier = some candidate ∧
      ∃ capability ∈ capabilities, capability.id = candidate.id ∧
        capability.domain = candidate.domain ∧ computeDomain capability.domain = false ∧
        Admissible task capability := by
    intro moves
    cases dataTier with
    | none => exact absurd (dataBytes_ne_zero_iff.mp moves) stores
    | some candidate => exact ⟨candidate, rfl, exists_admissible stores priced.ready.dataTier⟩
  have unmoved : task.dataBytes = 0 → dataTier = none := by
    intro still
    cases dataTier with
    | none => rfl
    | some candidate => exact absurd still (dataBytes_ne_zero_iff.mpr stores.1)
  have route := exists_passable priced.transfer
  have executed : ∃ candidate, executor = some candidate ∧
      ∃ capability ∈ capabilities, capability.id = candidate.id ∧
        capability.domain = candidate.domain ∧ computeDomain capability.domain = true ∧
        Admissible task capability := by
    cases executor with
    | some candidate => exact ⟨candidate, rfl, exists_admissible executes priced.ready.executor⟩
    | none =>
        exfalso
        obtain ⟨still | coherent, -⟩ | ⟨path, mem, source, -⟩ := route
        · exact inhabited ⟨rfl, unmoved still⟩
        · cases coherent.1
        · have named := (isBlank_of_validate (valid path mem)).2.1
          rw [source] at named
          cases named
  obtain ⟨candidate, rfl, capability, inside, id, domain, side, admissible⟩ := executed
  obtain ⟨_, keeps⟩ := (evaluateTransfer_ok priced.transfer).1
  rw [same]
  refine ⟨⟨capability, inside, ?_, side, admissible⟩, ?_, ?_, ?_⟩
  · exact keeps.executor.trans (congrArg some id.symm)
  · intro moves
    obtain ⟨tier, rfl, capability, mem, id, domain, side, admissible⟩ := stored moves
    exact ⟨capability, mem, keeps.dataTier.trans (congrArg some id.symm), side, admissible⟩
  · intro still
    exact keeps.dataTier.trans (congrArg _ (unmoved still))
  · obtain ⟨direct, unnamed⟩ | ⟨path, listed, source, target, named, passable⟩ := route
    · refine .inl ⟨unnamed, fun moves => ?_⟩
      obtain ⟨tier, rfl, other, listed, id', domain', -⟩ := stored moves
      obtain ⟨cpu, memory⟩ := direct.resolve_left moves
      refine ⟨capability, inside, other, listed, keeps.executor.trans (congrArg some id.symm),
        keeps.dataTier.trans (congrArg some id'.symm), ?_, ?_⟩
      · exact domain.trans (Option.some.inj cpu)
      · exact domain'.trans (Option.some.inj memory)
    · refine .inr ⟨path, listed, ?_, ?_, named, passable⟩
      · exact keeps.executor.trans (congrArg some source.symm)
      · have storing := (isBlank_of_validate (valid path listed)).2.2
        cases dataTier with
        | none =>
            rw [target] at storing
            cases storing
        | some tier => exact keeps.dataTier.trans (congrArg some target.symm)

/-! ### Selected plans -/

/-- What may be relied on of a capability that a plan places a task on. -/
structure Usable (task : PlacementTask) (capability : PlacementCapability) : Prop where
  relieved : capability.pressure = false
  measured : capability.confidence ≠ .unknown
  queue : ∀ capacity, capability.queueCapacity = some capacity → capability.queueDepth < capacity
  bytes : (∃ usable, capability.usableBytes = some usable ∧
      requiredBytes task capability.domain ≤ usable) ∨
    requiredBytes task capability.domain = 0 ∧ capability.usableBytes = none
  isLocal : task.privacyLocalOnly = true → capability.localOnly = true
  storage : capability.domain = .storage → task.allowStorage = true

theorem Admissible.usable (h : Admissible task capability) : Usable task capability where
  relieved := h.relieved
  measured := h.measured
  queue := h.queue
  bytes := by
    cases known : capability.usableBytes with
    | some usable => exact .inl ⟨usable, rfl, h.fits usable known⟩
    | none => exact .inr ⟨not_not.mp fun required => h.known required known, rfl⟩
  isLocal := h.isLocal
  storage := h.storage

theorem binding_of_reliable (distinct : (capabilities.map (·.id)).Nodup)
    (reliable : Reliable task capabilities paths pair)
    (valid : ∀ path ∈ paths, path.validate = .ok ()) {binding : PlacementBinding}
    (bound : pairBinding task capabilities pair = some binding) :
    binding.validate = .ok () ∧ binding.transferPathId = pair.transferPathId ∧
      (0 < binding.storageBytes ↔ ∃ capability ∈ capabilities,
        pair.dataTierId = some capability.id ∧ capability.domain = .storage) := by
  obtain ⟨executor, -, executes, -, working⟩ := reliable.executor
  have moves : task.dataBytes ≠ 0 := by
    intro still
    rw [pairBinding, executes, reliable.unmoved still] at bound
    cases bound
  obtain ⟨dataTier, listed, stores, -, storing⟩ := reliable.dataTier moves
  have found : capabilities.find? (·.id = dataTier.id) = some dataTier :=
    find?_eq_some_of_unique distinct listed (by simp) (by simp)
  simp only [pairBinding, executes, stores, found, map_some] at bound
  cases bound
  have named : pair.transferPathId.any isBlank = false := by
    obtain ⟨unnamed, -⟩ | ⟨path, mem, -, -, taken, -⟩ := reliable.path
    · rw [unnamed, any_none]
    · rw [taken, any_some]
      exact (isBlank_of_validate (valid path mem)).1
  have stored : (∃ capability ∈ capabilities,
      pair.dataTierId = some capability.id ∧ capability.domain = .storage) ↔
        dataTier.domain = .storage := by
    constructor
    · rintro ⟨other, mem, same, domain⟩
      obtain rfl := List.inj_on_of_nodup_map distinct mem listed
        (Option.some.inj (same.symm.trans stores))
      exact domain
    · exact fun domain => ⟨dataTier, listed, stores, domain⟩
  refine ⟨?_, rfl, ?_⟩
  · simp only [PlacementBinding.validate, bind_eq_ok_iff, refuseWhen_eq_ok_iff]
    refine ⟨(), not_not.mpr rfl, (), ?_, (), by simp [named], (), ?_, (), ?_, ?_⟩
    · simp [working.named, storing.named]
    · split <;> simp
    · split <;> simp [moves]
    · cases pair.transferPathId <;> simp
  · rw [stored]
    split <;> rename_i domain
    · exact iff_of_true (Nat.pos_of_ne_zero moves) (Option.some.inj domain)
    · exact iff_of_false (Nat.lt_irrefl 0) fun storage => domain (congrArg some storage)

/-- What a selected plan places a task on has passed all checks: the ends, the path between them,
the deadline and the binding. -/
theorem selected_sound (distinct : (capabilities.map (·.id)).Nodup)
    (built : buildWithPaths task capabilities paths nowMs = .ok plan)
    (selected : plan.decision = "selected") :
    (∃ executor ∈ capabilities, plan.executor = some executor.id ∧ Usable task executor) ∧
    (∀ dataTierId, plan.dataTier = some dataTierId →
      ∃ dataTier ∈ capabilities, dataTier.id = dataTierId ∧ Usable task dataTier) ∧
    (∀ executor ∈ capabilities, ∀ dataTier ∈ capabilities,
      plan.executor = some executor.id → plan.dataTier = some dataTier.id →
      ¬ (executor.domain = .cpu ∧ dataTier.domain = .hostMemory) →
      ∃ path ∈ paths, path.fromExecutor = executor.id ∧ path.toDataTier = dataTier.id ∧
        plan.binding.bind (·.transferPathId) = some path.id ∧ Passable task path) ∧
    (∃ pair ∈ plan.pairCandidates, ∃ total, pair.executorId = plan.executor ∧
      pair.dataTierId = plan.dataTier ∧ pair.estimatedLatencyUs = some total ∧
      ∀ deadline, task.deadlineMs = some deadline →
        nowMs < deadline ∧ total ≤ (deadline - nowMs) * 1000) ∧
    (plan.binding.isSome ↔ plan.dataTier.isSome) ∧
    ∀ binding, plan.binding = some binding → binding.validate = .ok () ∧
      (0 < binding.storageBytes ↔ ∃ dataTier ∈ capabilities,
        plan.dataTier = some dataTier.id ∧ dataTier.domain = .storage) := by
  obtain ⟨listed, valid, ⟨pair, least, selects⟩ | ⟨-, other⟩⟩ := buildWithPaths_cases built
  · obtain ⟨mem, total, known, -⟩ := selectPair_least least
    obtain ⟨reliable, inTime, bounded⟩ := reliable_of_cost valid mem known
    rw [selects.executor, selects.dataTier, selects.binding, listed]
    obtain ⟨executor, inside, executes, -, working⟩ := reliable.executor
    refine ⟨⟨executor, inside, executes, working.usable⟩, ?_, ?_, ?_, ?_, ?_⟩
    · intro dataTierId stores
      have moves : task.dataBytes ≠ 0 := fun still => by
        cases stores.symm.trans (reliable.unmoved still)
      obtain ⟨dataTier, inside, named, -, storing⟩ := reliable.dataTier moves
      exact ⟨dataTier, inside, Option.some.inj (named.symm.trans stores), storing.usable⟩
    · intro executor inside dataTier inside' executes stores apart
      have moves : task.dataBytes ≠ 0 := fun still => by
        cases stores.symm.trans (reliable.unmoved still)
      obtain ⟨-, direct⟩ | ⟨path, placed, source, target, named, passable⟩ := reliable.path
      · obtain ⟨cpu, first, memory, second, executes', stores', domains⟩ := direct moves
        obtain rfl := eq_of_key_eq distinct first inside
          (Option.some.inj (executes'.symm.trans executes))
        obtain rfl := eq_of_key_eq distinct second inside'
          (Option.some.inj (stores'.symm.trans stores))
        exact absurd domains apart
      · refine ⟨path, placed, Option.some.inj (source.symm.trans executes),
          Option.some.inj (target.symm.trans stores), ?_, passable⟩
        rw [pairBinding, executes, stores]
        exact named
    · exact ⟨pair, mem, total, rfl, rfl, known, (missesDeadline_eq_false_iff bounded).mp inTime⟩
    · rw [pairBinding, executes]
      cases pair.dataTierId <;> rfl
    · intro binding bound
      obtain ⟨sound, -, stored⟩ := binding_of_reliable distinct reliable valid bound
      exact ⟨sound, stored⟩
  · exact absurd selected other

/-- A task of a processor that may keep its data on storage. -/
def sampleWork (inputBytes workingMemoryBytes : Nat) : PlacementTask where
  schema := placementSchemaV1
  taskId := 1
  inputBytes := inputBytes
  outputBytes := 0
  workingMemoryBytes := workingMemoryBytes
  cpuWorkUnits := 1
  acceleratorWorkUnits := 0
  deadlineMs := some 100
  requiresAccelerator := false
  allowStorage := true
  privacyLocalOnly := true

/-- A plan that moves data to storage reserves a place for them. -/
theorem archived_plan_sound : ∃ plan, buildWithPaths (sampleWork 8 64)
      [sampleCapability "cpu-0" .cpu, sampleCapability "ssd-0" .storage]
      [samplePath "cpu-ssd" "cpu-0"] 0 = .ok plan ∧ plan.executor = some "cpu-0" ∧
    ∃ binding, plan.binding = some binding ∧ binding.validate = .ok () ∧
      0 < binding.storageBytes := by
  obtain ⟨plan, built, facts⟩ := exists_ok_of_any
    (x := buildWithPaths (sampleWork 8 64)
      [sampleCapability "cpu-0" .cpu, sampleCapability "ssd-0" .storage]
      [samplePath "cpu-ssd" "cpu-0"] 0)
    (p := fun plan => plan.decision = "selected" ∧ plan.executor = some "cpu-0" ∧
      plan.dataTier = some "ssd-0") (by decide +kernel)
  obtain ⟨selected, executes, stores⟩ := of_decide_eq_true facts
  obtain ⟨-, -, -, -, emitted, sound⟩ := selected_sound (by decide +kernel) built selected
  obtain ⟨binding, bound⟩ := isSome_iff_exists.mp (emitted.mpr (stores ▸ rfl))
  obtain ⟨valid, reserves⟩ := sound binding bound
  exact ⟨plan, built, executes, binding, bound, valid,
    reserves.mpr ⟨sampleCapability "ssd-0" .storage, by simp, stores, rfl⟩⟩

/-- An executor of which the memory is not known is selected for a task that needs none. -/
theorem unknown_memory_selected : ∃ plan,
    buildWithPaths (sampleWork 0 0)
      [{ sampleCapability "cpu-0" .cpu with usableBytes := none }] [] 0 = .ok plan ∧
    plan.decision = "selected" ∧ plan.executor = some "cpu-0" ∧
    ¬ ∃ usable, ({ sampleCapability "cpu-0" .cpu with usableBytes := none } :
      PlacementCapability).usableBytes = some usable := by
  obtain ⟨plan, built, facts⟩ := exists_ok_of_any
    (x := buildWithPaths (sampleWork 0 0)
      [{ sampleCapability "cpu-0" .cpu with usableBytes := none }] [] 0)
    (p := fun plan => plan.decision = "selected" ∧ plan.executor = some "cpu-0")
    (by decide +kernel)
  obtain ⟨selected, executes⟩ := of_decide_eq_true facts
  exact ⟨plan, built, selected, executes, by simp⟩

end Aegis.Placement
