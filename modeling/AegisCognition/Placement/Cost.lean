import AegisCognition.Foundation.RoundedDivision
import AegisCognition.Placement.Soundness

/-!
# What the cost of a plan covers

The cost of a selected pair is compared with the exact cost of its work, its queues and its
transfer. The sums stop at the largest number of 64 bits, and so does the dividend of a rounded
division. A dividend that is cut off makes its quotient too small.
-/

namespace Aegis.Placement

open Std Foundation Resource PlacementPlan Option

variable {task : PlacementTask} {capability executor : PlacementCapability}
variable {dataTier : Option PlacementCapability} {path : PlacementTransferPath}
variable {route : Option PlacementTransferPath} {capabilities : List PlacementCapability}
variable {paths : List PlacementTransferPath} {nowMs cost total : Nat} {plan : PlacementPlan}
variable {pair charged : PlacementPairCandidate} {candidate : PlacementCandidate}

/-- The time that a task waits for a queue and for its own turn. -/
def waitingUs (queueDepth : Nat) (latencyUs : Option Nat) : Nat :=
  (queueDepth + 1) * latencyUs.getD 0

/-- The exact cost of a transfer over a path: the wait, and the bytes where they are moved. -/
def exactTransferCost (task : PlacementTask) (path : PlacementTransferPath) : ℚ :=
  waitingUs path.queueDepth path.latencyUs +
    match path.sharedMemoryBytes with
    | some _ => 0
    | none => ((task.inputBytes + task.outputBytes) * 1000000 : Nat) /
        (path.bandwidthBytesPerS.getD 0 : Nat)

/-- The exact cost of a task on an executor, with its data on a tier behind a path. -/
def exactCost (task : PlacementTask) (executor : PlacementCapability)
    (dataTier : Option PlacementCapability) (route : Option PlacementTransferPath) : ℚ :=
  domainWorkUnits task executor.domain / (executor.computeUnitsPerUs.getD 0 : Nat) +
    waitingUs executor.queueDepth executor.latencyUs +
    dataTier.elim 0 (fun tier => (waitingUs tier.queueDepth tier.latencyUs : ℚ)) +
    route.elim 0 (exactTransferCost task)

/-! ### The sums -/

theorem endCost_eq : endCost capability cost =
    min (cost + waitingUs capability.queueDepth capability.latencyUs) u64Max := by
  rw [endCost, waitingUs, saturatingAdd, saturatingAdd, saturatingMul, Nat.add_mul, Nat.one_mul]
  omega

theorem divCeil_eq {value divisor : Nat} (positive : 0 < divisor) :
    divCeil value divisor = roundedQuotient u64Max value divisor := by
  rw [divCeil, Nat.max_eq_left positive, saturatingAdd_div positive]

/-- The bytes are added and multiplied before they are divided, and both stop at the bound. -/
theorem divCeil_bytes {bandwidth : Nat} (positive : 0 < bandwidth) :
    divCeil (saturatingMul u64Max task.dataBytes 1000000) bandwidth =
      roundedQuotient u64Max ((task.inputBytes + task.outputBytes) * 1000000) bandwidth := by
  have stops : saturatingMul u64Max task.dataBytes 1000000 =
      min ((task.inputBytes + task.outputBytes) * 1000000) u64Max := by
    rw [saturatingMul, PlacementTask.dataBytes, saturatingAdd]
    omega
  rw [divCeil_eq positive, stops, roundedQuotient_min positive]

/-- The work of an executor is divided by its throughput. -/
theorem computeCost_ok (works : domainWorkUnits task capability.domain ≠ 0)
    (computed : computeCost task capability candidate = .ok cost) :
    ∃ throughput, capability.computeUnitsPerUs = some throughput ∧ 0 < throughput ∧
      cost = roundedQuotient u64Max (domainWorkUnits task capability.domain) throughput := by
  simp only [computeCost, if_neg works] at computed
  cases known : capability.computeUnitsPerUs with
  | none =>
      rw [known] at computed
      cases computed
  | some throughput =>
      simp only [known, bind_eq_ok_iff, refuseWhen_eq_ok_iff, pure_eq_ok_iff] at computed
      obtain ⟨_, nonzero, rfl⟩ := computed
      have positive : 0 < throughput := Nat.pos_of_ne_zero nonzero
      exact ⟨throughput, rfl, positive, divCeil_eq positive⟩

/-- A data tier does no work. -/
theorem computeCost_of_tier (stores : computeDomain capability.domain = false)
    (computed : computeCost task capability candidate = .ok cost) : cost = 0 := by
  have idle : domainWorkUnits task capability.domain = 0 := by
    cases domain : capability.domain with
    | cpu => simp [computeDomain, domain] at stores
    | accelerator => simp [computeDomain, domain] at stores
    | hostMemory => rfl
    | storage => rfl
  simp only [computeCost, if_pos idle] at computed
  exact (Except.ok.inj computed).symm

theorem costed_of_priced
    (known : (evaluateCandidate task capability nowMs).estimatedLatencyUs = some total) :
    ∃ cost, Costed task capability nowMs cost ∧ total = endCost capability cost := by
  obtain rejected | ⟨cost, costed, same⟩ := evaluateCandidate_cases task capability nowMs
  · cases rejected.unpriced.symm.trans known
  · rw [same] at known
    exact ⟨cost, costed, (Option.some.inj known).symm⟩

/-! ### The transfer -/

/-- The bytes that are divided by a bandwidth, if any are. -/
def movedBytes (task : PlacementTask) (route : Option PlacementTransferPath) : Nat :=
  if route.any (·.sharedMemoryBytes.isNone) then
    (task.inputBytes + task.outputBytes) * 1000000
  else 0

def transferBandwidth (route : Option PlacementTransferPath) : Nat :=
  if route.any (·.sharedMemoryBytes.isNone) then
    (route.bind (·.bandwidthBytesPerS)).getD 0
  else 1

/-- The wait for a path, if one is taken. -/
def routeWaitUs (route : Option PlacementTransferPath) : Nat :=
  route.elim 0 fun path => waitingUs path.queueDepth path.latencyUs

theorem exactTransferCost_eq : route.elim 0 (exactTransferCost task) =
    routeWaitUs route + (movedBytes task route / transferBandwidth route : ℚ) := by
  cases route with
  | none => simp [routeWaitUs, movedBytes, transferBandwidth]
  | some path =>
      cases shared : path.sharedMemoryBytes with
      | none => simp [exactTransferCost, routeWaitUs, movedBytes, transferBandwidth, shared]
      | some bytes => simp [exactTransferCost, routeWaitUs, movedBytes, transferBandwidth, shared]

theorem evaluatePath_cost (taken : evaluatePath task pair path = .ok (charged, cost)) :
    0 < transferBandwidth (some path) ∧
      cost = min (roundedQuotient u64Max (movedBytes task (some path))
        (transferBandwidth (some path)) + routeWaitUs (some path)) u64Max := by
  simp only [evaluatePath, bind_eq_ok_iff, refuseWhen_eq_ok_iff] at taken
  obtain ⟨_, -, _, -, _, -, _, -, _, -, taken⟩ := taken
  have added (latency transfer : Nat) (known : path.latencyUs = some latency) :
      saturatingAdd u64Max (saturatingAdd u64Max transfer latency)
        (saturatingMul u64Max path.queueDepth latency) =
        min (transfer + routeWaitUs (some path)) u64Max := by
    rw [routeWaitUs, elim_some, waitingUs, known, getD_some, saturatingAdd,
      saturatingAdd, saturatingMul, Nat.add_mul, Nat.one_mul]
    omega
  split at taken
  · rename_i bytes shared
    simp only [bind_eq_ok_iff, okOr_eq_ok_iff, pure_eq_ok_iff] at taken
    obtain ⟨_, -, _, rfl, latency, known, same⟩ := taken
    obtain ⟨-, rfl⟩ := Prod.mk.inj same
    simp only [transferBandwidth, movedBytes, any_some, shared, isNone_some,
      Bool.false_eq_true, if_false, roundedQuotient_zero]
    exact ⟨Nat.one_pos, added latency 0 known⟩
  · rename_i unshared
    simp only [bind_eq_ok_iff, okOr_eq_ok_iff, refuseWhen_eq_ok_iff, pure_eq_ok_iff] at taken
    obtain ⟨bandwidth, fast, _, nonzero, _, rfl, latency, known, same⟩ := taken
    obtain ⟨-, rfl⟩ := Prod.mk.inj same
    have positive : 0 < bandwidth := Nat.pos_of_ne_zero nonzero
    simp only [transferBandwidth, movedBytes, any_some, unshared, isNone_none,
      if_true, bind_some, fast, getD_some]
    refine ⟨positive, ?_⟩
    rw [← divCeil_bytes positive]
    exact added latency _ known

/-! ### The pair -/

/-- What a pair with a cost was made of: its executor, its data tier and the path it takes. -/
structure MadeOf (task : PlacementTask) (capabilities : List PlacementCapability)
    (paths : List PlacementTransferPath) (nowMs : Nat) (pair : PlacementPairCandidate)
    (executor : PlacementCapability) (dataTier : Option PlacementCapability)
    (route : Option PlacementTransferPath) : Prop where
  executor_mem : executor ∈ capabilities
  dataTier_mem : ∀ tier ∈ dataTier, tier ∈ capabilities
  executes : computeDomain executor.domain = true
  stores : ∀ tier ∈ dataTier, computeDomain tier.domain = false
  evaluated : evaluatePair task (some (evaluateCandidate task executor nowMs))
    (dataTier.map (evaluateCandidate task · nowMs)) paths nowMs = pair
  routed : match route with
    | none => task.dataBytes = 0 ∨
        HostCoherent (some (evaluateCandidate task executor nowMs))
          (dataTier.map (evaluateCandidate task · nowMs))
    | some path =>
      ¬ (task.dataBytes = 0 ∨ HostCoherent (some (evaluateCandidate task executor nowMs))
          (dataTier.map (evaluateCandidate task · nowMs))) ∧
        choosePath (pairOf (some (evaluateCandidate task executor nowMs))
          (dataTier.map (evaluateCandidate task · nowMs))) paths = .ok path

theorem evaluateTransfer_cost (made : MadeOf task capabilities paths nowMs pair executor dataTier
      route)
    (taken : evaluateTransfer task (pairOf (some (evaluateCandidate task executor nowMs))
      (dataTier.map (evaluateCandidate task · nowMs)))
      (some (evaluateCandidate task executor nowMs))
      (dataTier.map (evaluateCandidate task · nowMs)) paths = .ok (charged, cost)) :
    0 < transferBandwidth route ∧
      cost = min (roundedQuotient u64Max (movedBytes task route) (transferBandwidth route) +
        routeWaitUs route) u64Max := by
  have routed := made.routed
  rw [evaluateTransfer_eq] at taken
  cases route with
  | none =>
      rw [if_pos routed] at taken
      obtain ⟨-, rfl⟩ := Prod.mk.inj (Except.ok.inj taken)
      exact ⟨Nat.one_pos, by simp [movedBytes, routeWaitUs]⟩
  | some path =>
      rw [if_neg routed.1, routed.2, ok_bind] at taken
      exact evaluatePath_cost taken

/-- The cost of a pair is that of its ends and of its transfer. -/
theorem evaluatePair_total {executor dataTier : Option PlacementCandidate}
    (known : (evaluatePair task executor dataTier paths nowMs).estimatedLatencyUs = some total) :
    ∃ charged cost, Priced task executor dataTier paths nowMs charged cost total ∧
      total = saturatingAdd u64Max (saturatingAdd u64Max
        ((executor.bind (·.estimatedLatencyUs)).getD 0)
        ((dataTier.bind (·.estimatedLatencyUs)).getD 0)) cost := by
  obtain ⟨charged, cost, priced, -, -⟩ := priced_of_cost known
  refine ⟨charged, cost, priced, ?_⟩
  rw [evaluatePair_of_ready priced.ready, priced.transfer, ok_bind, chargePair, refuseWhen] at known
  split at known
  · obtain ⟨_, kept⟩ := (evaluateTransfer_ok priced.transfer).1
    cases kept.unpriced.symm.trans known
  · exact (Option.some.inj known).symm

/-- All costs of a pair before the sum stops. -/
def pairSum (task : PlacementTask) (executor : PlacementCapability)
    (dataTier : Option PlacementCapability) (route : Option PlacementTransferPath) : Nat :=
  roundedQuotient u64Max (domainWorkUnits task executor.domain)
      (executor.computeUnitsPerUs.getD 0) +
    waitingUs executor.queueDepth executor.latencyUs +
    dataTier.elim 0 (fun tier => waitingUs tier.queueDepth tier.latencyUs) +
    (roundedQuotient u64Max (movedBytes task route) (transferBandwidth route) + routeWaitUs route)

theorem total_eq_pairSum (made : MadeOf task capabilities paths nowMs pair executor dataTier route)
    (known : pair.estimatedLatencyUs = some total) :
    0 < executor.computeUnitsPerUs.getD 0 ∧ 0 < transferBandwidth route ∧
      total = min (pairSum task executor dataTier route) u64Max := by
  rw [← made.evaluated] at known
  obtain ⟨charged, cost, priced, sum⟩ := evaluatePair_total known
  obtain ⟨positive, transfer⟩ := evaluateTransfer_cost made priced.transfer
  obtain ⟨first, executes⟩ := ne_none_iff_exists'.mp priced.ready.executor.2
  obtain ⟨work, costed, rfl⟩ := costed_of_priced executes
  obtain ⟨throughput, fast, moving, rfl⟩ :=
    computeCost_ok (costed.works made.executes) costed.computed
  have tier : ((dataTier.map (evaluateCandidate task · nowMs)).bind (·.estimatedLatencyUs)).getD 0 =
      min (dataTier.elim 0 fun tier => waitingUs tier.queueDepth tier.latencyUs) u64Max := by
    cases dataTier with
    | none => rfl
    | some tier =>
        obtain ⟨second, stores⟩ := ne_none_iff_exists'.mp priced.ready.dataTier.2
        obtain ⟨idle, costed', rfl⟩ := costed_of_priced stores
        obtain rfl := computeCost_of_tier (made.stores tier rfl) costed'.computed
        rw [map_some, bind_some, stores, getD_some, endCost_eq, Nat.zero_add,
          elim_some]
  rw [bind_some, executes, getD_some, tier, endCost_eq, transfer] at sum
  rw [fast, getD_some]
  refine ⟨moving, positive, ?_⟩
  rw [sum, pairSum, fast, getD_some, saturatingAdd, saturatingAdd]
  omega

/-- The condition for a cost to cover the work: the sum stops at the bound, or no dividend is cut
off beyond what the other quotient is rounded up. -/
def CostCovered (task : PlacementTask) (executor : PlacementCapability)
    (dataTier : Option PlacementCapability) (route : Option PlacementTransferPath) : Prop :=
  u64Max ≤ pairSum task executor dataTier route ∨
    Covered u64Max (domainWorkUnits task executor.domain) (executor.computeUnitsPerUs.getD 0)
      (movedBytes task route) (transferBandwidth route)

theorem total_covers_iff (made : MadeOf task capabilities paths nowMs pair executor dataTier route)
    (known : pair.estimatedLatencyUs = some total) :
    (total = u64Max ∨ exactCost task executor dataTier route ≤ total) ↔
      CostCovered task executor dataTier route := by
  obtain ⟨moving, positive, sum⟩ := total_eq_pairSum made known
  have exact_le : exactCost task executor dataTier route ≤ pairSum task executor dataTier route ↔
      Covered u64Max (domainWorkUnits task executor.domain) (executor.computeUnitsPerUs.getD 0)
        (movedBytes task route) (transferBandwidth route) := by
    rw [← add_div_le_iff_covered moving positive, exactCost, exactTransferCost_eq, pairSum]
    push_cast
    cases dataTier with
    | none => simp only [elim_none]; constructor <;> intro h <;> linarith
    | some tier => simp only [elim_some]; constructor <;> intro h <;> linarith
  rw [CostCovered, ← exact_le]
  obtain small | large := Nat.lt_or_ge (pairSum task executor dataTier route) u64Max
  · rw [Nat.min_eq_left small.le] at sum
    rw [sum]
    have below : pairSum task executor dataTier route ≠ u64Max := small.ne
    exact or_congr (iff_of_false below (Nat.not_le.mpr small)) Iff.rfl
  · rw [Nat.min_eq_right large] at sum
    exact iff_of_true (.inl sum) (.inl large)

/-! ### Selected plans -/

/-- A pair with a cost was made of an executor, of a tier if data move, and of the path taken. -/
theorem exists_madeOf (valid : ∀ path ∈ paths, path.validate = .ok ())
    (mem : pair ∈ pairsOf task capabilities paths nowMs)
    (known : pair.estimatedLatencyUs = some total) :
    ∃ executor dataTier route,
      MadeOf task capabilities paths nowMs pair executor dataTier route := by
  obtain ⟨reliable, -⟩ := reliable_of_cost valid mem known
  obtain ⟨_, -, named, -⟩ := reliable.executor
  obtain ⟨first, second, ends, rfl⟩ := mem_pairsOf.mp mem
  obtain ⟨executes, stores, -⟩ := mem_pairEnds.mp ends
  obtain ⟨charged, cost, priced, -⟩ := priced_of_cost known
  rw [evaluatePair_ends.1] at named
  obtain ⟨_, rfl, -⟩ := map_eq_some_iff.mp named
  obtain ⟨executor, inside, rfl⟩ := mem_candidatesOf.mp executes.2.1
  have computes := executes.2.2
  rw [evaluateCandidate_domain] at computes
  obtain ⟨dataTier, listed, storing, rfl⟩ : ∃ dataTier : Option PlacementCapability,
      (∀ tier ∈ dataTier, tier ∈ capabilities) ∧
      (∀ tier ∈ dataTier, computeDomain tier.domain = false) ∧
      dataTier.map (evaluateCandidate task · nowMs) = second := by
    cases second with
    | none => exact ⟨none, by simp, by simp, rfl⟩
    | some candidate =>
        obtain ⟨tier, listed, rfl⟩ := mem_candidatesOf.mp stores.2.1
        have side := stores.2.2
        rw [evaluateCandidate_domain] at side
        exact ⟨some tier, by simpa using listed, by simpa using side, rfl⟩
  have transfer := priced.transfer
  rw [evaluateTransfer_eq] at transfer
  split at transfer
  · rename_i direct
    exact ⟨executor, dataTier, none, inside, listed, computes, storing, rfl, direct⟩
  · rename_i moves
    obtain ⟨path, chosen, -⟩ := bind_eq_ok_iff.mp transfer
    exact ⟨executor, dataTier, some path, inside, listed, computes, storing, rfl, moves, chosen⟩

/-- The cost of the selected pair is the largest number, or at least the exact cost of what the
pair was made of, if and only if that is covered. -/
theorem selected_cost_covers_iff
    (built : buildWithPaths task capabilities paths nowMs = .ok plan)
    (selected : plan.decision = "selected") :
    ∃ pair, selectPair plan.pairCandidates = some pair ∧
      pair.executorId = plan.executor ∧ pair.dataTierId = plan.dataTier ∧
      ∃ total, pair.estimatedLatencyUs = some total ∧
        (∃ executor dataTier route,
          MadeOf task capabilities paths nowMs pair executor dataTier route) ∧
        ∀ executor dataTier route,
          MadeOf task capabilities paths nowMs pair executor dataTier route →
          ((total = u64Max ∨ exactCost task executor dataTier route ≤ total) ↔
            CostCovered task executor dataTier route) := by
  obtain ⟨listed, valid, ⟨pair, least, selects⟩ | ⟨-, other⟩⟩ := buildWithPaths_cases built
  · obtain ⟨mem, total, known, -⟩ := selectPair_least least
    refine ⟨pair, ?_, selects.executor.symm, selects.dataTier.symm, total, known, ?_, ?_⟩
    · rw [listed]
      exact least
    · exact exists_madeOf valid mem known
    · intro executor dataTier route made
      exact total_covers_iff made known
  · exact absurd selected other

/-- A task of a processor that reads from storage. -/
def storedWork (inputBytes deadlineMs : Nat) : PlacementTask :=
  { sampleWork inputBytes 64 with deadlineMs := some deadlineMs }

def largeStorage : PlacementCapability :=
  { sampleCapability "ssd-0" .storage with usableBytes := some u64Max }

def fastPath : PlacementTransferPath :=
  { samplePath "cpu-ssd" "cpu-0" with bandwidthBytesPerS := some 10000000000 }

def storedPair (inputBytes deadlineMs : Nat) : PlacementPairCandidate :=
  let task := storedWork inputBytes deadlineMs
  evaluatePair task (some (evaluateCandidate task (sampleCapability "cpu-0" .cpu) 0))
    (some (evaluateCandidate task largeStorage 0)) [fastPath] 0

theorem stored_plan_covers : ∃ plan, buildWithPaths (storedWork 1000 100)
      [sampleCapability "cpu-0" .cpu, largeStorage] [fastPath] 0 = .ok plan ∧
    ∃ total, (storedPair 1000 100).estimatedLatencyUs = some total ∧
      selectPair plan.pairCandidates = some (storedPair 1000 100) ∧
      (total = u64Max ∨ exactCost (storedWork 1000 100) (sampleCapability "cpu-0" .cpu)
        (some largeStorage) (some fastPath) ≤ total) := by
  obtain ⟨plan, built, facts⟩ := exists_ok_of_any
    (x := buildWithPaths (storedWork 1000 100)
      [sampleCapability "cpu-0" .cpu, largeStorage] [fastPath] 0)
    (p := fun plan => plan.decision = "selected" ∧
      selectPair plan.pairCandidates = some (storedPair 1000 100)) (by decide +kernel)
  obtain ⟨selected, chosen⟩ := of_decide_eq_true facts
  obtain ⟨pair, least, -, -, total, known, -, covers⟩ := selected_cost_covers_iff built selected
  obtain rfl := Option.some.inj (least.symm.trans chosen)
  refine ⟨plan, built, total, known, chosen, (covers _ _ _ ?_).mpr (.inr ?_)⟩
  · exact {
      executor_mem := by simp
      dataTier_mem := by simp
      executes := rfl
      stores := by simp [largeStorage, sampleCapability, computeDomain]
      evaluated := rfl
      routed := by decide +kernel }
  · constructor
    · intro clips
      exact absurd clips (by decide +kernel)
    · intro clips
      exact absurd clips (by decide +kernel)

/-- A transfer that takes more than a day is costed at half an hour, and meets a deadline of one. -/
theorem clipped_transfer_understates : ∃ plan,
    buildWithPaths (storedWork 1000000000000000 3600000)
      [sampleCapability "cpu-0" .cpu, largeStorage] [fastPath] 0 = .ok plan ∧
    plan.decision = "selected" ∧ ∃ pair total, selectPair plan.pairCandidates = some pair ∧
      pair.estimatedLatencyUs = some total ∧
      MadeOf (storedWork 1000000000000000 3600000) [sampleCapability "cpu-0" .cpu, largeStorage]
        [fastPath] 0 pair (sampleCapability "cpu-0" .cpu) (some largeStorage) (some fastPath) ∧
      ¬ (total = u64Max ∨ exactCost (storedWork 1000000000000000 3600000)
        (sampleCapability "cpu-0" .cpu) (some largeStorage) (some fastPath) ≤ total) := by
  obtain ⟨plan, built, facts⟩ := exists_ok_of_any
    (x := buildWithPaths (storedWork 1000000000000000 3600000)
      [sampleCapability "cpu-0" .cpu, largeStorage] [fastPath] 0)
    (p := fun plan => plan.decision = "selected" ∧
      selectPair plan.pairCandidates = some (storedPair 1000000000000000 3600000) ∧
      (storedPair 1000000000000000 3600000).estimatedLatencyUs = some 1844674411)
    (by decide +kernel)
  obtain ⟨selected, chosen, known⟩ := of_decide_eq_true facts
  refine ⟨plan, built, selected, _, _, chosen, known, ?_, ?_⟩
  · exact {
      executor_mem := by simp
      dataTier_mem := by simp
      executes := rfl
      stores := by simp [largeStorage, sampleCapability, computeDomain]
      evaluated := rfl
      routed := by decide +kernel }
  · norm_num [exactCost, exactTransferCost, waitingUs, storedWork, sampleWork, sampleCapability,
      largeStorage, fastPath, samplePath, domainWorkUnits, u64Max]

end Aegis.Placement
