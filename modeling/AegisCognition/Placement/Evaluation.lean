import AegisCognition.Foundation.EarlyReturn
import AegisCognition.Placement.Pair

/-!
# What an evaluation lets through

A resource, a path or a pair that an evaluation returns early has no cost. One with a cost has
passed all checks, and it is what the evaluation began with, with the cost added.
-/

namespace Aegis.Placement

open Std Foundation Resource

variable {task : PlacementTask} {capability : PlacementCapability} {path : PlacementTransferPath}
variable {paths : List PlacementTransferPath} {nowMs total : Nat}
variable {executor dataTier : Option PlacementCandidate}
variable {pair charged : PlacementPairCandidate} {cost : Nat}

theorem missesDeadline_eq_false_iff (bounded : total ≤ u64Max) :
    task.missesDeadline nowMs total = false ↔
      ∀ deadline, task.deadlineMs = some deadline →
        nowMs < deadline ∧ total ≤ (deadline - nowMs) * 1000 := by
  rw [PlacementTask.missesDeadline]
  cases task.deadlineMs with
  | none => simp
  | some deadline =>
      simp only [Option.any_some, Bool.or_eq_false_iff, decide_eq_false_iff_not,
        Option.some.injEq, forall_eq']
      rw [Nat.not_le, Nat.not_lt, saturatingMul, Nat.le_min]
      exact and_congr_right fun _ => and_iff_left bounded

/-! ### Resources -/

/-- What the evaluation of a resource asks of it. -/
structure Admissible (task : PlacementTask) (capability : PlacementCapability) : Prop where
  named : isBlank capability.id = false
  works : computeDomain capability.domain = true →
    0 < task.cpuWorkUnits ∨ 0 < task.acceleratorWorkUnits
  used : computeDomain capability.domain = false → task.dataBytes ≠ 0
  storage : capability.domain = .storage → task.allowStorage = true
  isLocal : task.privacyLocalOnly = true → capability.localOnly = true
  relieved : capability.pressure = false
  measured : capability.confidence ≠ .unknown
  queue : ∀ capacity, capability.queueCapacity = some capacity → capability.queueDepth < capacity
  fits : ∀ usable, capability.usableBytes = some usable →
    requiredBytes task capability.domain ≤ usable
  known : requiredBytes task capability.domain ≠ 0 → capability.usableBytes ≠ none

/-- What is returned early of a resource. -/
structure Rejected (capability : PlacementCapability) (candidate : PlacementCandidate) :
    Prop where
  id : candidate.id = capability.id
  domain : candidate.domain = capability.domain
  unpriced : candidate.estimatedLatencyUs = none

theorem computeCost_stops :
    Stops (Rejected capability) (computeCost task capability (candidateOf capability)) := by
  simp only [computeCost]
  split
  · exact .ok _
  · split
    · intro candidate stopped
      cases stopped
      exact ⟨rfl, rfl, rfl⟩
    · exact .check ⟨rfl, rfl, rfl⟩ (.ok _)

/-- The cost of a resource: its work, and its latency for everything in its queue and the task. -/
def endCost (capability : PlacementCapability) (computeCost : Nat) : Nat :=
  saturatingAdd u64Max
    (saturatingAdd u64Max computeCost
      (saturatingMul u64Max capability.queueDepth (capability.latencyUs.getD 0)))
    (capability.latencyUs.getD 0)

/-- What a resource with a cost has passed. -/
structure Costed (task : PlacementTask) (capability : PlacementCapability) (nowMs cost : Nat) :
    Prop where
  admissible : Admissible task capability
  computed : computeCost task capability (candidateOf capability) = .ok cost
  works : computeDomain capability.domain = true → domainWorkUnits task capability.domain ≠ 0
  inTime : task.missesDeadline nowMs (endCost capability cost) = false

/-- A resource is returned early, or it passes all checks and has a cost in time. -/
theorem evaluateCandidate_cases (task : PlacementTask) (capability : PlacementCapability)
    (nowMs : Nat) :
    Rejected capability (evaluateCandidate task capability nowMs) ∨
      ∃ cost, Costed task capability nowMs cost ∧ evaluateCandidate task capability nowMs =
        { candidateOf capability with estimatedLatencyUs := some (endCost capability cost) } := by
  have rejected (eligible : Bool) (reason : String) : Rejected capability
      { candidateOf capability with eligible := eligible, reason := reason } := ⟨rfl, rfl, rfl⟩
  by_cases stopped : Rejected capability (evaluateCandidate task capability nowMs)
  · exact .inl stopped
  refine .inr ?_
  have passed := eq_ok_of_early (by
    iterate 12 apply Stops.check (rejected _ _)
    apply Stops.bind computeCost_stops
    intro cost _
    exact .check (rejected _ _) (.ok _)) stopped
  simp only [bind_eq_ok_iff, refuseWhen_eq_ok_iff, pure_eq_ok_iff] at passed
  obtain ⟨_, named, _, -, _, accelerated, _, computed, _, used, _, storage, _, isLocal, _, relieved,
    _, measured, _, queue, _, fits, _, known, cost, charged, _, inTime, same⟩ := passed
  have works : computeDomain capability.domain = true →
      domainWorkUnits task capability.domain ≠ 0 := by
    intro computes idle
    cases domain : capability.domain with
    | cpu => exact computed ⟨domain, by rwa [domain] at idle⟩
    | accelerator => exact accelerated ⟨domain, by rwa [domain] at idle⟩
    | hostMemory => simp [computeDomain, domain] at computes
    | storage => simp [computeDomain, domain] at computes
  refine ⟨cost, ⟨?_, charged, works, Bool.eq_false_of_not_eq_true inTime⟩, same.symm⟩
  exact {
    named := Bool.eq_false_of_not_eq_true named
    works := fun computes => by
      cases domain : capability.domain <;> simp_all [computeDomain, Nat.pos_iff_ne_zero]
    used := fun data none_moved => used ⟨by simp [data], none_moved⟩
    storage := fun domain => by simpa [domain] using storage
    isLocal := fun isPrivate => by simpa [isPrivate] using isLocal
    relieved := Bool.eq_false_of_not_eq_true relieved
    measured := measured
    queue := fun capacity same => by
      rw [same] at queue
      simp only [Option.any_some, Bool.or_eq_true, decide_eq_true_eq, not_or] at queue
      omega
    fits := fun usable same => by
      rw [same] at fits
      simpa using fits
    known := fun required unknown => known ⟨Nat.pos_of_ne_zero required, unknown⟩ }

theorem evaluateCandidate_id : (evaluateCandidate task capability nowMs).id = capability.id := by
  obtain rejected | ⟨_, -, same⟩ := evaluateCandidate_cases task capability nowMs
  · exact rejected.id
  · rw [same]
    rfl

theorem evaluateCandidate_domain :
    (evaluateCandidate task capability nowMs).domain = capability.domain := by
  obtain rejected | ⟨_, -, same⟩ := evaluateCandidate_cases task capability nowMs
  · exact rejected.domain
  · rw [same]
    rfl

theorem admissible_of_priced
    (priced : (evaluateCandidate task capability nowMs).estimatedLatencyUs ≠ none) :
    Admissible task capability := by
  obtain rejected | ⟨_, costed, -⟩ := evaluateCandidate_cases task capability nowMs
  · exact absurd rejected.unpriced priced
  · exact costed.admissible

/-! ### Paths -/

/-- What the evaluation of a path asks of it. -/
structure Passable (task : PlacementTask) (path : PlacementTransferPath) : Prop where
  isLocal : task.privacyLocalOnly = true → path.localOnly = true
  measured : path.confidence ≠ .unknown
  queue : ∀ capacity, path.queueCapacity = some capacity → path.queueDepth < capacity
  token : ∃ capacity, path.transferTokenCapacity = some capacity ∧
    path.transferTokensInUse < capacity

/-- A pair in the course of its evaluation, with the path that it has taken so far. -/
structure Unpriced (executor dataTier : Option PlacementCandidate) (route : Option String)
    (pair : PlacementPairCandidate) : Prop where
  executor : pair.executorId = executor.map (·.id)
  dataTier : pair.dataTierId = dataTier.map (·.id)
  route : pair.transferPathId = route
  unpriced : pair.estimatedLatencyUs = none

theorem unpriced_pairOf : Unpriced executor dataTier none (pairOf executor dataTier) :=
  ⟨rfl, rfl, rfl, rfl⟩

namespace Unpriced

variable {route : Option String} (h : Unpriced executor dataTier route pair)

include h

theorem pairIneligible (reason : String) :
    Unpriced executor dataTier route (pairIneligible pair reason) :=
  ⟨h.executor, h.dataTier, h.route, h.unpriced⟩

theorem pairUnknown (reason : String) :
    Unpriced executor dataTier route (pairUnknown pair reason) :=
  ⟨h.executor, h.dataTier, h.route, h.unpriced⟩

theorem checkEnd {ineligibleReason unknownReason missingReason : String} {required : Bool}
    {candidate : Option PlacementCandidate} :
    Stops (Unpriced executor dataTier route)
      (checkEnd pair ineligibleReason unknownReason missingReason required candidate) := by
  cases candidate with
  | none => exact .refuseWhen fun _ => h.pairIneligible _
  | some candidate => exact .check (h.pairIneligible _) (.refuseWhen fun _ => h.pairUnknown _)

theorem choosePath : Stops (Unpriced executor dataTier route) (choosePath pair paths) := by
  apply Stops.bind (.okOr fun _ => h.pairUnknown _)
  intro path _
  exact .check (h.pairIneligible _) (.ok _)

theorem evaluatePath :
    Stops (Unpriced executor dataTier (some path.id)) (evaluatePath task pair path) := by
  have entered (reason : String) (confidence : PlacementConfidence) (eligible : Bool)
      (shared : Nat) : Unpriced executor dataTier (some path.id)
        { pair with
          transferPathId := some path.id
          eligible := eligible
          sharedMemoryBytes := shared
          reason := reason
          confidence := confidence } :=
    ⟨h.executor, h.dataTier, rfl, h.unpriced⟩
  have last (charged : PlacementPairCandidate × Nat)
      (between : Unpriced executor dataTier (some path.id) charged.1) :
      Stops (Unpriced executor dataTier (some path.id)) (do
        let latency ← okOr (Placement.pairUnknown charged.1 "transfer latency is unknown")
          path.latencyUs
        pure (charged.1, saturatingAdd u64Max (saturatingAdd u64Max charged.2 latency)
          (saturatingMul u64Max path.queueDepth latency))) :=
    .bind (.okOr fun _ => between.pairUnknown _) fun _ _ => .ok _
  simp only [Placement.evaluatePath]
  iterate 5 apply Stops.check (entered _ _ _ _)
  split
  · exact .check (entered _ _ _ _) (last _ (entered _ _ _ _))
  · apply Stops.bind (.okOr fun _ => entered _ _ _ _)
    intro bandwidth _
    exact .check (entered _ _ _ _) (last _ (entered _ _ _ _))

end Unpriced

def pathsBetween (executorId dataTierId : String) (paths : List PlacementTransferPath) :
    List PlacementTransferPath :=
  paths.filter fun path => path.fromExecutor = executorId ∧ path.toDataTier = dataTierId

theorem mem_pathsBetween {executorId dataTierId : String} :
    path ∈ pathsBetween executorId dataTierId paths ↔
      path ∈ paths ∧ path.fromExecutor = executorId ∧ path.toDataTier = dataTierId := by
  simp [pathsBetween]

/-- The path that is chosen is the least one by its id, unless another one but the first that is
listed has its id. -/
theorem choosePath_eq_ok_iff : choosePath pair paths = .ok path ↔
    minBy (fun left right => compare left.id right.id)
      (pathsBetween (pair.executorId.getD "") (pair.dataTierId.getD "") paths) = some path ∧
    ∀ other ∈ (pathsBetween (pair.executorId.getD "") (pair.dataTierId.getD "") paths).drop 1,
      other.id ≠ path.id := by
  show (do
    let path ← okOr _ (minBy _ (pathsBetween _ _ paths))
    refuseWhen (((pathsBetween _ _ paths).drop 1).any (·.id = path.id)) _
    return path) = _ ↔ _
  simp only [bind_eq_ok_iff, okOr_eq_ok_iff, refuseWhen_eq_ok_iff, pure_eq_ok_iff]
  constructor
  · rintro ⟨chosen, least, _, alone, rfl⟩
    exact ⟨least, by simpa using alone⟩
  · rintro ⟨least, alone⟩
    exact ⟨path, least, ⟨⟩, by simpa using alone, rfl⟩

/-- A pair that is charged for a path names it, and the path has passed all checks. -/
theorem evaluatePath_ok {route : Option String} (start : Unpriced executor dataTier route pair)
    (h : evaluatePath task pair path = .ok (charged, cost)) :
    Passable task path ∧ Unpriced executor dataTier (some path.id) charged ∧
      charged.eligible = pair.eligible := by
  simp only [evaluatePath, bind_eq_ok_iff, refuseWhen_eq_ok_iff] at h
  obtain ⟨_, isLocal, _, measured, _, queue, _, present, _, free, h⟩ := h
  have passable : Passable task path := {
    isLocal := fun isPrivate => by simpa [isPrivate] using isLocal
    measured := measured
    queue := fun capacity same => by
      rw [same] at queue
      simp only [Option.any_some, Bool.or_eq_true, decide_eq_true_eq, not_or] at queue
      omega
    token := by
      cases same : path.transferTokenCapacity with
      | none => simp [same] at present
      | some capacity => exact ⟨capacity, rfl, by simpa [same] using free⟩ }
  refine ⟨passable, ?_⟩
  split at h
  · simp only [bind_eq_ok_iff, pure_eq_ok_iff] at h
    obtain ⟨_, -, _, rfl, _, -, same⟩ := h
    obtain rfl := congrArg Prod.fst same
    exact ⟨⟨start.executor, start.dataTier, rfl, start.unpriced⟩, rfl⟩
  · simp only [bind_eq_ok_iff, pure_eq_ok_iff] at h
    obtain ⟨_, -, _, -, _, rfl, _, -, same⟩ := h
    obtain rfl := congrArg Prod.fst same
    exact ⟨⟨start.executor, start.dataTier, rfl, start.unpriced⟩, rfl⟩

/-! ### Pairs -/

/-- An end of a pair is eligible and has a cost, or there is none and none is required. -/
def EndReady (required : Prop) : Option PlacementCandidate → Prop
  | some candidate => candidate.eligible = true ∧ candidate.estimatedLatencyUs ≠ none
  | none => ¬ required

theorem checkEnd_eq_ok_iff {ineligibleReason unknownReason missingReason : String}
    {required : Prop} [Decidable required] {candidate : Option PlacementCandidate} :
    checkEnd pair ineligibleReason unknownReason missingReason (decide required) candidate =
      .ok () ↔ EndReady required candidate := by
  cases candidate with
  | none => simp [checkEnd, refuseWhen_eq_ok_iff, EndReady]
  | some candidate =>
      simp only [checkEnd, bind_eq_ok_iff, refuseWhen_eq_ok_iff, EndReady]
      simp

/-- The two ends of a pair have a cost, or are not required. -/
structure Ready (task : PlacementTask) (executor dataTier : Option PlacementCandidate) : Prop where
  executor : EndReady (0 < task.cpuWorkUnits ∨ 0 < task.acceleratorWorkUnits) executor
  dataTier : EndReady (0 < task.inputBytes ∨ 0 < task.outputBytes) dataTier

/-- A processor next to host memory. -/
def HostCoherent (executor dataTier : Option PlacementCandidate) : Prop :=
  executor.map (·.domain) = some .cpu ∧ dataTier.map (·.domain) = some .hostMemory

instance : Decidable (HostCoherent executor dataTier) :=
  inferInstanceAs (Decidable (_ ∧ _))

/-- A pair goes without a path, or it takes one that is chosen. -/
theorem evaluateTransfer_eq (task : PlacementTask) (pair : PlacementPairCandidate)
    (executor dataTier : Option PlacementCandidate) (paths : List PlacementTransferPath) :
    evaluateTransfer task pair executor dataTier paths =
      if task.dataBytes = 0 ∨ HostCoherent executor dataTier then .ok (pair, 0)
      else choosePath pair paths >>= evaluatePath task pair := rfl

theorem evaluateTransfer_ok
    (h : evaluateTransfer task (pairOf executor dataTier) executor dataTier paths =
      .ok (charged, cost)) :
    (∃ route, Unpriced executor dataTier route charged) ∧ charged.eligible = true := by
  rw [evaluateTransfer_eq] at h
  split at h
  · obtain rfl := congrArg Prod.fst (Except.ok.inj h)
    exact ⟨⟨none, unpriced_pairOf⟩, rfl⟩
  · obtain ⟨path, -, taken⟩ := bind_eq_ok_iff.mp h
    obtain ⟨-, kept, eligible⟩ := evaluatePath_ok unpriced_pairOf taken
    exact ⟨⟨some path.id, kept⟩, eligible⟩

theorem evaluateTransfer_stops :
    Stops (fun pair => ∃ route, Unpriced executor dataTier route pair)
      (evaluateTransfer task (pairOf executor dataTier) executor dataTier paths) := by
  rw [evaluateTransfer_eq]
  split
  · exact .ok _
  · apply Stops.bind
    · intro pair stopped
      exact ⟨none, unpriced_pairOf.choosePath pair stopped⟩
    · intro path _ pair stopped
      exact ⟨some path.id, unpriced_pairOf.evaluatePath pair stopped⟩

/-- The last part of `evaluatePair`: the costs of the ends and of the transfer are added up. -/
def chargePair (task : PlacementTask) (executor dataTier : Option PlacementCandidate)
    (nowMs : Nat) (charged : PlacementPairCandidate × Nat) :
    Except PlacementPairCandidate PlacementPairCandidate :=
  let (pair, pathCost) := charged
  let executorCost := (executor.bind (·.estimatedLatencyUs)).getD 0
  let dataCost := (dataTier.bind (·.estimatedLatencyUs)).getD 0
  let total := saturatingAdd u64Max (saturatingAdd u64Max executorCost dataCost) pathCost
  do
    refuseWhen (task.missesDeadline nowMs total)
      (pairIneligible pair "estimated pair cost misses the task deadline")
    return { pair with estimatedLatencyUs := some total }

theorem evaluatePair_eq (task : PlacementTask) (executor dataTier : Option PlacementCandidate)
    (paths : List PlacementTransferPath) (nowMs : Nat) :
    evaluatePair task executor dataTier paths nowMs = early (do
      checkEnd (pairOf executor dataTier) "executor candidate is ineligible"
        "executor cost is unknown" "required executor is missing"
        (decide (0 < task.cpuWorkUnits ∨ 0 < task.acceleratorWorkUnits)) executor
      checkEnd (pairOf executor dataTier) "data-tier candidate is ineligible"
        "data-tier cost is unknown" "required data tier is missing"
        (decide (0 < task.inputBytes ∨ 0 < task.outputBytes)) dataTier
      evaluateTransfer task (pairOf executor dataTier) executor dataTier paths >>=
        chargePair task executor dataTier nowMs) := rfl

/-- What is left of the evaluation of a pair whose ends are ready. -/
theorem evaluatePair_of_ready (ready : Ready task executor dataTier) :
    evaluatePair task executor dataTier paths nowMs = early
      (evaluateTransfer task (pairOf executor dataTier) executor dataTier paths >>=
        chargePair task executor dataTier nowMs) := by
  rw [evaluatePair_eq, checkEnd_eq_ok_iff.mpr ready.executor, checkEnd_eq_ok_iff.mpr ready.dataTier]
  rfl

/-- A pair with an end that is not ready is returned early, whatever the paths are. -/
theorem evaluatePair_of_not_ready (unready : ¬ Ready task executor dataTier) :
    ∃ rejected, Unpriced executor dataTier none rejected ∧
      ∀ paths nowMs, evaluatePair task executor dataTier paths nowMs = rejected := by
  have stops {ineligibleReason unknownReason missingReason : String} {required : Bool}
      {candidate : Option PlacementCandidate} : Stops (Unpriced executor dataTier none)
        (checkEnd (pairOf executor dataTier) ineligibleReason unknownReason missingReason required
          candidate) := unpriced_pairOf.checkEnd
  cases first : checkEnd (pairOf executor dataTier) "executor candidate is ineligible"
      "executor cost is unknown" "required executor is missing"
      (decide (0 < task.cpuWorkUnits ∨ 0 < task.acceleratorWorkUnits)) executor with
  | error rejected =>
      refine ⟨rejected, stops rejected first, fun paths nowMs => ?_⟩
      rw [evaluatePair_eq, first]
      rfl
  | ok _ =>
      cases second : checkEnd (pairOf executor dataTier) "data-tier candidate is ineligible"
          "data-tier cost is unknown" "required data tier is missing"
          (decide (0 < task.inputBytes ∨ 0 < task.outputBytes)) dataTier with
      | error rejected =>
          refine ⟨rejected, stops rejected second, fun paths nowMs => ?_⟩
          rw [evaluatePair_eq, first, ok_bind, second]
          rfl
      | ok _ =>
          exact absurd ⟨checkEnd_eq_ok_iff.mp first, checkEnd_eq_ok_iff.mp second⟩ unready

/-- Of the paths, the evaluation of a pair reads no more than the transfer, and that only if the
ends are ready. -/
theorem evaluatePair_congr {paths' : List PlacementTransferPath}
    (same : Ready task executor dataTier →
      evaluateTransfer task (pairOf executor dataTier) executor dataTier paths =
        evaluateTransfer task (pairOf executor dataTier) executor dataTier paths') :
    evaluatePair task executor dataTier paths nowMs =
      evaluatePair task executor dataTier paths' nowMs := by
  by_cases ready : Ready task executor dataTier
  · rw [evaluatePair_of_ready ready, evaluatePair_of_ready ready, same ready]
  · obtain ⟨rejected, -, evaluated⟩ := evaluatePair_of_not_ready ready
    rw [evaluated, evaluated]

/-- What a pair with a cost has passed. -/
structure Priced (task : PlacementTask) (executor dataTier : Option PlacementCandidate)
    (paths : List PlacementTransferPath) (nowMs : Nat) (charged : PlacementPairCandidate)
    (cost total : Nat) : Prop where
  ready : Ready task executor dataTier
  transfer : evaluateTransfer task (pairOf executor dataTier) executor dataTier paths =
    .ok (charged, cost)
  inTime : task.missesDeadline nowMs total = false
  bounded : total ≤ u64Max

/-- A pair is returned early, or it passes all checks and has a cost in time. -/
theorem evaluatePair_cases (task : PlacementTask) (executor dataTier : Option PlacementCandidate)
    (paths : List PlacementTransferPath) (nowMs : Nat) :
    (∃ route, Unpriced executor dataTier route
      (evaluatePair task executor dataTier paths nowMs)) ∨
      ∃ charged cost total, Priced task executor dataTier paths nowMs charged cost total ∧
        evaluatePair task executor dataTier paths nowMs =
          { charged with estimatedLatencyUs := some total } := by
  by_cases ready : Ready task executor dataTier
  · rw [evaluatePair_of_ready ready]
    cases taken : evaluateTransfer task (pairOf executor dataTier) executor dataTier paths with
    | error rejected => exact .inl (evaluateTransfer_stops rejected taken)
    | ok charged =>
        obtain ⟨charged, cost⟩ := charged
        rw [ok_bind, chargePair, refuseWhen]
        split
        · obtain ⟨route, kept⟩ := (evaluateTransfer_ok taken).1
          exact .inl ⟨route, kept.pairIneligible _⟩
        · rename_i inTime
          exact .inr ⟨charged, cost, _, ⟨ready, taken, Bool.eq_false_of_not_eq_true inTime,
            saturatingAdd_le⟩, rfl⟩
  · obtain ⟨rejected, unpriced, evaluated⟩ := evaluatePair_of_not_ready ready
    exact .inl ⟨none, evaluated paths nowMs ▸ unpriced⟩

theorem evaluatePair_ends :
    (evaluatePair task executor dataTier paths nowMs).executorId = executor.map (·.id) ∧
      (evaluatePair task executor dataTier paths nowMs).dataTierId = dataTier.map (·.id) := by
  obtain ⟨_, unpriced⟩ | ⟨charged, _, _, priced, same⟩ :=
    evaluatePair_cases task executor dataTier paths nowMs
  · exact ⟨unpriced.executor, unpriced.dataTier⟩
  · obtain ⟨_, kept⟩ := (evaluateTransfer_ok priced.transfer).1
    rw [same]
    exact ⟨kept.executor, kept.dataTier⟩

/-- A pair with a cost is eligible and has passed all checks. -/
theorem priced_of_cost
    (known : (evaluatePair task executor dataTier paths nowMs).estimatedLatencyUs = some total) :
    ∃ charged cost, Priced task executor dataTier paths nowMs charged cost total ∧
      evaluatePair task executor dataTier paths nowMs =
        { charged with estimatedLatencyUs := some total } ∧ charged.eligible = true := by
  obtain ⟨_, unpriced⟩ | ⟨charged, cost, other, priced, same⟩ :=
    evaluatePair_cases task executor dataTier paths nowMs
  · cases unpriced.unpriced.symm.trans known
  · rw [same] at known
    cases known
    exact ⟨charged, cost, priced, same, (evaluateTransfer_ok priced.transfer).2⟩

/-! ### Pairs that take a path -/

section Route

variable (ready : Ready task executor dataTier)
variable (moves : ¬ (task.dataBytes = 0 ∨ HostCoherent executor dataTier))

include ready moves

/-- A pair whose path is chosen names it, whatever comes of the path. -/
theorem route_of_chosen (chosen : choosePath (pairOf executor dataTier) paths = .ok path) :
    (evaluatePair task executor dataTier paths nowMs).transferPathId = some path.id := by
  rw [evaluatePair_of_ready ready, evaluateTransfer_eq, if_neg moves, chosen, ok_bind]
  have kept : Unpriced executor dataTier none (pairOf executor dataTier) := unpriced_pairOf
  apply early_property (q := fun pair : PlacementPairCandidate =>
    pair.transferPathId = some path.id)
  · apply Stops.bind
    · intro rejected stopped
      exact (kept.evaluatePath rejected stopped).route
    · rintro ⟨charged, cost⟩ taken
      exact .check (evaluatePath_ok kept taken).2.1.route (.ok _)
  · intro charged passed
    obtain ⟨⟨between, cost⟩, taken, passed⟩ := bind_eq_ok_iff.mp passed
    obtain ⟨_, -, same⟩ := bind_eq_ok_iff.mp passed
    cases same
    exact (evaluatePath_ok kept taken).2.1.route

theorem route_of_not_chosen {rejected : PlacementPairCandidate}
    (refused : choosePath (pairOf executor dataTier) paths = .error rejected) :
    (evaluatePair task executor dataTier paths nowMs).transferPathId = none := by
  rw [evaluatePair_of_ready ready, evaluateTransfer_eq, if_neg moves, refused]
  exact (unpriced_pairOf.choosePath rejected refused).route

end Route

end Aegis.Placement
