import AegisCognition.Foundation.Selection
import AegisCognition.Placement.Plan

/-!
# Plans for one task

A task is placed on a pair of an executor and a data tier. Every resource is evaluated alone, then
every pair with the path between them. Of the pairs with a known cost the cheapest is selected.
A missing measurement defers a plan and never makes it cheaper.

An early return of an evaluation is carried as an error, so that the evaluations read as in the
source.
-/

namespace Aegis.Placement

open Std Foundation Resource

def placementSchemaV1 : String := "aegis-placement-plan-v1"

def placementBindingSchemaV1 : String := "aegis-placement-binding-v1"

structure PlacementBinding where
  schema : String
  executorId : String
  dataTierId : String
  transferPathId : Option String
  storageBytes : Nat
  storageInFlight : Nat
  transferTokens : Nat
  sharedMemoryBytes : Nat

structure PlacementTask where
  schema : String
  taskId : Nat
  inputBytes : Nat
  outputBytes : Nat
  workingMemoryBytes : Nat
  cpuWorkUnits : Nat
  acceleratorWorkUnits : Nat
  deadlineMs : Option Nat
  requiresAccelerator : Bool
  allowStorage : Bool
  privacyLocalOnly : Bool

structure PlacementCandidate where
  id : String
  domain : PlacementDomain
  eligible : Bool
  estimatedLatencyUs : Option Nat
  reason : String
  confidence : PlacementConfidence
  acceleratorKind : Option AcceleratorKind
  backend : Option BackendKind
  vendor : Option String
  capabilities : List String

structure PlacementPairCandidate where
  executorId : Option String
  dataTierId : Option String
  transferPathId : Option String
  eligible : Bool
  estimatedLatencyUs : Option Nat
  sharedMemoryBytes : Nat
  reason : String
  confidence : PlacementConfidence
  deriving DecidableEq

structure PlacementPlan where
  schema : String
  taskId : Nat
  selected : Option String
  executor : Option String
  dataTier : Option String
  decision : String
  reason : String
  candidates : List PlacementCandidate
  pairCandidates : List PlacementPairCandidate
  binding : Option PlacementBinding
  plannedAtMs : Nat

namespace PlacementTask

def validate (task : PlacementTask) : Except PlacementError Unit := do
  refuseWhen (task.schema ≠ placementSchemaV1) (.invalidTask "unsupported placement schema")
  refuseWhen (task.taskId = 0) (.invalidTask "task_id must be non-zero")
  refuseWhen (task.requiresAccelerator ∧ task.acceleratorWorkUnits = 0)
    (.invalidTask "accelerator work is required for an accelerator task")

/-- The bytes that go in and out, which saturate. -/
def dataBytes (task : PlacementTask) : Nat :=
  saturatingAdd u64Max task.inputBytes task.outputBytes

/-- The cost misses the deadline of the task, if there is one. -/
def missesDeadline (task : PlacementTask) (nowMs total : Nat) : Bool :=
  task.deadlineMs.any fun deadline =>
    deadline ≤ nowMs || saturatingMul u64Max (deadline - nowMs) 1000 < total

end PlacementTask

def combineConfidence : PlacementConfidence → PlacementConfidence → PlacementConfidence
  | .unknown, _ | _, .unknown => .unknown
  | .estimated, _ | _, .estimated => .estimated
  | .measured, .measured => .measured

def ineligible (candidate : PlacementCandidate) (reason : String) : PlacementCandidate :=
  { candidate with eligible := false, reason := reason }

def pairIneligible (pair : PlacementPairCandidate) (reason : String) : PlacementPairCandidate :=
  { pair with eligible := false, reason := reason }

/-- The pair with a missing measurement. It stays eligible, but without a cost. -/
def pairUnknown (pair : PlacementPairCandidate) (reason : String) : PlacementPairCandidate :=
  { pair with reason := reason, confidence := combineConfidence pair.confidence .unknown }

def divCeil (value divisor : Nat) : Nat :=
  saturatingAdd u64Max value (divisor - 1) / max divisor 1

/-- A capability before its evaluation. -/
def candidateOf (capability : PlacementCapability) : PlacementCandidate where
  id := capability.id
  domain := capability.domain
  eligible := true
  estimatedLatencyUs := none
  reason := "eligible"
  confidence := capability.confidence
  acceleratorKind := capability.acceleratorKind
  backend := capability.backend
  vendor := capability.vendor
  capabilities := capability.capabilities

def computeDomain (domain : PlacementDomain) : Bool :=
  domain = .cpu ∨ domain = .accelerator

section

variable (task : PlacementTask)

def requiredBytes : PlacementDomain → Nat
  | .hostMemory => saturatingAdd u64Max task.workingMemoryBytes task.dataBytes
  | .storage => task.dataBytes
  | .cpu | .accelerator => task.workingMemoryBytes

def domainWorkUnits : PlacementDomain → Nat
  | .accelerator => task.acceleratorWorkUnits
  | .cpu => task.cpuWorkUnits
  | .hostMemory | .storage => 0

/-- The cost of the work on a resource, or why it has none. -/
def computeCost (capability : PlacementCapability) (candidate : PlacementCandidate) :
    Except PlacementCandidate Nat :=
  let workUnits := domainWorkUnits task capability.domain
  if workUnits = 0 then .ok 0
  else
    match capability.computeUnitsPerUs with
    | none => .error { candidate with reason := "compute throughput is unknown" }
    | some throughput => do
        refuseWhen (throughput = 0) (ineligible candidate "resource compute throughput is zero")
        return divCeil workUnits throughput

def evaluateCandidate (capability : PlacementCapability) (nowMs : Nat) : PlacementCandidate :=
  let candidate := candidateOf capability
  let domain := capability.domain
  early do
    refuseWhen (isBlank capability.id) (ineligible candidate "resource id is empty")
    refuseWhen (computeDomain domain ∧ task.requiresAccelerator ∧ domain ≠ .accelerator)
      (ineligible candidate "task requires an accelerator")
    refuseWhen (domain = .accelerator ∧ task.acceleratorWorkUnits = 0)
      (ineligible candidate "task has no accelerator work")
    refuseWhen (domain = .cpu ∧ task.cpuWorkUnits = 0)
      (ineligible candidate "task has no CPU work")
    refuseWhen (!computeDomain domain ∧ task.dataBytes = 0)
      (ineligible candidate "task has no data requiring a residency tier")
    refuseWhen (domain = .storage ∧ !task.allowStorage)
      (ineligible candidate "storage placement is not allowed for this task")
    refuseWhen (task.privacyLocalOnly ∧ !capability.localOnly)
      (ineligible candidate "privacy policy requires a local resource")
    refuseWhen capability.pressure (ineligible candidate "resource is under pressure")
    refuseWhen (capability.confidence = .unknown)
      { candidate with reason := "resource measurement confidence is unknown" }
    refuseWhen (capability.queueCapacity.any fun capacity =>
        capacity = 0 || capacity ≤ capability.queueDepth)
      (ineligible candidate "resource queue is full")
    refuseWhen (capability.usableBytes.any (· < requiredBytes task domain))
      (ineligible candidate
        "working set or data residency does not fit the available resource memory")
    refuseWhen (0 < requiredBytes task domain ∧ capability.usableBytes = none)
      { candidate with reason := "usable resource memory is unknown" }
    let computeCost ← computeCost task capability candidate
    let latencyCost := capability.latencyUs.getD 0
    let queueCost := saturatingMul u64Max capability.queueDepth latencyCost
    let total := saturatingAdd u64Max (saturatingAdd u64Max computeCost queueCost) latencyCost
    refuseWhen (task.missesDeadline nowMs total)
      (ineligible candidate "estimated cost misses the task deadline")
    return { candidate with estimatedLatencyUs := some total }

/-- An end of a pair is eligible and has a cost, or is not required. -/
def checkEnd (pair : PlacementPairCandidate) (ineligibleReason unknownReason missingReason : String)
    (required : Bool) : Option PlacementCandidate → Except PlacementPairCandidate Unit
  | some candidate => do
      refuseWhen (!candidate.eligible) (pairIneligible pair ineligibleReason)
      refuseWhen (candidate.estimatedLatencyUs = none) (pairUnknown pair unknownReason)
  | none => refuseWhen required (pairIneligible pair missingReason)

/-- The path of a pair: the first by its id, unless another one has the same id. -/
def choosePath (pair : PlacementPairCandidate) (paths : List PlacementTransferPath) :
    Except PlacementPairCandidate PlacementTransferPath := do
  let matching := paths.filter fun path =>
    path.fromExecutor = pair.executorId.getD "" ∧ path.toDataTier = pair.dataTierId.getD ""
  let path ← okOr
    (pairUnknown pair "executor/data-tier transfer path is unknown; placement deferred")
    (minBy (fun left right => compare left.id right.id) matching)
  -- The source skips the first match and not the chosen one.
  refuseWhen ((matching.drop 1).any (·.id = path.id))
    (pairIneligible pair "transfer path identity is ambiguous")
  return path

/-- The part of `evaluatePair` that costs the transfer over a path: the cost, with the pair that
is charged for shared memory. -/
def evaluatePath (pair : PlacementPairCandidate) (path : PlacementTransferPath) :
    Except PlacementPairCandidate (PlacementPairCandidate × Nat) := do
  let pair := { pair with
    transferPathId := some path.id
    confidence := combineConfidence pair.confidence path.confidence }
  refuseWhen (task.privacyLocalOnly ∧ !path.localOnly)
    (pairIneligible pair "privacy policy requires a local transfer path")
  refuseWhen (path.confidence = .unknown)
    { pair with reason := "transfer path measurement confidence is unknown" }
  refuseWhen (path.queueCapacity.any fun capacity => capacity = 0 || capacity ≤ path.queueDepth)
    (pairIneligible pair "transfer path queue is full")
  refuseWhen (path.transferTokenCapacity.all (· = 0))
    (pairUnknown pair "transfer token capacity is unknown")
  refuseWhen (path.transferTokenCapacity.any (· ≤ path.transferTokensInUse))
    (pairIneligible pair "transfer token budget is exhausted")
  let (pair, transferCost) ←
    match path.sharedMemoryBytes with
    | some sharedCapacity => do
        let requiredShared := saturatingAdd u64Max task.workingMemoryBytes task.dataBytes
        refuseWhen (sharedCapacity < requiredShared)
          (pairIneligible pair "UMA/shared-memory budget is insufficient")
        pure ({ pair with sharedMemoryBytes := requiredShared }, 0)
    | none => do
        let bandwidth ← okOr (pairUnknown pair "transfer bandwidth is unknown")
          path.bandwidthBytesPerS
        refuseWhen (bandwidth = 0) (pairIneligible pair "transfer bandwidth is zero")
        pure (pair, divCeil (saturatingMul u64Max task.dataBytes 1000000) bandwidth)
  let latency ← okOr (pairUnknown pair "transfer latency is unknown") path.latencyUs
  return (pair, saturatingAdd u64Max (saturatingAdd u64Max transferCost latency)
    (saturatingMul u64Max path.queueDepth latency))

/-- The transfer of a pair. A processor reads and writes host memory without a path. -/
def evaluateTransfer (pair : PlacementPairCandidate) (executor dataTier : Option PlacementCandidate)
    (paths : List PlacementTransferPath) :
    Except PlacementPairCandidate (PlacementPairCandidate × Nat) :=
  let hostCoherent :=
    executor.map (·.domain) = some .cpu ∧ dataTier.map (·.domain) = some .hostMemory
  if task.dataBytes = 0 ∨ hostCoherent then .ok (pair, 0)
  else do
    let path ← choosePath pair paths
    evaluatePath task pair path

/-- A pair before its evaluation. -/
def pairOf (executor dataTier : Option PlacementCandidate) : PlacementPairCandidate where
  executorId := executor.map (·.id)
  dataTierId := dataTier.map (·.id)
  transferPathId := none
  eligible := true
  estimatedLatencyUs := none
  sharedMemoryBytes := 0
  reason := "eligible"
  confidence := ((executor.map (·.confidence)).toList ++
    (dataTier.map (·.confidence)).toList).foldl combineConfidence .measured

def evaluatePair (executor dataTier : Option PlacementCandidate)
    (paths : List PlacementTransferPath) (nowMs : Nat) : PlacementPairCandidate :=
  let pair := pairOf executor dataTier
  early do
    checkEnd pair "executor candidate is ineligible" "executor cost is unknown"
      "required executor is missing" (0 < task.cpuWorkUnits ∨ 0 < task.acceleratorWorkUnits)
      executor
    checkEnd pair "data-tier candidate is ineligible" "data-tier cost is unknown"
      "required data tier is missing" (0 < task.inputBytes ∨ 0 < task.outputBytes) dataTier
    let (pair, pathCost) ← evaluateTransfer task pair executor dataTier paths
    let executorCost := (executor.bind (·.estimatedLatencyUs)).getD 0
    let dataCost := (dataTier.bind (·.estimatedLatencyUs)).getD 0
    let total := saturatingAdd u64Max (saturatingAdd u64Max executorCost dataCost) pathCost
    refuseWhen (task.missesDeadline nowMs total)
      (pairIneligible pair "estimated pair cost misses the task deadline")
    return { pair with estimatedLatencyUs := some total }

/-- The order of the ends and the path of two pairs. -/
def compareEnds (left right : PlacementPairCandidate) : Ordering :=
  ((compare left.executorId right.executorId).then (compare left.dataTierId right.dataTierId)).then
    (compare left.transferPathId right.transferPathId)

/-- The pairs that a task needs, in the order of their evaluation. -/
def evaluatePairs (candidates : List PlacementCandidate) (paths : List PlacementTransferPath)
    (nowMs : Nat) : List PlacementPairCandidate :=
  let executors := candidates.filter fun candidate => computeDomain candidate.domain
  let dataTiers := candidates.filter fun candidate => !computeDomain candidate.domain
  let executorRequired := 0 < task.cpuWorkUnits ∨ 0 < task.acceleratorWorkUnits
  let dataRequired := 0 < task.inputBytes ∨ 0 < task.outputBytes
  if executorRequired then
    executors.flatMap fun executor =>
      if dataRequired then
        dataTiers.map fun dataTier => evaluatePair task (some executor) (some dataTier) paths nowMs
      else [evaluatePair task (some executor) none paths nowMs]
  else if dataRequired then
    dataTiers.map fun dataTier => evaluatePair task none (some dataTier) paths nowMs
  else []

/-- The cheapest of the pairs with a known cost. -/
def selectPair (pairs : List PlacementPairCandidate) : Option PlacementPairCandidate :=
  minBy (fun left right =>
      (compare left.estimatedLatencyUs right.estimatedLatencyUs).then (compareEnds left right))
    (pairs.filter fun pair => pair.eligible && pair.estimatedLatencyUs.isSome)

/-- What a plan binds for a selected pair that has both ends. -/
def pairBinding (capabilities : List PlacementCapability) (pair : PlacementPairCandidate) :
    Option PlacementBinding :=
  match pair.executorId, pair.dataTierId with
  | some executorId, some dataTierId =>
      let dataDomain := (capabilities.find? (·.id = dataTierId)).map (·.domain)
      some {
        schema := placementBindingSchemaV1
        executorId := executorId
        dataTierId := dataTierId
        transferPathId := pair.transferPathId
        storageBytes := if dataDomain = some .storage then task.dataBytes else 0
        storageInFlight := if dataDomain = some .storage then 1 else 0
        transferTokens := if pair.transferPathId.isSome then 1 else 0
        sharedMemoryBytes := pair.sharedMemoryBytes }
  | _, _ => none

end

namespace PlacementPlan

def buildWithPaths (task : PlacementTask) (capabilities : List PlacementCapability)
    (paths : List PlacementTransferPath) (nowMs : Nat) : Except PlacementError PlacementPlan := do
  task.validate
  refuseWhen (capabilities = []) .noCapabilities
  paths.forM PlacementTransferPath.validate
  let candidates := sortBy (fun left right => compare left.id right.id)
    (capabilities.map (evaluateCandidate task · nowMs))
  let pairs := sortBy compareEnds (evaluatePairs task candidates paths nowMs)
  let plan : PlacementPlan := {
    schema := placementSchemaV1
    taskId := task.taskId
    selected := none
    executor := none
    dataTier := none
    decision := "rejected"
    reason := "no executor/data-tier pair satisfies capability, identity, memory, pressure, " ++
      "or deadline constraints"
    candidates := candidates
    pairCandidates := pairs
    binding := none
    plannedAtMs := nowMs }
  match selectPair pairs with
  | some pair =>
      return { plan with
        selected := pair.executorId.or pair.dataTierId
        executor := pair.executorId
        dataTier := pair.dataTierId
        binding := pairBinding task capabilities pair
        decision := "selected"
        reason := "minimum estimated executor + data-tier + transfer-path cost" }
  | none =>
      if pairs.any fun pair => pair.eligible && pair.estimatedLatencyUs.isNone then
        return { plan with
          decision := "deferred"
          reason := "required executor/data tier or its transfer path has no measured cost" }
      else return plan

end PlacementPlan

end Aegis.Placement
