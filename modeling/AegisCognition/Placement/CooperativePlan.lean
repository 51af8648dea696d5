import AegisCognition.Placement.Pair

/-!
# Cooperative tasks and their plans

A cooperative task declares its slices, how they depend on each other, and how much the buffers
between them may hold. Its check makes sure that a dependency points to a slice of an earlier
stage.
-/

namespace Aegis.Placement

open Std Foundation Resource

def cooperativePlacementTaskSchemaV1 : String := "aegis-cooperative-placement-task-v1"

structure CooperativeBufferPolicy where
  capacityBytes : Nat
  maxInFlightBuffers : Nat
  highWatermarkBytes : Nat
  lowWatermarkBytes : Nat
  allowSpillToStorage : Bool

structure CooperativeSliceSpec where
  id : String
  stage : Nat
  dependsOn : List String
  executorDomain : PlacementDomain
  dataTierDomain : PlacementDomain
  requiredDataTierId : Option String
  inputBytes : Nat
  outputBytes : Nat
  workingMemoryBytes : Nat
  workUnits : Nat

structure CooperativePlacementTask where
  schema : String
  taskId : Nat
  mode : CooperativePlacementMode
  slices : List CooperativeSliceSpec
  bufferPolicy : CooperativeBufferPolicy
  deadlineMs : Option Nat
  requiresLocalOnly : Bool
  allowStorage : Bool

def CooperativeBufferPolicy.validate (policy : CooperativeBufferPolicy)
    (mode : CooperativePlacementMode) : Except PlacementError Unit := do
  let hasBuffers := mode ≠ .singleExecutor
  refuseWhen (hasBuffers ∧ (policy.capacityBytes = 0 ∨ policy.maxInFlightBuffers = 0))
    (.invalidTask
      "cooperative parallel/pipeline mode requires a bounded buffer and in-flight limit")
  refuseWhen (hasBuffers ∧ policy.capacityBytes < policy.maxInFlightBuffers)
    (.invalidTask "cooperative buffer byte capacity must cover one byte per in-flight buffer")
  refuseWhen (policy.capacityBytes < policy.highWatermarkBytes ∨
      policy.highWatermarkBytes < policy.lowWatermarkBytes)
    (.invalidTask "cooperative buffer watermarks must be bounded and ordered")
  refuseWhen (¬ hasBuffers ∧ (policy.maxInFlightBuffers ≠ 0 ∨ policy.highWatermarkBytes ≠ 0 ∨
      policy.lowWatermarkBytes ≠ 0))
    (.invalidTask "single-executor mode cannot declare active cooperative buffers")

namespace CooperativePlacementTask

/-- One dependency of a slice is checked against those before it and against its stage. -/
def validateDependency (stageById : ExtTreeMap String Nat) (slice : CooperativeSliceSpec)
    (dependencies : ExtTreeSet String) (dependency : String) :
    Except PlacementError (ExtTreeSet String) := do
  refuseWhen (dependency ∈ dependencies)
    (.invalidTask "cooperative slice dependencies must be unique")
  let dependencyStage ← okOr (.invalidTask "cooperative slice dependency is unknown")
    stageById[dependency]?
  refuseWhen (dependency = slice.id ∨ slice.stage ≤ dependencyStage)
    (.invalidTask "cooperative dependencies must point to an earlier stage")
  return dependencies.insert dependency

/-- One slice is checked against those before it. -/
def validateSlice (task : CooperativePlacementTask) (stageById : ExtTreeMap String Nat)
    (ids : ExtTreeSet String) (slice : CooperativeSliceSpec) :
    Except PlacementError (ExtTreeSet String) := do
  refuseWhen (isBlank slice.id ∨ slice.id ∈ ids)
    (.invalidTask "cooperative slice identity must be non-empty and unique")
  refuseWhen (!computeDomain slice.executorDomain)
    (.invalidTask "cooperative slices require CPU or accelerator executors")
  refuseWhen (computeDomain slice.dataTierDomain)
    (.invalidTask "cooperative slices require host-memory or storage data tiers")
  refuseWhen (slice.requiredDataTierId.any isBlank)
    (.invalidTask "required cooperative data-tier identity must be non-empty")
  refuseWhen (slice.workUnits = 0)
    (.invalidTask "cooperative slice work_units must be non-zero")
  refuseWhen (slice.dataTierDomain = .storage ∧ !task.allowStorage)
    (.invalidTask "storage data tiers are disabled for this cooperative task")
  let _ ← slice.dependsOn.foldlM (validateDependency stageById slice) ∅
  return ids.insert slice.id

def validateMode (task : CooperativePlacementTask) : Except PlacementError Unit :=
  match task.mode with
  | .singleExecutor =>
      refuseWhen (task.slices.length ≠ 1 ∨ task.slices.any (·.dependsOn ≠ []))
        (.invalidTask "single-executor mode requires exactly one independent slice")
  | .parallelSlices =>
      refuseWhen (task.slices.length < 2 ∨ task.slices.any (·.dependsOn ≠ []))
        (.invalidTask "parallel-slices mode requires at least two independent slices")
  | .pipeline =>
      refuseWhen (task.slices.length < 2)
        (.invalidTask "pipeline mode requires at least two slices")

def validate (task : CooperativePlacementTask) : Except PlacementError Unit := do
  refuseWhen (task.schema ≠ cooperativePlacementTaskSchemaV1)
    (.invalidTask "unsupported cooperative placement task schema")
  refuseWhen (task.taskId = 0 ∨ task.slices = [])
    (.invalidTask "cooperative task id and slices must be non-empty")
  task.bufferPolicy.validate task.mode
  let stageById : ExtTreeMap String Nat :=
    .ofList (task.slices.map fun slice => (slice.id, slice.stage)) compare
  refuseWhen (stageById.size ≠ task.slices.length)
    (.invalidTask "cooperative slice identities must be unique")
  let _ ← task.slices.foldlM (task.validateSlice stageById) ∅
  task.validateMode

end CooperativePlacementTask

/-! ## Building a cooperative plan

Every slice is placed by a plan of its own. Then the buffers between the slices are laid out, and
what slices and buffers claim is added up to one reservation. The plan is selected if that fits
the inventory, and deferred without any claim otherwise. -/

def cooperativePlacementPlanSchemaV1 : String := "aegis-cooperative-placement-plan-v1"

def cooperativePlacementBufferSchemaV1 : String := "aegis-cooperative-placement-buffer-v1"

def cooperativePlacementSpillSchemaV1 : String := "aegis-cooperative-placement-spill-v1"

/-! ### Slices -/

namespace CooperativeSliceSpec

def dataBytes (specification : CooperativeSliceSpec) : Nat :=
  saturatingAdd u64Max specification.inputBytes specification.outputBytes

end CooperativeSliceSpec

def cooperativeSliceTask (task : CooperativePlacementTask) (specification : CooperativeSliceSpec) :
    PlacementTask where
  schema := placementSchemaV1
  taskId := task.taskId
  inputBytes := specification.inputBytes
  outputBytes := specification.outputBytes
  workingMemoryBytes := specification.workingMemoryBytes
  cpuWorkUnits := if specification.executorDomain = .cpu then specification.workUnits else 0
  acceleratorWorkUnits :=
    if specification.executorDomain = .accelerator then specification.workUnits else 0
  deadlineMs := task.deadlineMs
  requiresAccelerator := specification.executorDomain = .accelerator
  allowStorage := task.allowStorage
  privacyLocalOnly := task.requiresLocalOnly

def sortedDependencies (dependsOn : List String) : List String :=
  sortBy compare dependsOn

section

variable (specification : CooperativeSliceSpec)

def cooperativeBoundSlice (placement : PlacementPlan) : CooperativePlacementSlice :=
  let binding := placement.binding
  let dataBytes := specification.dataBytes
  let storageBytes := if specification.dataTierDomain = .storage then dataBytes else 0
  let pair := placement.pairCandidates.find? fun candidate =>
    candidate.eligible ∧ candidate.executorId = placement.executor ∧
      candidate.dataTierId = placement.dataTier
  { id := specification.id
    stage := specification.stage
    dependsOn := sortedDependencies specification.dependsOn
    executorDomain := specification.executorDomain
    dataTierDomain := specification.dataTierDomain
    executorId := placement.executor
    dataTierId := placement.dataTier
    transferPathId := binding.bind (·.transferPathId)
    workUnits := specification.workUnits
    inputBytes := specification.inputBytes
    outputBytes := specification.outputBytes
    workingMemoryBytes := specification.workingMemoryBytes
    reservation := {
      executorQueueSlots := 1
      executorMemoryBytes := specification.workingMemoryBytes
      dataTierBytes := dataBytes
      storageBytes := storageBytes
      storageInFlight := if 0 < storageBytes then 1 else 0
      transferTokens := (binding.map (·.transferTokens)).getD 0
      sharedMemoryBytes := (binding.map (·.sharedMemoryBytes)).getD 0 }
    estimatedLatencyUs := pair.bind (·.estimatedLatencyUs)
    confidence := (pair.map (·.confidence)).getD .unknown
    decision := "selected"
    reason := placement.reason }

def cooperativeUnboundSlice (reason : String) : CooperativePlacementSlice where
  id := specification.id
  stage := specification.stage
  dependsOn := sortedDependencies specification.dependsOn
  executorDomain := specification.executorDomain
  dataTierDomain := specification.dataTierDomain
  executorId := none
  dataTierId := none
  transferPathId := none
  workUnits := specification.workUnits
  inputBytes := specification.inputBytes
  outputBytes := specification.outputBytes
  workingMemoryBytes := specification.workingMemoryBytes
  reservation := .none
  estimatedLatencyUs := none
  confidence := .unknown
  decision := "deferred"
  reason := reason

/-- A slice of a deferred plan, of which nothing is bound. -/
def releaseSlice (slice : CooperativePlacementSlice) : CooperativePlacementSlice :=
  { slice with
    executorId := none
    dataTierId := none
    transferPathId := none
    estimatedLatencyUs := none
    confidence := .unknown
    reservation := .none
    decision := if slice.decision = "selected" then "deferred" else slice.decision }

def cooperativeDeferred (task : CooperativePlacementTask) (slices : List CooperativePlacementSlice)
    (reason : String) (plannedAtMs : Nat) : CooperativePlacementPlan where
  schema := cooperativePlacementPlanSchemaV1
  taskId := task.taskId
  mode := task.mode
  decision := "deferred"
  reason := reason
  slices := slices.map releaseSlice
  buffers := []
  reservation := .empty
  reservationStatus := "NOT_READY"
  estimatedMakespanUs := none
  plannedAtMs := plannedAtMs

/-- The capabilities that a slice may be placed on. -/
def scopedCapabilities (capabilities : List PlacementCapability) : List PlacementCapability :=
  (capabilities.filter fun capability =>
    capability.domain = specification.executorDomain ∨
      capability.domain = specification.dataTierDomain).filter fun capability =>
    specification.requiredDataTierId.all fun id =>
      capability.domain ≠ specification.dataTierDomain ∨ capability.id = id

end

/-- A slice is bound, or not bound and the plan deferred for this reason. -/
inductive SlicePlacement where
  | bound (slice : CooperativePlacementSlice)
  | unbound (slice : CooperativePlacementSlice) (reason : String)

/-- What the loop of `build` does for one slice. -/
def placeSlice (task : CooperativePlacementTask) (capabilities : List PlacementCapability)
    (paths : List PlacementTransferPath) (nowMs : Nat) (specification : CooperativeSliceSpec) :
    Except PlacementError SlicePlacement :=
  match PlacementPlan.buildWithPaths (cooperativeSliceTask task specification)
      (scopedCapabilities specification capabilities) paths nowMs with
  | .error .noCapabilities => .ok (.unbound
      (cooperativeUnboundSlice specification
        "required executor or data-tier capability is unavailable")
      "one or more cooperative slices have unavailable capabilities")
  | .error error => .error error
  | .ok placement =>
      if placement.decision ≠ "selected" ∨ placement.executor = none ∨
          0 < specification.dataBytes ∧ placement.dataTier = none then
        let reason := "slice " ++ specification.id ++ " placement " ++ placement.decision ++ ": " ++
          placement.reason
        .ok (.unbound (cooperativeUnboundSlice specification reason) reason)
      else .ok (.bound (cooperativeBoundSlice specification placement))

/-- The loop of `build` over the slices: all of them are bound, or a deferred plan is returned. -/
def placeSlices (task : CooperativePlacementTask) (capabilities : List PlacementCapability)
    (paths : List PlacementTransferPath) (nowMs : Nat) (slices : List CooperativePlacementSlice) :
    List CooperativeSliceSpec →
      Except PlacementError (CooperativePlacementPlan ⊕ List CooperativePlacementSlice)
  | [] => .ok (.inr slices)
  | specification :: rest => do
      match ← placeSlice task capabilities paths nowMs specification with
      | .bound slice => placeSlices task capabilities paths nowMs (slices ++ [slice]) rest
      | .unbound slice reason =>
          return .inl (cooperativeDeferred task (slices ++ [slice]) reason nowMs)

/-! ### Buffers -/

section

variable (task : CooperativePlacementTask)

def selectCooperativeBufferTier (capabilities : List PlacementCapability) : Option String :=
  (minBy (fun left right =>
      (compare left.latencyUs right.latencyUs).then (compare left.id right.id))
    (capabilities.filter fun capability =>
      capability.domain = .hostMemory && !capability.pressure &&
      (!task.requiresLocalOnly || capability.localOnly) &&
      capability.usableBytes.any (task.bufferPolicy.capacityBytes ≤ ·))).map (·.id)

/-- The paths from an executor that a buffer may spill over, by the least id. -/
def selectSpillPath (sourceExecutor storageId : String) (paths : List PlacementTransferPath) :
    Option PlacementTransferPath :=
  minBy (fun left right => compare left.id right.id) <| paths.filter fun path =>
    path.fromExecutor = sourceExecutor && path.toDataTier = storageId &&
    (!task.requiresLocalOnly || path.localOnly) && path.confidence ≠ .unknown &&
    path.bandwidthBytesPerS.any (0 < ·) && path.latencyUs.isSome &&
    path.queueCapacity.any (path.queueDepth < ·) &&
    path.transferTokenCapacity.any (path.transferTokensInUse < ·)

/-- The storage has room for a buffer. -/
def holdsSpill (buffer : CooperativeBufferPlan) (capability : PlacementCapability) : Bool :=
  capability.domain = .storage && !capability.pressure &&
  (!task.requiresLocalOnly || capability.localOnly) && capability.confidence ≠ .unknown &&
  capability.usableBytes.any (buffer.capacityBytes ≤ ·) &&
  capability.queueCapacity.any (capability.queueDepth < ·)

def selectCooperativeSpillReservation (buffer : CooperativeBufferPlan)
    (executorBySliceId : ExtTreeMap String (Option String))
    (capabilities : List PlacementCapability) (paths : List PlacementTransferPath) :
    Option CooperativeSpillReservation := do
  guard task.allowStorage
  let fromSlice ← buffer.fromSlice
  let sourceExecutor ← (executorBySliceId[fromSlice]?).join
  let (storageId, transferPathId) ← (capabilities.filter (holdsSpill task buffer)).foldl
    (fun best storage =>
      match selectSpillPath task sourceExecutor storage.id paths with
      | none => best
      | some path =>
          if best.all fun best =>
              storage.id < best.1 || storage.id = best.1 && path.id < best.2 then
            some (storage.id, path.id)
          else best)
    (none : Option (String × String))
  return {
    schema := cooperativePlacementSpillSchemaV1
    storageId := storageId
    storageBytes := buffer.capacityBytes
    storageInFlight := 1
    transferPathId := transferPathId
    transferTokens := 1 }

/-- The closure `make_buffer` of `buildCooperativeBuffers`. -/
def makeBuffer (slices : List CooperativePlacementSlice) (dataTierId : String)
    (capabilities : List PlacementCapability)
    (paths : List PlacementTransferPath) (id : String) (fromSlice toSlice : Option String)
    (dataBytes : Nat) : CooperativeBufferPlan :=
  let policy := task.bufferPolicy
  let spillToStorage := policy.allowSpillToStorage && capabilities.any fun capability =>
    capability.domain = .storage && capability.usableBytes.any (0 < ·)
  let executorBySliceId : ExtTreeMap String (Option String) :=
    .ofList (slices.map fun slice => (slice.id, slice.executorId)) compare
  let buffer : CooperativeBufferPlan := {
    schema := cooperativePlacementBufferSchemaV1
    id := id
    fromSlice := fromSlice
    toSlice := toSlice
    dataTierId := some dataTierId
    capacityBytes := min policy.capacityBytes (max dataBytes policy.maxInFlightBuffers)
    maxInFlightBuffers := policy.maxInFlightBuffers
    highWatermarkBytes := policy.highWatermarkBytes
    lowWatermarkBytes := policy.lowWatermarkBytes
    spillToStorage := false
    spillReservation := none
    backpressure := "BLOCK_PRODUCER_AT_HIGH_WATERMARK" }
  if spillToStorage then
    let spill :=
      selectCooperativeSpillReservation task buffer executorBySliceId capabilities paths
    { buffer with spillReservation := spill, spillToStorage := spill.isSome }
  else buffer

def buildCooperativeBuffers (slices : List CooperativePlacementSlice) (bufferTierId : Option String)
    (capabilities : List PlacementCapability) (paths : List PlacementTransferPath) :
    List CooperativeBufferPlan :=
  match bufferTierId with
  | none => []
  | some dataTierId =>
      let makeBuffer := makeBuffer task slices dataTierId capabilities paths
      let outputBytesById : ExtTreeMap String Nat :=
        .ofList (slices.map fun slice => (slice.id, slice.outputBytes)) compare
      match task.mode with
      | .singleExecutor => []
      | .parallelSlices => slices.map fun slice =>
          makeBuffer ("cooperative-buffer-" ++ slice.id) none (some slice.id)
            (max slice.inputBytes slice.outputBytes)
      | .pipeline => slices.flatMap fun slice =>
          (sortedDependencies slice.dependsOn).map fun dependency =>
            makeBuffer ("cooperative-buffer-" ++ dependency ++ "-" ++ slice.id) (some dependency)
              (some slice.id) (max (outputBytesById[dependency]?.getD 0) slice.inputBytes)

end

/-! ### The whole plan -/

def addU32 (map : ExtTreeMap String Nat) (id : String) (value : Nat) : ExtTreeMap String Nat :=
  Tally.addSaturatingEntry u32Max map (id, value)

def addU64 (map : ExtTreeMap String Nat) (id : String) (value : Nat) : ExtTreeMap String Nat :=
  Tally.addSaturatingEntry u64Max map (id, value)

section

variable (claim : CooperativeSliceReservation) (reservation : CooperativeReservation)

def addExecutor (executorId : String) : CooperativeReservation :=
  { reservation with
    executorQueueSlots :=
      addU32 reservation.executorQueueSlots executorId claim.executorQueueSlots
    executorMemoryBytes :=
      addU64 reservation.executorMemoryBytes executorId claim.executorMemoryBytes }

def addDataTier (dataTierId : String) : CooperativeReservation :=
  { reservation with
    dataTierBytes := addU64 reservation.dataTierBytes dataTierId claim.dataTierBytes
    storageBytes := addU64 reservation.storageBytes dataTierId claim.storageBytes
    storageInFlight := addU32 reservation.storageInFlight dataTierId claim.storageInFlight }

def addPath (pathId : String) : CooperativeReservation :=
  { reservation with
    transferTokens := addU32 reservation.transferTokens pathId claim.transferTokens
    sharedMemoryBytes := addU64 reservation.sharedMemoryBytes pathId claim.sharedMemoryBytes }

end

/-- One round of the loop of `aggregateCooperativeReservation` over the slices. -/
def addSlice (reservation : CooperativeReservation) (slice : CooperativePlacementSlice) :
    CooperativeReservation :=
  let claim := slice.reservation
  let reservation := slice.executorId.elim reservation (addExecutor claim reservation)
  let reservation := slice.dataTierId.elim reservation (addDataTier claim reservation)
  slice.transferPathId.elim reservation (addPath claim reservation)

def addBufferBytes (capacityBytes : Nat) (reservation : CooperativeReservation)
    (dataTierId : String) : CooperativeReservation :=
  { reservation with
    bufferBytes := addU64 reservation.bufferBytes dataTierId capacityBytes }

def addSpill (reservation : CooperativeReservation) (spill : CooperativeSpillReservation) :
    CooperativeReservation :=
  { reservation with
    storageBytes := addU64 reservation.storageBytes spill.storageId spill.storageBytes
    storageInFlight := addU32 reservation.storageInFlight spill.storageId spill.storageInFlight
    transferTokens :=
      addU32 reservation.transferTokens spill.transferPathId spill.transferTokens }

/-- One round of the loop of `aggregateCooperativeReservation` over the buffers. -/
def addBuffer (reservation : CooperativeReservation) (buffer : CooperativeBufferPlan) :
    CooperativeReservation :=
  let reservation :=
    buffer.dataTierId.elim reservation (addBufferBytes buffer.capacityBytes reservation)
  buffer.spillReservation.elim reservation (addSpill reservation)

def aggregateCooperativeReservation (slices : List CooperativePlacementSlice)
    (buffers : List CooperativeBufferPlan) : CooperativeReservation :=
  buffers.foldl addBuffer (slices.foldl addSlice .empty)

/-- A slice starts when all its dependencies are finished. -/
def finishSlice (finishTimes : ExtTreeMap String Nat) (slice : CooperativePlacementSlice) :
    Option (ExtTreeMap String Nat) := do
  let start ← slice.dependsOn.foldlM (fun start dependency => do
    return max start (← finishTimes[dependency]?)) 0
  return finishTimes.insert slice.id (saturatingAdd u64Max start (← slice.estimatedLatencyUs))

def cooperativeMakespan (mode : CooperativePlacementMode)
    (slices : List CooperativePlacementSlice) : Option Nat :=
  if slices.any (·.estimatedLatencyUs.isNone) then none
  else
    match mode with
    | .singleExecutor => slices.foldlM (fun total slice => do
        return saturatingAdd u64Max total (← slice.estimatedLatencyUs)) 0
    | .parallelSlices => (slices.filterMap (·.estimatedLatencyUs)).max?
    | .pipeline => do
        let ordered := sortBy (fun left right =>
          (compare left.stage right.stage).then (compare left.id right.id)) slices
        let finishTimes ← ordered.foldlM finishSlice ∅
        (OrderedMap.valueList finishTimes).max?

def selectedReason : CooperativePlacementMode → String
  | .singleExecutor => "explicit single-executor baseline selected"
  | .parallelSlices => "explicit independent slices selected for parallel coordination"
  | .pipeline => "explicit dependency stages selected with bounded backpressure"

namespace CooperativePlacementPlan

/-- The last part of `build`, for slices that are all bound. -/
def complete (task : CooperativePlacementTask) (inventory : CooperativeReservationLedger)
    (debug : PlacementError → String) (nowMs : Nat) (slices : List CooperativePlacementSlice)
    (buffers : List CooperativeBufferPlan) : CooperativePlacementPlan :=
  let reservation := aggregateCooperativeReservation slices buffers
  match inventory.ensureFits reservation with
  | .error error => cooperativeDeferred task slices
      ("cooperative reservation is not ready: " ++ debug error) nowMs
  | .ok () =>
      { schema := cooperativePlacementPlanSchemaV1
        taskId := task.taskId
        mode := task.mode
        decision := "selected"
        reason := selectedReason task.mode
        slices := slices
        buffers := buffers
        reservation := reservation
        reservationStatus := "READY_ALL_OR_NONE"
        estimatedMakespanUs := cooperativeMakespan task.mode slices
        plannedAtMs := nowMs }

/-- `debug` is the text of an error by `Debug`, which escapes identities by tables of the standard
library. No more than the reason of a deferred plan depends on it. -/
def build (debug : PlacementError → String) (task : CooperativePlacementTask)
    (capabilities : List PlacementCapability) (paths : List PlacementTransferPath) (nowMs : Nat) :
    Except PlacementError CooperativePlacementPlan := do
  task.validate
  refuseWhen (capabilities = []) .noCapabilities
  let inventory ← CooperativeReservationLedger.fromInventory capabilities paths
  let bufferTierId := selectCooperativeBufferTier task capabilities
  if task.bufferPolicy.capacityBytes ≠ 0 ∧ bufferTierId = none then
    return cooperativeDeferred task []
      "bounded cooperative buffers have no available host-memory tier" nowMs
  else
    match ← placeSlices task capabilities paths nowMs [] task.slices with
    | .inl deferred => return deferred
    | .inr slices =>
        let buffers := buildCooperativeBuffers task slices
          (if task.bufferPolicy.capacityBytes = 0 then none else bufferTierId) capabilities paths
        return complete task inventory debug nowMs slices buffers

end CooperativePlacementPlan

/-- The spill path of each storage in a plan, which may not have two. -/
def cooperativeSpillPaths (plan : CooperativePlacementPlan) :
    Except String (ExtTreeMap String String) :=
  plan.buffers.foldlM (fun spillPaths buffer =>
    match buffer.spillReservation with
    | none => .ok spillPaths
    | some spill => do
        refuseWhen (spillPaths[spill.storageId]?.any (· ≠ spill.transferPathId))
          "cooperative plan maps one storage identity to multiple spill paths"
        return spillPaths.insert spill.storageId spill.transferPathId) ∅

end Aegis.Placement
