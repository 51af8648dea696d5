import AegisCognition.Foundation.Tally
import AegisCognition.Foundation.Scan
import AegisCognition.Resource.Request

/-!
# The cooperative admission ledger

A cooperative plan reserves amounts of eight resources at once, each for several identities. The
ledger admits such a reservation as a whole or not at all. An attempt of a task is bound to the
digest of its plan when it is admitted first, and a lease is released only by an exact copy of it.

The two widths of the amounts differ in their bound alone, so the helpers for them share one
definition. Texts are compared in the order of their characters, which is that of their bytes.
-/

namespace Aegis.Resource

open Std Foundation

/-! ### Reservations -/

structure CooperativeReservation where
  executorQueueSlots : ExtTreeMap String Nat
  executorMemoryBytes : ExtTreeMap String Nat
  dataTierBytes : ExtTreeMap String Nat
  bufferBytes : ExtTreeMap String Nat
  storageBytes : ExtTreeMap String Nat
  storageInFlight : ExtTreeMap String Nat
  transferTokens : ExtTreeMap String Nat
  sharedMemoryBytes : ExtTreeMap String Nat
  deriving DecidableEq

/-- The eight resources of a reservation. -/
inductive CooperativeResource where
  | executorQueueSlots
  | executorMemoryBytes
  | dataTierBytes
  | bufferBytes
  | storageBytes
  | storageInFlight
  | transferTokens
  | sharedMemoryBytes
  deriving DecidableEq

/-- The largest amount of a resource: three of the eight are `u32`, the others `u64`. -/
def CooperativeResource.bound : CooperativeResource → Nat
  | .executorQueueSlots | .storageInFlight | .transferTokens => u32Max
  | _ => u64Max

namespace CooperativeReservation

/-- The reservation of nothing, which `Default` yields. -/
def empty : CooperativeReservation where
  executorQueueSlots := ∅
  executorMemoryBytes := ∅
  dataTierBytes := ∅
  bufferBytes := ∅
  storageBytes := ∅
  storageInFlight := ∅
  transferTokens := ∅
  sharedMemoryBytes := ∅

/-- What is reserved of one resource. -/
def tally (reservation : CooperativeReservation) : CooperativeResource → ExtTreeMap String Nat
  | .executorQueueSlots => reservation.executorQueueSlots
  | .executorMemoryBytes => reservation.executorMemoryBytes
  | .dataTierBytes => reservation.dataTierBytes
  | .bufferBytes => reservation.bufferBytes
  | .storageBytes => reservation.storageBytes
  | .storageInFlight => reservation.storageInFlight
  | .transferTokens => reservation.transferTokens
  | .sharedMemoryBytes => reservation.sharedMemoryBytes

end CooperativeReservation

def validateCooperativeMap (map : ExtTreeMap String Nat) (resource : String)
    (rejectZero : Bool) : Except ResourceError Unit :=
  refuseWhen (map.toList.any fun entry => isBlank entry.1 || rejectZero && entry.2 == 0)
    (.invalidRequest (resource ++ " reservation has an invalid identity or amount"))

def validateCooperativeCapacity (capacity : CooperativeReservation) :
    Except ResourceError Unit := do
  validateCooperativeMap capacity.executorQueueSlots "executor queue" false
  validateCooperativeMap capacity.executorMemoryBytes "executor memory" false
  validateCooperativeMap capacity.dataTierBytes "data tier" false
  validateCooperativeMap capacity.bufferBytes "buffer" false
  refuseWhen (!capacity.bufferBytes.isEmpty) (.invalidRequest
    "buffer capacity is accounted through data-tier capacity, not an independent map")
  validateCooperativeMap capacity.storageBytes "storage bytes" false
  validateCooperativeMap capacity.storageInFlight "storage in-flight" false
  validateCooperativeMap capacity.transferTokens "transfer tokens" false
  validateCooperativeMap capacity.sharedMemoryBytes "shared memory" false

section

variable (reservation : CooperativeReservation)

def validateCooperativeUsageReservation : Except ResourceError Unit := do
  validateCooperativeMap reservation.executorQueueSlots "executor queue" true
  validateCooperativeMap reservation.executorMemoryBytes "executor memory" true
  validateCooperativeMap reservation.dataTierBytes "data tier" true
  validateCooperativeMap reservation.bufferBytes "buffer" true
  validateCooperativeMap reservation.storageBytes "storage bytes" true
  validateCooperativeMap reservation.storageInFlight "storage in-flight" true
  validateCooperativeMap reservation.transferTokens "transfer tokens" true
  validateCooperativeMap reservation.sharedMemoryBytes "shared memory" true

/-- The source repeats the eight checks of a usage before the check of the two storage maps. -/
def validateCooperativeAccountingReservation : Except ResourceError Unit := do
  validateCooperativeUsageReservation reservation
  refuseWhen
    ((reservation.storageBytes.keys.any fun storageId =>
        Tally.amount reservation.storageInFlight storageId == 0) ||
      reservation.storageInFlight.keys.any fun storageId =>
        Tally.amount reservation.storageBytes storageId == 0)
    (.invalidRequest "storage bytes and storage in-flight reservations must match")

def cooperativeReservationIsEmpty : Bool :=
  reservation.executorQueueSlots.isEmpty && reservation.executorMemoryBytes.isEmpty &&
  reservation.dataTierBytes.isEmpty && reservation.bufferBytes.isEmpty &&
  reservation.storageBytes.isEmpty && reservation.storageInFlight.isEmpty &&
  reservation.transferTokens.isEmpty && reservation.sharedMemoryBytes.isEmpty

def validateCooperativeReservation : Except ResourceError Unit := do
  validateCooperativeAccountingReservation reservation
  refuseWhen (cooperativeReservationIsEmpty reservation)
    (.invalidRequest "cooperative reservation must contain at least one resource")

end

/-- One entry of a request is compared with the capacity for its identity. -/
def ensureCooperativeEntryFits (bound : Nat) (resource : String)
    (capacity used : ExtTreeMap String Nat) (entry : String × Nat) : Except ResourceError Unit :=
  match capacity[entry.1]? with
  | none => .error (.capabilityDenied
      (resource ++ " capacity is unavailable for identity " ++ entry.1))
  | some limit =>
      refuseWhen ((checkedAdd bound (Tally.amount used entry.1) entry.2).all (limit < ·))
        .resourceExhausted

def ensureCooperativeMapFits (bound : Nat) (resource : String)
    (capacity used requested : ExtTreeMap String Nat) : Except ResourceError Unit :=
  requested.toList.forM (ensureCooperativeEntryFits bound resource capacity used)

def ensureCooperativeU32MapFits := ensureCooperativeMapFits u32Max

def ensureCooperativeU64MapFits := ensureCooperativeMapFits u64Max

/-- Data and buffers of one identity are compared with the data-tier capacity together. -/
def ensureCooperativeCombinedFits (resource : String)
    (capacity usedPrimary usedBuffers requestedPrimary requestedBuffers : ExtTreeMap String Nat)
    (id : String) : Except ResourceError Unit := do
  let current ← okOr .resourceExhausted
    (checkedAdd u64Max (Tally.amount usedPrimary id) (Tally.amount usedBuffers id))
  let requested ← okOr .resourceExhausted
    (checkedAdd u64Max (Tally.amount requestedPrimary id) (Tally.amount requestedBuffers id))
  if requested = 0 then .ok ()
  else
    match capacity[id]? with
    | none => .error (.capabilityDenied
        (resource ++ " capacity is unavailable for identity " ++ id))
    | some limit =>
        refuseWhen ((checkedAdd u64Max current requested).all (limit < ·)) .resourceExhausted

def ensureCooperativeCombinedU64MapFits (resource : String)
    (capacity usedPrimary usedBuffers requestedPrimary requestedBuffers : ExtTreeMap String Nat) :
    Except ResourceError Unit :=
  (ExtTreeSet.ofList (usedPrimary.keys ++ usedBuffers.keys ++ requestedPrimary.keys ++
    requestedBuffers.keys) compare).toList.forM
    (ensureCooperativeCombinedFits resource capacity usedPrimary usedBuffers requestedPrimary
      requestedBuffers)

section

variable (target source : ExtTreeMap String Nat)

def addCooperativeU32Map : Except ResourceError (ExtTreeMap String Nat) :=
  okOr .resourceExhausted (Tally.add u32Max target source)

def addCooperativeU64Map : Except ResourceError (ExtTreeMap String Nat) :=
  okOr .resourceExhausted (Tally.add u64Max target source)

def addCooperativeAdmissionReservation (left right : CooperativeReservation) :
    Except ResourceError CooperativeReservation := do
  let executorQueueSlots ← addCooperativeU32Map left.executorQueueSlots right.executorQueueSlots
  let executorMemoryBytes ← addCooperativeU64Map left.executorMemoryBytes right.executorMemoryBytes
  let dataTierBytes ← addCooperativeU64Map left.dataTierBytes right.dataTierBytes
  let bufferBytes ← addCooperativeU64Map left.bufferBytes right.bufferBytes
  let storageBytes ← addCooperativeU64Map left.storageBytes right.storageBytes
  let storageInFlight ← addCooperativeU32Map left.storageInFlight right.storageInFlight
  let transferTokens ← addCooperativeU32Map left.transferTokens right.transferTokens
  let sharedMemoryBytes ← addCooperativeU64Map left.sharedMemoryBytes right.sharedMemoryBytes
  return { executorQueueSlots, executorMemoryBytes, dataTierBytes, bufferBytes, storageBytes,
           storageInFlight, transferTokens, sharedMemoryBytes }

def subtractCooperativeMap : Except ResourceError (ExtTreeMap String Nat) :=
  okOr (.resourceUnavailable "cooperative accounting underflow") (Tally.subtract target source)

end

def subtractCooperativeAdmissionReservation (left right : CooperativeReservation) :
    Except ResourceError CooperativeReservation := do
  let executorQueueSlots ← subtractCooperativeMap left.executorQueueSlots right.executorQueueSlots
  let executorMemoryBytes ←
    subtractCooperativeMap left.executorMemoryBytes right.executorMemoryBytes
  let dataTierBytes ← subtractCooperativeMap left.dataTierBytes right.dataTierBytes
  let bufferBytes ← subtractCooperativeMap left.bufferBytes right.bufferBytes
  let storageBytes ← subtractCooperativeMap left.storageBytes right.storageBytes
  let storageInFlight ← subtractCooperativeMap left.storageInFlight right.storageInFlight
  let transferTokens ← subtractCooperativeMap left.transferTokens right.transferTokens
  let sharedMemoryBytes ← subtractCooperativeMap left.sharedMemoryBytes right.sharedMemoryBytes
  return { executorQueueSlots, executorMemoryBytes, dataTierBytes, bufferBytes, storageBytes,
           storageInFlight, transferTokens, sharedMemoryBytes }

/-! ### The inventory -/

def placementTransferPathSchemaV1 : String := "aegis-placement-transfer-path-v1"

inductive PlacementDomain where
  | cpu
  | hostMemory
  | storage
  | accelerator
  deriving DecidableEq

inductive PlacementConfidence where
  | measured
  | estimated
  | unknown
  deriving DecidableEq

/-- An observed route between an executor and a data tier. -/
structure PlacementTransferPath where
  schema : String
  id : String
  fromExecutor : String
  toDataTier : String
  bandwidthBytesPerS : Option Nat
  latencyUs : Option Nat
  queueDepth : Nat
  queueCapacity : Option Nat
  transferTokenCapacity : Option Nat
  transferTokensInUse : Nat
  sharedMemoryBytes : Option Nat
  localOnly : Bool
  confidence : PlacementConfidence
  deriving DecidableEq

/-- An observed capability, without its bandwidth, which nothing reads. -/
structure PlacementCapability where
  id : String
  domain : PlacementDomain
  usableBytes : Option Nat
  computeUnitsPerUs : Option Nat
  latencyUs : Option Nat
  queueDepth : Nat
  queueCapacity : Option Nat
  pressure : Bool
  localOnly : Bool
  confidence : PlacementConfidence
  acceleratorKind : Option AcceleratorKind
  backend : Option BackendKind
  vendor : Option String
  capabilities : List String
  transferPaths : List PlacementTransferPath

/-- The errors of the planner. Its third, of a calibration, is not raised here. -/
inductive PlacementError where
  | invalidTask (text : String)
  | noCapabilities
  deriving DecidableEq

/-- None of the texts has a character that `Debug` would escape. -/
def PlacementError.debug : PlacementError → String
  | .invalidTask text => "InvalidTask(\"" ++ text ++ "\")"
  | .noCapabilities => "NoCapabilities"

def PlacementTransferPath.validate (path : PlacementTransferPath) : Except PlacementError Unit :=
  if path.schema ≠ placementTransferPathSchemaV1 then
    .error (.invalidTask "unsupported placement transfer-path schema")
  else if isBlank path.id ∨ isBlank path.fromExecutor ∨ isBlank path.toDataTier then
    .error (.invalidTask "transfer path identity must be non-empty")
  else if path.queueCapacity.any fun capacity =>
      capacity == 0 || capacity < path.queueDepth then
    .error (.invalidTask "transfer path queue capacity is invalid")
  else if path.transferTokenCapacity.any fun capacity =>
      capacity == 0 || capacity < path.transferTokensInUse then
    .error (.invalidTask "transfer token capacity is invalid")
  else .ok ()

/-- What has been read of an inventory, with the identities seen in the current loop. -/
structure CooperativeInventory where
  capacity : CooperativeReservation
  used : CooperativeReservation
  ids : ExtTreeSet String

namespace CooperativeInventory

def readCapability (inventory : CooperativeInventory) (capability : PlacementCapability) :
    Except PlacementError CooperativeInventory :=
  if isBlank capability.id ∨ capability.id ∈ inventory.ids then
    .error (.invalidTask "cooperative capability identities must be non-empty and unique")
  else
    let id := capability.id
    let capacity := inventory.capacity
    let used := inventory.used
    let ids := inventory.ids.insert id
    let available := capability.usableBytes.getD 0
    let queueSlots := capability.queueCapacity.getD 0
    match capability.domain with
    | .cpu | .accelerator => .ok {
        capacity := { capacity with
          executorQueueSlots := capacity.executorQueueSlots.insert id queueSlots
          executorMemoryBytes := capacity.executorMemoryBytes.insert id available }
        used := if capability.queueDepth = 0 then used else { used with
          executorQueueSlots := used.executorQueueSlots.insert id capability.queueDepth }
        ids := ids }
    | .hostMemory => .ok {
        capacity := { capacity with
          dataTierBytes := capacity.dataTierBytes.insert id available }
        used := used
        ids := ids }
    | .storage => .ok {
        capacity := { capacity with
          dataTierBytes := capacity.dataTierBytes.insert id available
          storageBytes := capacity.storageBytes.insert id available
          storageInFlight := capacity.storageInFlight.insert id queueSlots }
        used := if capability.queueDepth = 0 then used else { used with
          storageInFlight := used.storageInFlight.insert id capability.queueDepth }
        ids := ids }

def readPath (inventory : CooperativeInventory) (path : PlacementTransferPath) :
    Except PlacementError CooperativeInventory := do
  path.validate
  refuseWhen (path.id ∈ inventory.ids)
    (.invalidTask "cooperative transfer-path identities must be unique")
  let capacity := inventory.capacity
  let used := inventory.used
  return {
    capacity := { capacity with
      transferTokens :=
        capacity.transferTokens.insert path.id (path.transferTokenCapacity.getD 0)
      sharedMemoryBytes :=
        capacity.sharedMemoryBytes.insert path.id (path.sharedMemoryBytes.getD 0) }
    used := if path.transferTokensInUse = 0 then used else { used with
      transferTokens := used.transferTokens.insert path.id path.transferTokensInUse }
    ids := inventory.ids.insert path.id }

/-- `from_inventory` of the planner, which reads the capabilities and then the paths. -/
def read (capabilities : List PlacementCapability) (paths : List PlacementTransferPath) :
    Except PlacementError CooperativeInventory := do
  let inventory ← capabilities.foldlM readCapability ⟨.empty, .empty, ∅⟩
  paths.foldlM readPath { inventory with ids := ∅ }

end CooperativeInventory

/-! ### The ledger -/

def cooperativeAdmissionSchemaV1 : String := "aegis-cooperative-admission-v1"

def maxCooperativePlanDigestBytes : Nat := 256

structure CooperativeAdmissionRequest where
  schema : String
  taskId : Nat
  attemptId : Nat
  planDigest : String
  reservation : CooperativeReservation
  spillPaths : ExtTreeMap String String

structure CooperativeAdmissionLease where
  schema : String
  leaseId : Nat
  taskId : Nat
  attemptId : Nat
  planDigest : String
  reservation : CooperativeReservation
  spillPaths : ExtTreeMap String String
  generation : Nat
  issuedAtMs : Nat
  deriving DecidableEq

inductive CooperativeAdmissionDecision where
  | admitted (lease : CooperativeAdmissionLease)
  | alreadyAdmitted (lease : CooperativeAdmissionLease)
  deriving DecidableEq

namespace CooperativeAdmissionRequest

def key (request : CooperativeAdmissionRequest) : Nat × Nat :=
  (request.taskId, request.attemptId)

/-- One spill entry names reserved storage and a reserved transfer path. -/
def validateSpill (reservation : CooperativeReservation) (entry : String × String) :
    Except ResourceError Unit := do
  refuseWhen (isBlank entry.1 || isBlank entry.2)
    (.invalidRequest "cooperative spill identities must be non-empty")
  refuseWhen (Tally.amount reservation.storageBytes entry.1 == 0 ||
      Tally.amount reservation.storageInFlight entry.1 == 0 ||
      Tally.amount reservation.transferTokens entry.2 == 0)
    (.invalidRequest "cooperative spill metadata does not match its reservation")

def validate (request : CooperativeAdmissionRequest) : Except ResourceError Unit := do
  refuseWhen (request.schema ≠ cooperativeAdmissionSchemaV1)
    (.invalidRequest "unsupported cooperative admission schema")
  refuseWhen (request.taskId = 0 ∨ request.attemptId = 0)
    (.invalidRequest "cooperative admission task and attempt must be non-zero")
  refuseWhen (isBlank request.planDigest ||
      maxCooperativePlanDigestBytes < request.planDigest.utf8ByteSize)
    (.invalidRequest "cooperative admission plan digest is empty or too large")
  validateCooperativeReservation request.reservation
  request.spillPaths.toList.forM (validateSpill request.reservation)

end CooperativeAdmissionRequest

def CooperativeAdmissionLease.key (lease : CooperativeAdmissionLease) : Nat × Nat :=
  (lease.taskId, lease.attemptId)

structure CooperativeAdmissionLedger where
  capacity : CooperativeReservation
  used : CooperativeReservation
  nextLeaseId : Nat
  nextGeneration : Nat
  active : ExtTreeMap Nat CooperativeAdmissionLease
  activeByAttempt : ExtTreeMap (Nat × Nat) Nat pairCompare
  attemptDigests : ExtTreeMap (Nat × Nat) String pairCompare
  deriving DecidableEq

namespace CooperativeAdmissionLedger

def new (capacity : CooperativeReservation) : Except ResourceError CooperativeAdmissionLedger := do
  validateCooperativeCapacity capacity
  return {
    capacity := capacity
    used := .empty
    nextLeaseId := 1
    nextGeneration := 1
    active := ∅
    activeByAttempt := ∅
    attemptDigests := ∅ }

def ensureMapsFit (ledger : CooperativeAdmissionLedger) (reservation : CooperativeReservation) :
    Except ResourceError Unit := do
  ensureCooperativeU32MapFits "executor queue" ledger.capacity.executorQueueSlots
    ledger.used.executorQueueSlots reservation.executorQueueSlots
  ensureCooperativeU64MapFits "executor memory" ledger.capacity.executorMemoryBytes
    ledger.used.executorMemoryBytes reservation.executorMemoryBytes
  ensureCooperativeCombinedU64MapFits "data tier" ledger.capacity.dataTierBytes
    ledger.used.dataTierBytes ledger.used.bufferBytes
    reservation.dataTierBytes reservation.bufferBytes
  ensureCooperativeU64MapFits "storage bytes" ledger.capacity.storageBytes
    ledger.used.storageBytes reservation.storageBytes
  ensureCooperativeU32MapFits "storage in-flight" ledger.capacity.storageInFlight
    ledger.used.storageInFlight reservation.storageInFlight
  ensureCooperativeU32MapFits "transfer tokens" ledger.capacity.transferTokens
    ledger.used.transferTokens reservation.transferTokens
  ensureCooperativeU64MapFits "shared memory" ledger.capacity.sharedMemoryBytes
    ledger.used.sharedMemoryBytes reservation.sharedMemoryBytes

def ensureFits (ledger : CooperativeAdmissionLedger) (reservation : CooperativeReservation) :
    Except ResourceError Unit := do
  validateCooperativeReservation reservation
  ledger.ensureMapsFit reservation

/-- A ledger over an observed inventory, whose usage counts as consumed from the start. -/
def fromInventory (capabilities : List PlacementCapability)
    (paths : List PlacementTransferPath) :
    Except ResourceError CooperativeAdmissionLedger := do
  let inventory ← (CooperativeInventory.read capabilities paths).mapError fun error =>
    .invalidRequest ("cooperative inventory validation failed: " ++ error.debug)
  let ledger ← new inventory.capacity
  validateCooperativeUsageReservation inventory.used
  checkWhen (!cooperativeReservationIsEmpty inventory.used) (ledger.ensureMapsFit inventory.used)
  return { ledger with used := inventory.used }

section

variable (ledger : CooperativeAdmissionLedger) (request : CooperativeAdmissionRequest) (nowMs : Nat)

/-- The lease that `admitRequest` issues for a request. -/
def issueLease : CooperativeAdmissionLease where
  schema := cooperativeAdmissionSchemaV1
  leaseId := ledger.nextLeaseId
  taskId := request.taskId
  attemptId := request.attemptId
  planDigest := request.planDigest
  reservation := request.reservation
  spillPaths := request.spillPaths
  generation := ledger.nextGeneration
  issuedAtMs := nowMs

/-- The last part of `admitRequest`, for an attempt that has never been admitted. -/
def admitFresh : Except ResourceError CooperativeAdmissionDecision × CooperativeAdmissionLedger :=
  match ledger.ensureFits request.reservation with
  | .error error => (.error error, ledger)
  | .ok () =>
      match addCooperativeAdmissionReservation ledger.used request.reservation with
      | .error error => (.error error, ledger)
      | .ok used =>
          match checkedAdd u128Max ledger.nextLeaseId 1 with
          | none => (.error (.resourceUnavailable "cooperative lease id exhausted"), ledger)
          | some nextLeaseId =>
              match checkedAdd u64Max ledger.nextGeneration 1 with
              -- The next lease id has been assigned by now.
              | none => (.error (.resourceUnavailable "cooperative generation exhausted"),
                  { ledger with nextLeaseId := nextLeaseId })
              | some nextGeneration =>
                  let lease := ledger.issueLease request nowMs
                  (.ok (.admitted lease),
                    { ledger with
                      used := used
                      nextLeaseId := nextLeaseId
                      nextGeneration := nextGeneration
                      attemptDigests := ledger.attemptDigests.insert request.key request.planDigest
                      activeByAttempt := ledger.activeByAttempt.insert request.key lease.leaseId
                      active := ledger.active.insert lease.leaseId lease })

def admitRequest : Except ResourceError CooperativeAdmissionDecision × CooperativeAdmissionLedger :=
  match request.validate with
  | .error error => (.error error, ledger)
  | .ok () =>
      match ledger.attemptDigests[request.key]? with
      | some previousDigest =>
          if previousDigest ≠ request.planDigest then
            (.error (.invalidRequest "cooperative attempt plan digest mismatch"), ledger)
          else
            match ledger.activeByAttempt[request.key]? with
            | none => (.error (.resourceUnavailable
                "cooperative attempt has already been released"), ledger)
            | some leaseId =>
                match ledger.active[leaseId]? with
                | none => (.error (.unknownLease leaseId), ledger)
                | some lease => (.ok (.alreadyAdmitted lease), ledger)
      | none => ledger.admitFresh request nowMs

end

def release (ledger : CooperativeAdmissionLedger) (lease : CooperativeAdmissionLease) :
    Except ResourceError CooperativeAdmissionLease × CooperativeAdmissionLedger :=
  match ledger.active[lease.leaseId]? with
  | none => (.error (.unknownLease lease.leaseId), ledger)
  | some current =>
      if current ≠ lease then (.error (.leaseFenced lease.leaseId), ledger)
      else
        let removed := { ledger with active := ledger.active.erase lease.leaseId }
        match subtractCooperativeAdmissionReservation ledger.used current.reservation with
        | .error error => (.error error, removed)
        | .ok used =>
            (.ok current,
              { removed with
                used := used
                activeByAttempt := ledger.activeByAttempt.erase current.key })

def cancel (ledger : CooperativeAdmissionLedger) (lease : CooperativeAdmissionLease) :
    Except ResourceError CooperativeAdmissionLease × CooperativeAdmissionLedger :=
  ledger.release lease

/-- The two constructors of the ledger. -/
inductive Initial : CooperativeAdmissionLedger → Prop where
  | new (capacity : CooperativeReservation) (ledger : CooperativeAdmissionLedger)
      (built : CooperativeAdmissionLedger.new capacity = .ok ledger) : Initial ledger
  | fromInventory (capabilities : List PlacementCapability) (paths : List PlacementTransferPath)
      (ledger : CooperativeAdmissionLedger)
      (built : CooperativeAdmissionLedger.fromInventory capabilities paths = .ok ledger) :
      Initial ledger

end CooperativeAdmissionLedger

/-- One call on the ledger with its arguments. -/
inductive CooperativeOp where
  | admitRequest (request : CooperativeAdmissionRequest) (nowMs : Nat)
  | release (lease : CooperativeAdmissionLease)
  | cancel (lease : CooperativeAdmissionLease)

namespace CooperativeAdmissionLedger

def step (ledger : CooperativeAdmissionLedger) : CooperativeOp → CooperativeAdmissionLedger
  | .admitRequest request nowMs => (ledger.admitRequest request nowMs).2
  | .release lease => (ledger.release lease).2
  | .cancel lease => (ledger.cancel lease).2

end CooperativeAdmissionLedger

end Aegis.Resource
