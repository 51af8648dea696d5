import AegisCognition.Resource.Cooperative

/-!
# Cooperative plans

A cooperative task is split into slices, which run on executors next to a data tier, and buffers
between them. Its plan says where every slice and every buffer goes, and carries the reservation
for all of them together. A deferred plan reserves nothing.
-/

namespace Aegis.Placement

open Std Foundation Resource Tally

inductive CooperativePlacementMode where
  | singleExecutor
  | parallelSlices
  | pipeline
  deriving DecidableEq

structure CooperativeSliceReservation where
  executorQueueSlots : Nat
  executorMemoryBytes : Nat
  dataTierBytes : Nat
  storageBytes : Nat
  storageInFlight : Nat
  transferTokens : Nat
  sharedMemoryBytes : Nat

/-- The reservation of a slice that is not bound, which `Default` yields. -/
def CooperativeSliceReservation.none : CooperativeSliceReservation where
  executorQueueSlots := 0
  executorMemoryBytes := 0
  dataTierBytes := 0
  storageBytes := 0
  storageInFlight := 0
  transferTokens := 0
  sharedMemoryBytes := 0

/-- Where a buffer spills to, and by which path. -/
structure CooperativeSpillReservation where
  schema : String
  storageId : String
  storageBytes : Nat
  storageInFlight : Nat
  transferPathId : String
  transferTokens : Nat

structure CooperativeBufferPlan where
  schema : String
  id : String
  fromSlice : Option String
  toSlice : Option String
  dataTierId : Option String
  capacityBytes : Nat
  maxInFlightBuffers : Nat
  highWatermarkBytes : Nat
  lowWatermarkBytes : Nat
  spillToStorage : Bool
  spillReservation : Option CooperativeSpillReservation
  backpressure : String

structure CooperativePlacementSlice where
  id : String
  stage : Nat
  dependsOn : List String
  executorDomain : PlacementDomain
  dataTierDomain : PlacementDomain
  executorId : Option String
  dataTierId : Option String
  transferPathId : Option String
  workUnits : Nat
  inputBytes : Nat
  outputBytes : Nat
  workingMemoryBytes : Nat
  reservation : CooperativeSliceReservation
  estimatedLatencyUs : Option Nat
  confidence : PlacementConfidence
  decision : String
  reason : String

structure CooperativePlacementPlan where
  schema : String
  taskId : Nat
  mode : CooperativePlacementMode
  decision : String
  reason : String
  slices : List CooperativePlacementSlice
  buffers : List CooperativeBufferPlan
  reservation : CooperativeReservation
  reservationStatus : String
  estimatedMakespanUs : Option Nat
  plannedAtMs : Nat

/-- A plan that may be reserved. -/
def CooperativePlacementPlan.isReady (plan : CooperativePlacementPlan) : Bool :=
  plan.decision = "selected" ∧ plan.reservationStatus = "READY_ALL_OR_NONE"

/-! ## The reservation ledger of the planner

The planner accounts for plans in a ledger of its own. All its arithmetic saturates: a request is
compared with the capacity after its sum with what is in use has stopped at the largest value of
its type. The two widths of the amounts differ in their bound alone, so the helpers for them share
one definition. -/

/-- One entry of a request is compared with the capacity for its identity. -/
def ensureEntryFits (bound : Nat) (resource : String) (capacity used : ExtTreeMap String Nat)
    (entry : String × Nat) : Except PlacementError Unit :=
  if entry.2 = 0 then .ok ()
  else
    match capacity[entry.1]? with
    | none => .error (.invalidTask
        (resource ++ " capacity is unavailable for identity " ++ entry.1))
    | some limit =>
        refuseWhen (limit < saturatingAdd bound (Tally.amount used entry.1) entry.2)
          (.invalidTask (resource ++ " capacity is exhausted for identity " ++ entry.1))

def ensureMapFits (bound : Nat) (resource : String)
    (capacity used requested : ExtTreeMap String Nat) : Except PlacementError Unit :=
  requested.toList.forM (ensureEntryFits bound resource capacity used)

def ensureU32MapFits := ensureMapFits u32Max

def ensureU64MapFits := ensureMapFits u64Max

/-- Data and buffers of one identity are compared with the data-tier capacity together. -/
def ensureCombinedFits (resource : String)
    (capacity usedPrimary usedBuffers requestedPrimary requestedBuffers : ExtTreeMap String Nat)
    (id : String) : Except PlacementError Unit :=
  let current := saturatingAdd u64Max (Tally.amount usedPrimary id) (Tally.amount usedBuffers id)
  let requested :=
    saturatingAdd u64Max (Tally.amount requestedPrimary id) (Tally.amount requestedBuffers id)
  if requested = 0 then .ok ()
  else
    match capacity[id]? with
    | none => .error (.invalidTask
        (resource ++ " capacity is unavailable for identity " ++ id))
    | some limit =>
        refuseWhen (limit < saturatingAdd u64Max current requested)
          (.invalidTask (resource ++ " capacity is exhausted for identity " ++ id))

def ensureCombinedU64MapFits (resource : String)
    (capacity usedPrimary usedBuffers requestedPrimary requestedBuffers : ExtTreeMap String Nat) :
    Except PlacementError Unit :=
  (ExtTreeSet.ofList (usedPrimary.keys ++ usedBuffers.keys ++ requestedPrimary.keys ++
    requestedBuffers.keys) compare).toList.forM
    (ensureCombinedFits resource capacity usedPrimary usedBuffers requestedPrimary requestedBuffers)

def addCooperativeReservation (left right : CooperativeReservation) : CooperativeReservation where
  executorQueueSlots :=
    addSaturating u32Max left.executorQueueSlots right.executorQueueSlots
  executorMemoryBytes :=
    addSaturating u64Max left.executorMemoryBytes right.executorMemoryBytes
  dataTierBytes := addSaturating u64Max left.dataTierBytes right.dataTierBytes
  bufferBytes := addSaturating u64Max left.bufferBytes right.bufferBytes
  storageBytes := addSaturating u64Max left.storageBytes right.storageBytes
  storageInFlight := addSaturating u32Max left.storageInFlight right.storageInFlight
  transferTokens := addSaturating u32Max left.transferTokens right.transferTokens
  sharedMemoryBytes := addSaturating u64Max left.sharedMemoryBytes right.sharedMemoryBytes

def subtractCooperativeReservation (left right : CooperativeReservation) :
    CooperativeReservation where
  executorQueueSlots := subtractSaturating left.executorQueueSlots right.executorQueueSlots
  executorMemoryBytes :=
    subtractSaturating left.executorMemoryBytes right.executorMemoryBytes
  dataTierBytes := subtractSaturating left.dataTierBytes right.dataTierBytes
  bufferBytes := subtractSaturating left.bufferBytes right.bufferBytes
  storageBytes := subtractSaturating left.storageBytes right.storageBytes
  storageInFlight := subtractSaturating left.storageInFlight right.storageInFlight
  transferTokens := subtractSaturating left.transferTokens right.transferTokens
  sharedMemoryBytes := subtractSaturating left.sharedMemoryBytes right.sharedMemoryBytes

structure CooperativeReservationLease where
  leaseId : Nat
  reservation : CooperativeReservation
  deriving DecidableEq

structure CooperativeReservationLedger where
  capacity : CooperativeReservation
  used : CooperativeReservation
  nextLeaseId : Nat
  active : ExtTreeMap Nat CooperativeReservationLease

namespace CooperativeReservationLedger

def fromInventory (capabilities : List PlacementCapability)
    (paths : List PlacementTransferPath) : Except PlacementError CooperativeReservationLedger := do
  let inventory ← CooperativeInventory.read capabilities paths
  return {
    capacity := inventory.capacity
    used := inventory.used
    nextLeaseId := 1
    active := ∅ }

section

variable (ledger : CooperativeReservationLedger)

def ensureFits (reservation : CooperativeReservation) : Except PlacementError Unit := do
  ensureU32MapFits "executor queue" ledger.capacity.executorQueueSlots
    ledger.used.executorQueueSlots reservation.executorQueueSlots
  ensureU64MapFits "executor memory" ledger.capacity.executorMemoryBytes
    ledger.used.executorMemoryBytes reservation.executorMemoryBytes
  ensureCombinedU64MapFits "data tier" ledger.capacity.dataTierBytes
    ledger.used.dataTierBytes ledger.used.bufferBytes
    reservation.dataTierBytes reservation.bufferBytes
  ensureU64MapFits "storage bytes" ledger.capacity.storageBytes
    ledger.used.storageBytes reservation.storageBytes
  ensureU32MapFits "storage in-flight" ledger.capacity.storageInFlight
    ledger.used.storageInFlight reservation.storageInFlight
  ensureU32MapFits "transfer tokens" ledger.capacity.transferTokens
    ledger.used.transferTokens reservation.transferTokens
  ensureU64MapFits "shared memory" ledger.capacity.sharedMemoryBytes
    ledger.used.sharedMemoryBytes reservation.sharedMemoryBytes

/-- The ledger with the reservation of a plan under the next lease id. -/
def withLease (reservation : CooperativeReservation) : CooperativeReservationLedger :=
  { ledger with
    nextLeaseId := saturatingAdd u64Max ledger.nextLeaseId 1
    used := addCooperativeReservation ledger.used reservation
    active := ledger.active.insert ledger.nextLeaseId ⟨ledger.nextLeaseId, reservation⟩ }

def reserve (plan : CooperativePlacementPlan) :
    Except PlacementError CooperativeReservationLease × CooperativeReservationLedger :=
  if plan.isReady = false then
    (.error (.invalidTask "only a ready cooperative plan can be reserved"), ledger)
  else
    match ledger.ensureFits plan.reservation with
    | .error error => (.error error, ledger)
    | .ok () => (.ok ⟨ledger.nextLeaseId, plan.reservation⟩, ledger.withLease plan.reservation)

def withoutLease (leaseId : Nat) (reservation : CooperativeReservation) :
    CooperativeReservationLedger :=
  { ledger with
    active := ledger.active.erase leaseId
    used := subtractCooperativeReservation ledger.used reservation }

def cancel (leaseId : Nat) :
    Except PlacementError CooperativeReservationLease × CooperativeReservationLedger :=
  match ledger.active[leaseId]? with
  | none => (.error (.invalidTask
      "cooperative reservation lease is unknown or already cancelled"), ledger)
  | some lease => (.ok lease, ledger.withoutLease leaseId lease.reservation)

end

end CooperativeReservationLedger

/-- One call on the ledger with its arguments. -/
inductive ReservationOp where
  | reserve (plan : CooperativePlacementPlan)
  | cancel (leaseId : Nat)

namespace CooperativeReservationLedger

def step (ledger : CooperativeReservationLedger) : ReservationOp → CooperativeReservationLedger
  | .reserve plan => (ledger.reserve plan).2
  | .cancel leaseId => (ledger.cancel leaseId).2

end CooperativeReservationLedger

end Aegis.Placement
