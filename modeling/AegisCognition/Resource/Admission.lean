import Mathlib.Data.Finset.Basic
import Mathlib.Data.Finset.Insert
import AegisCognition.Foundation.OrderedMap
import AegisCognition.Resource.Pressure

/-!
# The admission controller

A deterministic single-process controller: it holds the active leases with the
running total of what they were granted, and a bounded queue with one entry per task
attempt. Every operation returns its result together with the next controller.

`admitRequest`, which the source calls `admit`, contains one `expect`. A panic there
is the result `none`, next to the controller as the panic leaves it.
-/

namespace Aegis.Resource

open Std Foundation

structure AdmissionController where
  capacity : GrantedResources
  baselineCapacity : GrantedResources
  used : GrantedResources
  queueLimit : Nat
  queuedRequests : List ResourceRequest
  queuedAttempts : Finset (Nat × Nat)
  nextLeaseId : Nat
  generation : Nat
  active : ExtTreeMap Nat ResourceLease
  memoryPressureState : MemoryPressureState
  healthyMemorySamples : Nat
  adaptiveMaxProcessLimit : Nat
  guardedProcessLimit : Nat
  acceleratorCapabilities : Finset String
  acceleratorKinds : Finset AcceleratorKind
  acceleratorBackends : Finset BackendKind
  acceleratorAvailable : Bool
  deriving DecidableEq

structure CapacityFeedback where
  previous : GrantedResources
  current : GrantedResources
  changed : Bool
  reason : String
  memoryState : MemoryPressureState

namespace AdmissionController

def new (capacity : GrantedResources) (queueLimit : Nat) : AdmissionController where
  capacity := capacity
  baselineCapacity := capacity
  used := .zero
  queueLimit := queueLimit
  queuedRequests := []
  queuedAttempts := ∅
  nextLeaseId := 1
  generation := 0
  active := ∅
  memoryPressureState := .normal
  healthyMemorySamples := 0
  adaptiveMaxProcessLimit := max capacity.processLimit 1
  guardedProcessLimit := max capacity.processLimit 1
  acceleratorCapabilities := ∅
  acceleratorKinds := ∅
  acceleratorBackends := ∅
  acceleratorAvailable := false

section

variable (profile : HardwareProfile)

/-- Host memory with the policy's headroom taken off, and at least one byte. -/
def hostMemoryCapacity : Nat :=
  let hostMemory := (profile.hostMemory.bind (·.capacityBytes)).getD
    profile.policy.unknownHostMemoryCapBytes
  let headroom := min profile.policy.hostMemoryHeadroomPercent 99
  max (saturatingMul u64Max hostMemory (100 - headroom) / 100) 1

/-- Each discrete domain of a healthy accelerator is counted once. The saturating
sum does not depend on the order in which the domains are visited. -/
def acceleratorMemoryCapacity : Nat :=
  let domainIds := (profile.healthyAccelerators.map (·.memoryDomain)).dedup
  let capacities := domainIds.filterMap fun domainId =>
    ((profile.memoryDomains.find? (fun domain => domain.id = domainId)).filter
      (fun domain => domain.kind = .discreteAccelerator)).bind (·.capacityBytes)
  capacities.foldl (saturatingAdd u64Max) 0

def hardwareConcurrency : Nat :=
  match profile.operatingProfile with
  | .constrained => 2
  | .balancedLaptop => max profile.cpuWidth 2
  | .performance => max profile.cpuWidth 4

def fromHardware : AdmissionController :=
  let concurrency := hardwareConcurrency profile
  let controller := new
    { cpuThreads := max profile.cpuWidth 1
      hostMemoryBytes := hostMemoryCapacity profile
      acceleratorMemoryBytes := acceleratorMemoryCapacity profile
      ioInFlight := concurrency
      processLimit := concurrency
      threadLimit := max profile.cpuWidth 1
      fdLimit := 4096 }
    (max (saturatingMul u32Max concurrency profile.policy.queueMultiplier) 1)
  { controller with
    acceleratorAvailable := !profile.healthyAccelerators.isEmpty
    adaptiveMaxProcessLimit :=
      match profile.operatingProfile with
      | .constrained => max 2 (min profile.cpuWidth 4)
      | .balancedLaptop | .performance => concurrency
    guardedProcessLimit := concurrency
    acceleratorCapabilities := (profile.healthyAccelerators.flatMap (·.capabilities)).toFinset
    acceleratorKinds := (profile.healthyAccelerators.map (·.kind)).toFinset
    acceleratorBackends := (profile.healthyAccelerators.map (·.backend)).toFinset }

end

/-- Position, counted from one, and request of a queued attempt. The index of queued
keys is consulted before the queue is searched. -/
def queuedAttempt (controller : AdmissionController) (taskId attemptId : Nat) :
    Option (Nat × ResourceRequest) :=
  if (taskId, attemptId) ∉ controller.queuedAttempts then none
  else
    (controller.queuedRequests.zipIdx.find? fun entry =>
      entry.1.taskId = taskId ∧ entry.1.attemptId = attemptId).map
      fun entry => (entry.2 + 1, entry.1)

section

variable (controller : AdmissionController) (request : ResourceRequest)

/-- The controller with one more entry at the back of its queue. -/
def pushQueued : AdmissionController :=
  { controller with
    queuedAttempts := insert request.key controller.queuedAttempts
    queuedRequests := controller.queuedRequests ++ [request] }

def enqueue (nowMs : Nat) : Except ResourceError Nat × AdmissionController :=
  match request.validate nowMs with
  | .error error => (.error error, controller)
  | .ok () =>
      match controller.queuedAttempt request.taskId request.attemptId with
      | some (position, queued) =>
          if queued = request then (.ok position, controller)
          else
            (.error (.invalidRequest
              "queued task attempt already has a different resource request"), controller)
      | none =>
          if controller.queueLimit ≤ controller.queuedRequests.length then
            (.error .resourceExhausted, controller)
          else if request.key ∈ controller.queuedAttempts then
            (.error (.resourceUnavailable "queued attempt index is inconsistent"), controller)
          else
            (.ok (controller.queuedRequests.length + 1), controller.pushQueued request)

/-- The accelerator checks of `admitRequest`, in their order. -/
def acceleratorDenial : Option ResourceError :=
  if (request.workKind = .accelerator ∨ request.accelerator.isSome ∨
      request.acceleratorMemoryBytes.isSome) ∧ controller.acceleratorAvailable = false then
    some (.capabilityDenied "no healthy accelerator backend is advertised")
  else
    match request.accelerator with
    | none => none
    | some accelerator =>
        if accelerator.kind ∉ controller.acceleratorKinds then
          some (.capabilityDenied "requested accelerator kind is unavailable")
        else if accelerator.backend.any (· ∉ controller.acceleratorBackends) then
          some (.capabilityDenied "requested accelerator backend is unavailable")
        else if accelerator.requiredCapabilities.any
            (· ∉ controller.acceleratorCapabilities) then
          some (.capabilityDenied "requested accelerator capability is unavailable")
        else none

/-- Background work waits while the host is under critical memory pressure. -/
def deferred : Bool :=
  controller.memoryPressureState = .critical ∧ request.priority = .background

/-- The lease that `admitRequest` issues for a request. -/
def issueLease (nowMs : Nat) : ResourceLease where
  schema := resourceContractSchemaV1
  leaseId := controller.nextLeaseId
  taskId := request.taskId
  attemptId := request.attemptId
  workKind := request.workKind
  priority := request.priority
  granted := .fromRequest request
  generation := saturatingAdd u64Max controller.generation 1
  issuedAtMs := nowMs
  expiresAtMs := request.deadlineMs

/-- The controller with that lease recorded. -/
def grant (nowMs : Nat) : AdmissionController :=
  { controller with
    nextLeaseId := saturatingAdd u128Max controller.nextLeaseId 1
    generation := saturatingAdd u64Max controller.generation 1
    used := addResources controller.used (.fromRequest request)
    active := controller.active.insert controller.nextLeaseId
      (controller.issueLease request nowMs) }

def admitRequest (nowMs : Nat) : Option AdmissionDecision × AdmissionController :=
  match request.validate nowMs with
  | .error error => (some (.rejected error), controller)
  | .ok () =>
      match controller.acceleratorDenial request with
      | some error => (some (.rejected error), controller)
      | none =>
          if controller.deferred request then
            if controller.queuedRequests.length < controller.queueLimit then
              match controller.enqueue request nowMs with
              | (.ok position, next) =>
                  (some (.queued position
                    "critical host memory pressure deferred background work"), next)
              -- `expect("validated request must be enqueueable")`
              | (.error _, next) => (none, next)
            else (some (.rejected .resourceExhausted), controller)
          else if (GrantedResources.fromRequest request).fitsWithin controller.capacity
              controller.used then
            (some (.admitted (controller.issueLease request nowMs)),
              controller.grant request nowMs)
          else if controller.queuedRequests.length < controller.queueLimit then
            match controller.enqueue request nowMs with
            | (.ok position, next) =>
                (some (.queued position "capacity unavailable; bounded queue admission"), next)
            | (.error reason, next) => (some (.rejected reason), next)
          else (some (.rejected .resourceExhausted), controller)

end

section

variable (controller : AdmissionController)

def release (leaseId : Nat) : Except ResourceError ResourceLease × AdmissionController :=
  match controller.active[leaseId]? with
  | none => (.error (.unknownLease leaseId), controller)
  | some lease =>
      (.ok lease,
        { controller with
          active := controller.active.erase leaseId
          used := subtractResources controller.used lease.granted })

def inspectToken (token : ResourceLeaseToken) : Except ResourceError ResourceLease :=
  if token.schema ≠ leaseTokenSchemaV1 ∨ token.leaseId = 0 ∨ token.generation = 0 then
    .error (.invalidLeaseToken "invalid lease token schema or identifiers")
  else
    match controller.active[token.leaseId]? with
    | none => .error (.unknownLease token.leaseId)
    | some lease =>
        if lease.generation ≠ token.generation ∨ lease.attemptId ≠ token.attemptId then
          .error (.leaseFenced token.leaseId)
        else .ok lease

def releaseFenced (token : ResourceLeaseToken) :
    Except ResourceError ResourceLease × AdmissionController :=
  match controller.inspectToken token with
  | .error error => (.error error, controller)
  | .ok _ => controller.release token.leaseId

def expiredTokens (nowMs : Nat) : List ResourceLeaseToken :=
  ((OrderedMap.valueList controller.active).filter (·.isExpired nowMs)).map
    ResourceLeaseToken.fromLease

def popQueued : Option ResourceRequest × AdmissionController :=
  match controller.queuedRequests with
  | [] => (none, controller)
  | request :: rest =>
      (some request,
        { controller with
          queuedRequests := rest
          queuedAttempts := controller.queuedAttempts.erase request.key })

def peekQueued : Option ResourceRequest :=
  controller.queuedRequests.head?

def removeQueued (taskId attemptId : Nat) : Bool × AdmissionController :=
  let kept := controller.queuedRequests.filter fun request =>
    request.taskId ≠ taskId ∨ request.attemptId ≠ attemptId
  if kept.length ≠ controller.queuedRequests.length then
    (true,
      { controller with
        queuedRequests := kept
        queuedAttempts := controller.queuedAttempts.erase (taskId, attemptId) })
  else (false, { controller with queuedRequests := kept })

def updateMemoryPressureState (sample : ResourceUsageSample) : AdmissionController :=
  let next := nextMemoryPressure controller.memoryPressureState
    controller.healthyMemorySamples sample
  { controller with memoryPressureState := next.1, healthyMemorySamples := next.2 }

/-- Headroom over the memory in use: three quarters of `free`. -/
def memoryTarget (free : Nat) : Nat :=
  max (saturatingAdd u64Max controller.used.hostMemoryBytes (saturatingMul u64Max free 75 / 100))
    controller.used.hostMemoryBytes

/-- The host-memory capacity after a sample. `previousState` is the pressure state
before the sample; the controller already carries the state after it. -/
def adjustedHostMemory (previousState : MemoryPressureState) (sample : ResourceUsageSample) : Nat :=
  let observed := sample.hostMemoryAvailableBytes.map controller.memoryTarget
  if criticalSignal sample then
    min (observed.getD (controller.memoryTarget controller.capacity.hostMemoryBytes))
      controller.baselineCapacity.hostMemoryBytes
  else if previousState = .critical ∧ controller.memoryPressureState = .critical then
    -- The reduced headroom stays while recovery is still collecting healthy samples.
    controller.capacity.hostMemoryBytes
  else
    match observed with
    | none => controller.capacity.hostMemoryBytes
    | some target =>
        moveTowards controller.capacity.hostMemoryBytes
          (min target controller.baselineCapacity.hostMemoryBytes)
          (controller.baselineCapacity.hostMemoryBytes / 4)

def adjustedCpuThreads (sample : ResourceUsageSample) : Nat :=
  if 0 < sample.cpuThreadsActive then
    min controller.capacity.cpuThreads
      (max sample.cpuThreadsActive controller.used.cpuThreads)
  else controller.capacity.cpuThreads

def targetProcessLimit : Nat :=
  match controller.memoryPressureState with
  | .normal => controller.adaptiveMaxProcessLimit
  | .guarded =>
      min (max controller.guardedProcessLimit controller.used.processLimit)
        controller.adaptiveMaxProcessLimit
  | .critical => max controller.used.processLimit 1

def adjustedProcessLimit (sample : ResourceUsageSample) : Nat :=
  if (availableMemoryPercent sample).isSome then
    if controller.capacity.processLimit < controller.targetProcessLimit then
      min (saturatingAdd u32Max controller.capacity.processLimit 1) controller.targetProcessLimit
    else max (controller.capacity.processLimit - 1) controller.targetProcessLimit
  else controller.capacity.processLimit

/-- The three adjusted dimensions are computed from one another's old values: none of
the three reads a dimension that another one writes. -/
def adjustedCapacity (previousState : MemoryPressureState) (sample : ResourceUsageSample) :
    GrantedResources :=
  { controller.capacity with
    hostMemoryBytes := controller.adjustedHostMemory previousState sample
    cpuThreads := controller.adjustedCpuThreads sample
    processLimit := controller.adjustedProcessLimit sample }

def feedbackReason (previous current : GrantedResources)
    (previousState state : MemoryPressureState) (sample : ResourceUsageSample) : String :=
  if previousState ≠ state then "memory pressure state changed to " ++ state.debug
  else if criticalSignal sample then "memory pressure reduced admission headroom"
  else if sample.hostMemoryAvailableBytes.isSome ∧
      current.hostMemoryBytes ≠ previous.hostMemoryBytes then
    "available memory adjusted admission headroom"
  else if 0 < sample.cpuThreadsActive then "observed CPU activity bounded admission width"
  else if current.processLimit ≠ previous.processLimit then
    "available memory adjusted process admission width"
  else "no capacity change"

def capacityFeedback (sample : ResourceUsageSample) : CapacityFeedback × AdmissionController :=
  let previous := controller.capacity
  let previousState := controller.memoryPressureState
  let updated := controller.updateMemoryPressureState sample
  let next := { updated with capacity := updated.adjustedCapacity previousState sample }
  ({ previous := previous
     current := next.capacity
     changed := next.capacity ≠ previous ∨ previousState ≠ next.memoryPressureState
     reason := feedbackReason previous next.capacity previousState next.memoryPressureState sample
     memoryState := next.memoryPressureState }, next)

end

end AdmissionController

end Aegis.Resource
