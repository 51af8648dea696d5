import AegisCognition.Resource.Profile

/-!
# Resource requests, grants and their errors

A request states what one task attempt needs. Its validation is a fixed sequence of
checks, and the granted amounts are read off a request without looking at the
controller. Amounts are the naturals denoted by the `u32` and `u64` fields.
-/

namespace Aegis.Resource

open Foundation

def resourceContractSchemaV1 : String := "aegis-resource-contract-v1"

def leaseTokenSchemaV1 : String := "aegis-resource-lease-token-v1"

inductive WorkKind where
  | nativeTask
  | pythonCognition
  | tool
  | agent
  | accelerator
  deriving DecidableEq

inductive SideEffectClass where
  | readOnly
  | reversible
  | externalSideEffect
  | irreversible
  deriving DecidableEq

inductive Priority where
  | background
  | normal
  | foreground
  | critical
  deriving DecidableEq

structure CpuRequest where
  minThreads : Nat
  maxThreads : Nat
  deriving DecidableEq

structure AcceleratorRequest where
  kind : AcceleratorKind
  backend : Option BackendKind
  requiredCapabilities : List String
  memoryBytes : Nat
  deriving DecidableEq

structure ResourceRequest where
  schema : String
  taskId : Nat
  attemptId : Nat
  workKind : WorkKind
  cpu : CpuRequest
  hostMemoryBytes : Nat
  accelerator : Option AcceleratorRequest
  acceleratorMemoryBytes : Option Nat
  ioMaxInFlight : Nat
  processLimit : Option Nat
  threadLimit : Option Nat
  fdLimit : Option Nat
  apiBudget : Option Nat
  tokenBudget : Option Nat
  deadlineMs : Option Nat
  priority : Priority
  sideEffectClass : SideEffectClass
  deriving DecidableEq

inductive ResourceError where
  | invalidRequest (text : String)
  | capabilityDenied (text : String)
  | resourceUnavailable (text : String)
  | deadlineExceeded
  | resourceExhausted
  | unknownLease (leaseId : Nat)
  | invalidLeaseToken (text : String)
  | leaseFenced (leaseId : Nat)
  | unsupportedControl (text : String)
  deriving DecidableEq

namespace ResourceRequest

def minimal (taskId : Nat) (workKind : WorkKind) : ResourceRequest where
  schema := resourceContractSchemaV1
  taskId := taskId
  attemptId := 1
  workKind := workKind
  cpu := { minThreads := 1, maxThreads := 1 }
  hostMemoryBytes := 1
  accelerator := none
  acceleratorMemoryBytes := none
  ioMaxInFlight := 1
  processLimit := none
  threadLimit := none
  fdLimit := none
  apiBudget := none
  tokenBudget := none
  deadlineMs := none
  priority := .normal
  sideEffectClass := .readOnly

/-- The queue and the retained admissions are keyed by task and attempt. -/
def key (request : ResourceRequest) : Nat × Nat :=
  (request.taskId, request.attemptId)

def validate (request : ResourceRequest) (nowMs : Nat) : Except ResourceError Unit :=
  if request.schema ≠ resourceContractSchemaV1 then
    .error (.invalidRequest "unsupported resource schema")
  else if request.taskId = 0 ∨ request.attemptId = 0 then
    .error (.invalidRequest "task_id and attempt_id must be non-zero")
  else if request.cpu.minThreads = 0 ∨ request.cpu.maxThreads < request.cpu.minThreads then
    .error (.invalidRequest "invalid CPU thread bounds")
  else if request.hostMemoryBytes = 0 ∨ request.ioMaxInFlight = 0 then
    .error (.invalidRequest "memory and IO budgets must be non-zero")
  else if request.accelerator.any (·.memoryBytes = 0) ∨
      request.acceleratorMemoryBytes.any (· = 0) then
    .error (.invalidRequest "accelerator memory must be non-zero")
  else if request.deadlineMs.any (· ≤ nowMs) then
    .error .deadlineExceeded
  else if some 0 ∈ [request.processLimit, request.threadLimit, request.fdLimit] then
    .error (.invalidRequest "process/thread/fd limits must be non-zero")
  else
    .ok ()

end ResourceRequest

/-- Amounts held by a lease, a capacity or a running total: seven dimensions. -/
structure GrantedResources where
  cpuThreads : Nat
  hostMemoryBytes : Nat
  acceleratorMemoryBytes : Nat
  ioInFlight : Nat
  processLimit : Nat
  threadLimit : Nat
  fdLimit : Nat
  deriving DecidableEq

namespace GrantedResources

/-- The running total of a controller without leases. -/
def zero : GrantedResources where
  cpuThreads := 0
  hostMemoryBytes := 0
  acceleratorMemoryBytes := 0
  ioInFlight := 0
  processLimit := 0
  threadLimit := 0
  fdLimit := 0

def fromRequest (request : ResourceRequest) : GrantedResources where
  cpuThreads := request.cpu.maxThreads
  hostMemoryBytes := request.hostMemoryBytes
  acceleratorMemoryBytes :=
    (request.accelerator.map (·.memoryBytes) <|> request.acceleratorMemoryBytes).getD 0
  ioInFlight := request.ioMaxInFlight
  processLimit := request.processLimit.getD 1
  threadLimit := request.threadLimit.getD request.cpu.maxThreads
  fdLimit := request.fdLimit.getD 256

/-- Checked addition in each dimension, against the capacity of that dimension. -/
def fitsWithin (granted capacity used : GrantedResources) : Bool :=
  (checkedAdd u32Max used.cpuThreads granted.cpuThreads).any (· ≤ capacity.cpuThreads) &&
  (checkedAdd u64Max used.hostMemoryBytes granted.hostMemoryBytes).any
    (· ≤ capacity.hostMemoryBytes) &&
  (checkedAdd u64Max used.acceleratorMemoryBytes granted.acceleratorMemoryBytes).any
    (· ≤ capacity.acceleratorMemoryBytes) &&
  (checkedAdd u32Max used.ioInFlight granted.ioInFlight).any (· ≤ capacity.ioInFlight) &&
  (checkedAdd u32Max used.processLimit granted.processLimit).any (· ≤ capacity.processLimit) &&
  (checkedAdd u32Max used.threadLimit granted.threadLimit).any (· ≤ capacity.threadLimit) &&
  (checkedAdd u32Max used.fdLimit granted.fdLimit).any (· ≤ capacity.fdLimit)

end GrantedResources

def addResources (left right : GrantedResources) : GrantedResources where
  cpuThreads := (checkedAdd u32Max left.cpuThreads right.cpuThreads).getD u32Max
  hostMemoryBytes := (checkedAdd u64Max left.hostMemoryBytes right.hostMemoryBytes).getD u64Max
  acceleratorMemoryBytes :=
    (checkedAdd u64Max left.acceleratorMemoryBytes right.acceleratorMemoryBytes).getD u64Max
  ioInFlight := (checkedAdd u32Max left.ioInFlight right.ioInFlight).getD u32Max
  processLimit := (checkedAdd u32Max left.processLimit right.processLimit).getD u32Max
  threadLimit := (checkedAdd u32Max left.threadLimit right.threadLimit).getD u32Max
  fdLimit := (checkedAdd u32Max left.fdLimit right.fdLimit).getD u32Max

/-- Every subtraction saturates at zero. -/
def subtractResources (left right : GrantedResources) : GrantedResources where
  cpuThreads := left.cpuThreads - right.cpuThreads
  hostMemoryBytes := left.hostMemoryBytes - right.hostMemoryBytes
  acceleratorMemoryBytes := left.acceleratorMemoryBytes - right.acceleratorMemoryBytes
  ioInFlight := left.ioInFlight - right.ioInFlight
  processLimit := left.processLimit - right.processLimit
  threadLimit := left.threadLimit - right.threadLimit
  fdLimit := left.fdLimit - right.fdLimit

structure ResourceLease where
  schema : String
  leaseId : Nat
  taskId : Nat
  attemptId : Nat
  workKind : WorkKind
  priority : Priority
  granted : GrantedResources
  generation : Nat
  issuedAtMs : Nat
  expiresAtMs : Option Nat
  deriving DecidableEq

def ResourceLease.isExpired (lease : ResourceLease) (nowMs : Nat) : Bool :=
  lease.expiresAtMs.any (· ≤ nowMs)

structure ResourceLeaseToken where
  schema : String
  leaseId : Nat
  generation : Nat
  attemptId : Nat
  deriving DecidableEq

def ResourceLeaseToken.fromLease (lease : ResourceLease) : ResourceLeaseToken where
  schema := leaseTokenSchemaV1
  leaseId := lease.leaseId
  generation := lease.generation
  attemptId := lease.attemptId

inductive AdmissionDecision where
  | admitted (lease : ResourceLease)
  | queued (position : Nat) (reason : String)
  | rejected (reason : ResourceError)
  deriving DecidableEq

end Aegis.Resource
