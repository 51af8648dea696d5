import Mathlib.Data.List.Dedup
import AegisCognition.Foundation.Machine
import AegisCognition.Foundation.Text

/-!
# Hardware profiles

The part of a probed hardware profile that admission and the execution lanes are
configured from: processor parallelism, memory domains, accelerators and the
resource policy. Descriptive fields that neither of them reads are left out.
-/

namespace Aegis.Resource

open Foundation

inductive MemoryDomainKind where
  | host
  | unified
  | discreteAccelerator
  | shared
  | unknown
  deriving DecidableEq

structure MemoryDomain where
  id : String
  kind : MemoryDomainKind
  capacityBytes : Option Nat

inductive AcceleratorKind where
  | cpu
  | gpu
  | npu
  | other
  deriving DecidableEq

inductive BackendKind where
  | cpu
  | cuda
  | rocm
  | metal
  | vulkan
  | other
  deriving DecidableEq

inductive DeviceHealth where
  | unknown
  | healthy
  | degraded
  | failed
  deriving DecidableEq

structure AcceleratorProfile where
  id : String
  kind : AcceleratorKind
  backend : BackendKind
  memoryDomain : String
  capabilities : List String
  health : DeviceHealth

structure ResourcePolicy where
  constrainedCpuThreshold : Nat
  constrainedMemoryThresholdBytes : Nat
  balancedCpuThreshold : Nat
  hostMemoryHeadroomPercent : Nat
  unknownHostMemoryCapBytes : Nat
  constrainedIoLaneLimit : Nat
  defaultIoLaneLimit : Nat
  constrainedPythonLaneLimit : Nat
  defaultPythonLaneLimit : Nat
  constrainedUntrustedLaneLimit : Nat
  defaultUntrustedLaneLimit : Nat
  queueMultiplier : Nat

/-- `ResourcePolicy::default`. -/
def ResourcePolicy.standard : ResourcePolicy where
  constrainedCpuThreshold := 4
  constrainedMemoryThresholdBytes := 8 * 1024 * 1024 * 1024
  balancedCpuThreshold := 16
  hostMemoryHeadroomPercent := 25
  unknownHostMemoryCapBytes := 256 * 1024 * 1024
  constrainedIoLaneLimit := 2
  defaultIoLaneLimit := 8
  constrainedPythonLaneLimit := 1
  defaultPythonLaneLimit := 4
  constrainedUntrustedLaneLimit := 1
  defaultUntrustedLaneLimit := 4
  queueMultiplier := 4

structure HardwareProfile where
  usableParallelism : Nat
  memoryDomains : List MemoryDomain
  accelerators : List AcceleratorProfile
  policy : ResourcePolicy

inductive OperatingProfile where
  | constrained
  | balancedLaptop
  | performance
  deriving DecidableEq

namespace HardwareProfile

section

variable (profile : HardwareProfile)

def hostMemory : Option MemoryDomain :=
  profile.memoryDomains.find? (fun domain => domain.id = "host")
    <|> profile.memoryDomains.find? (fun domain => domain.kind = .host)
    <|> profile.memoryDomains.find? (fun domain => domain.kind = .unified)

def operatingProfile : OperatingProfile :=
  -- An unknown capacity counts as low memory.
  let lowMemory := ((profile.hostMemory.bind (·.capacityBytes)).map
    (fun bytes => decide (bytes < profile.policy.constrainedMemoryThresholdBytes))).getD true
  if profile.usableParallelism ≤ profile.policy.constrainedCpuThreshold ∨ lowMemory then
    .constrained
  else if profile.usableParallelism ≤ profile.policy.balancedCpuThreshold then
    .balancedLaptop
  else
    .performance

def healthyAccelerators : List AcceleratorProfile :=
  profile.accelerators.filter (fun accelerator => accelerator.health = .healthy)

/-- Usable parallelism as the `u32` the controllers work with. -/
def cpuWidth : Nat :=
  min profile.usableParallelism u32Max

end

/-- A host of two threads with unknown memory and no accelerators. -/
def small : HardwareProfile where
  usableParallelism := 2
  memoryDomains := []
  accelerators := []
  policy := .standard

end HardwareProfile

end Aegis.Resource
