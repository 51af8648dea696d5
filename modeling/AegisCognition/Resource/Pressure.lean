import AegisCognition.Resource.Request

/-!
# Memory-pressure classification of usage samples

The adaptive host-memory mode is a three-state machine with a counter of healthy
samples. Entering a worse state is immediate; leaving one takes three consecutive
samples above an exit threshold that lies over the entry threshold.
-/

namespace Aegis.Resource

open Foundation

inductive MemoryPressureState where
  | normal
  | guarded
  | critical
  deriving DecidableEq

/-- The derived debug form of a pressure state, which feedback messages embed. -/
def MemoryPressureState.debug : MemoryPressureState → String
  | .normal => "Normal"
  | .guarded => "Guarded"
  | .critical => "Critical"

structure ResourceUsageSample where
  cpuThreadsActive : Nat
  hostMemoryBytes : Option Nat
  hostMemoryAvailableBytes : Option Nat
  memoryPressure : Bool

/-- Known only when both byte counts are, and the total is not zero. -/
def availableMemoryPercent (sample : ResourceUsageSample) : Option Nat :=
  match sample.hostMemoryBytes, sample.hostMemoryAvailableBytes with
  | some total, some available =>
      if 0 < total then some (min (saturatingMul u64Max available 100 / total) 100) else none
  | _, _ => none

def guardedEnterPercent : Nat := 25
def guardedExitPercent : Nat := 35
def criticalExitPercent : Nat := 15
def recoverySamplesRequired : Nat := 3

/-- The sample itself reports pressure, or less than a tenth of the memory is free. -/
def criticalSignal (sample : ResourceUsageSample) : Bool :=
  sample.memoryPressure || (availableMemoryPercent sample).any (· < 10)

/-- One sample counted towards recovery from `held` into `released`. -/
def countHealthySample (held released : MemoryPressureState) (healthy : Nat) :
    MemoryPressureState × Nat :=
  let healthy := saturatingAdd u8Max healthy 1
  (if recoverySamplesRequired ≤ healthy then released else held, healthy)

/-- `update_memory_pressure_state`, as a function of the state and the counter it
keeps. Every change of state clears the counter. -/
def nextMemoryPressure (previous : MemoryPressureState) (healthy : Nat)
    (sample : ResourceUsageSample) : MemoryPressureState × Nat :=
  let percent := availableMemoryPercent sample
  let (next, counted) :=
    match previous with
    | .normal =>
        if criticalSignal sample then (.critical, healthy)
        else if percent.any (· < guardedEnterPercent) then (.guarded, healthy)
        else (.normal, healthy)
    | .guarded =>
        if criticalSignal sample then (.critical, healthy)
        else if percent.any (guardedExitPercent ≤ ·) then
          countHealthySample .guarded .normal healthy
        else (.guarded, 0)
    | .critical =>
        if criticalSignal sample then (.critical, 0)
        else if percent.any (criticalExitPercent ≤ ·) then
          countHealthySample .critical .guarded healthy
        else (.critical, 0)
  (next, if next = previous then counted else 0)

/-- One bounded step from `current` in the direction of `target`. -/
def moveTowards (current target step : Nat) : Nat :=
  let step := max step 1
  if current < target then min (saturatingAdd u64Max current step) target
  else max (current - step) target

end Aegis.Resource
