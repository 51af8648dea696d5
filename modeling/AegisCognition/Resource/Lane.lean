import AegisCognition.Foundation.OrderedMap
import AegisCognition.Resource.Request

/-!
# Execution lanes

Each lane counts the attempts that run on it against a limit fixed by the hardware
profile. Work kinds are mapped to lanes by the runtime; no work kind maps to the I/O
lane, which is registered all the same.
-/

namespace Aegis.Resource

open Std Foundation

inductive ExecutionLane where
  | io
  | cpu
  | pythonCognition
  | accelerator
  | untrusted
  deriving DecidableEq

/-- Lanes are ordered by declaration. -/
abbrev laneCompare : ExecutionLane → ExecutionLane → Ordering :=
  compareOn ExecutionLane.ctorIdx

instance : LawfulEqCmp laneCompare where
  eq_of_compare := by
    intro a b h
    cases a <;> cases b <;> first | rfl | exact absurd h (by decide)

structure LaneLimit where
  maxInFlight : Nat
  active : Nat
  deriving DecidableEq

structure ExecutionLaneRegistry where
  lanes : ExtTreeMap ExecutionLane LaneLimit laneCompare
  deriving DecidableEq

def laneForWorkKind : WorkKind → ExecutionLane
  | .nativeTask => .cpu
  | .pythonCognition | .agent => .pythonCognition
  | .tool => .untrusted
  | .accelerator => .accelerator

namespace ExecutionLaneRegistry

/-- Distinct healthy devices with a visible name. -/
def acceleratorLaneLimit (profile : HardwareProfile) : Nat :=
  min ((profile.healthyAccelerators.filter (fun accelerator => !isBlank accelerator.id)).map
    (·.id)).dedup.length u32Max

def forProfile (profile : HardwareProfile) : ExecutionLaneRegistry :=
  let constrained := profile.operatingProfile = .constrained
  let idle := fun maxInFlight => { maxInFlight := maxInFlight, active := 0 : LaneLimit }
  let policy := profile.policy
  { lanes := (((((∅ : ExtTreeMap ExecutionLane LaneLimit laneCompare)
      |>.insert .io (idle
        (if constrained then policy.constrainedIoLaneLimit else policy.defaultIoLaneLimit)))
      |>.insert .cpu (idle (max profile.cpuWidth 1)))
      |>.insert .pythonCognition (idle
        (if constrained then policy.constrainedPythonLaneLimit
          else policy.defaultPythonLaneLimit)))
      |>.insert .accelerator (idle (acceleratorLaneLimit profile)))
      |>.insert .untrusted (idle
        (if constrained then policy.constrainedUntrustedLaneLimit
          else policy.defaultUntrustedLaneLimit)) }

section

variable (registry : ExecutionLaneRegistry) (lane : ExecutionLane)

def setActive (limit : LaneLimit) (active : Nat) : ExecutionLaneRegistry where
  lanes := registry.lanes.insert lane { limit with active := active }

def tryAcquire : Bool × ExecutionLaneRegistry :=
  match registry.lanes[lane]? with
  | none => (false, registry)
  | some limit =>
      if limit.maxInFlight ≤ limit.active then (false, registry)
      else (true, registry.setActive lane limit (limit.active + 1))

def release : Bool × ExecutionLaneRegistry :=
  match registry.lanes[lane]? with
  | none => (false, registry)
  | some limit =>
      if limit.active = 0 then (false, registry)
      else (true, registry.setActive lane limit (limit.active - 1))

def canRelease : Bool :=
  registry.lanes[lane]?.any (0 < ·.active)

/-- The number of attempts a lane counts, zero for a lane that is not registered. -/
def activeOn : Nat :=
  (registry.lanes[lane]?.map (·.active)).getD 0

/-- The lane is registered and below its limit. -/
def hasRoom : Bool :=
  registry.lanes[lane]?.any fun limit => limit.active < limit.maxInFlight

end

variable {registry : ExecutionLaneRegistry} {lane other : ExecutionLane}

theorem setActive_of_ne {limit : LaneLimit} {active : Nat} (h : lane ≠ other) :
    (registry.setActive lane limit active).lanes[other]? = registry.lanes[other]? :=
  OrderedMap.getElem?_insert_of_ne h

theorem hasRoom_of_acquired {limit : LaneLimit} (hlimit : registry.lanes[lane]? = some limit)
    (room : (registry.setActive lane limit (limit.active + 1)).hasRoom other = true) :
    registry.hasRoom other = true := by
  unfold hasRoom at room ⊢
  by_cases same : lane = other
  · subst same
    rw [setActive, ExtTreeMap.getElem?_insert_self] at room
    rw [hlimit]
    simp only [Option.any_some, decide_eq_true_eq] at room ⊢
    omega
  · rwa [setActive_of_ne same] at room

/-- Acquiring fails without effect on a full lane, and adds one to it otherwise. -/
theorem tryAcquire_cases (registry : ExecutionLaneRegistry) (lane : ExecutionLane) :
    (registry.tryAcquire lane = (false, registry) ∧ registry.hasRoom lane = false) ∨
    ∃ limit, registry.lanes[lane]? = some limit ∧ limit.active < limit.maxInFlight ∧
      registry.hasRoom lane = true ∧
      registry.tryAcquire lane = (true, registry.setActive lane limit (limit.active + 1)) := by
  unfold tryAcquire hasRoom
  cases h : registry.lanes[lane]? with
  | none => exact .inl ⟨rfl, rfl⟩
  | some limit =>
      by_cases hfull : limit.maxInFlight ≤ limit.active
      · refine .inl ⟨if_pos hfull, ?_⟩
        simpa using hfull
      · refine .inr ⟨limit, rfl, by omega, ?_, if_neg hfull⟩
        simpa using hfull

theorem release_of_canRelease (h : registry.canRelease lane = true) :
    ∃ limit, registry.lanes[lane]? = some limit ∧ 0 < limit.active ∧
      registry.release lane = (true, registry.setActive lane limit (limit.active - 1)) := by
  unfold canRelease at h
  cases hlimit : registry.lanes[lane]? with
  | none => simp [hlimit] at h
  | some limit =>
      simp only [hlimit, Option.any_some, decide_eq_true_eq] at h
      refine ⟨limit, rfl, h, ?_⟩
      have hne : limit.active ≠ 0 := by omega
      simp only [release, hlimit, hne, if_false]

/-- Releasing a lane right after acquiring it restores the registry. -/
theorem release_acquired {limit : LaneLimit} (h : registry.lanes[lane]? = some limit) :
    (registry.setActive lane limit (limit.active + 1)).release lane = (true, registry) := by
  have restored : registry.lanes.insert lane limit = registry.lanes :=
    OrderedMap.insert_self h
  simp [release, setActive, restored]

end ExecutionLaneRegistry

end Aegis.Resource
