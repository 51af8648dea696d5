import AegisCognition.Foundation.OrderedMap
import AegisCognition.Foundation.Update
import AegisCognition.Lab.Mission

/-!
# The lab reducer

The reducer owns the mission, the state it is in, the typed records and the chain of
events. Every event names its place, the epoch, its kind, the digest of its payload and the
hash of the event before it, and is sealed by its own hash. The typed methods change the
records and append an event; a method that fails is left where it failed.
-/

namespace Aegis.Lab

open Foundation OrderedMap
open Replay (Hash)

/-- Epochs count up and stop at the largest `u64`. -/
def epochSucc (epoch : UInt64) : UInt64 :=
  if epoch = UInt64.ofNat u64Max then epoch else epoch + 1

theorem le_epochSucc (epoch : UInt64) : epoch ≤ epochSucc epoch := by
  unfold epochSucc
  split
  · exact UInt64.le_refl _
  · rename_i h
    rw [UInt64.le_iff_toNat_le, UInt64.toNat_add]
    have bound := epoch.toNat_lt
    have other : epoch.toNat ≠ u64Max := by
      intro same
      exact h (by rw [← same, UInt64.ofNat_toNat])
    rw [Nat.mod_eq_of_lt]
    · exact Nat.le_add_right _ _
    · simp only [u64Max] at other
      change epoch.toNat + 1 < 2 ^ 64
      omega

structure LabEvent extends EventWithoutHash where
  eventHash : Hash
  deriving DecidableEq

section Chain

variable (externals : Externals)

namespace LabEvent

def new (sequence : Nat) (stateEpoch : UInt64) (kind : LabEventKind)
    (payloadHash previousEventHash : Hash) : LabEvent :=
  let event : EventWithoutHash := { sequence, stateEpoch, kind, payloadHash, previousEventHash }
  { event with eventHash := externals.canonicalHash (.event event) }

def isValid (event : LabEvent) : Bool :=
  event.eventHash != Hash.zero &&
    event.eventHash == externals.canonicalHash (.event event.toEventWithoutHash)

end LabEvent

/-- What the next event of a chain has to continue. -/
structure ChainEnd where
  sequence : Nat
  eventHash : Hash
  stateEpoch : UInt64

def ChainEnd.start : ChainEnd := ⟨0, Hash.zero, 0⟩

/-- One step of the check of a chain. -/
def ChainEnd.follow (last : ChainEnd) (event : LabEvent) : Option ChainEnd :=
  if event.sequence = last.sequence + 1 ∧ event.previousEventHash = last.eventHash ∧
      last.stateEpoch ≤ event.stateEpoch ∧ event.isValid externals then
    some ⟨event.sequence, event.eventHash, event.stateEpoch⟩
  else none

def verifyEventChain (events : List LabEvent) : Bool :=
  (events.foldlM (ChainEnd.follow externals) .start).isSome && !events.isEmpty

end Chain

structure LabRuntime where
  mission : LabMissionSpec
  state : LabRunState
  stateEpoch : UInt64
  events : List LabEvent
  sources : Table SourceRecord
  claims : Table ClaimRecord
  hypotheses : Table HypothesisRecord
  experiments : Table ExperimentSpec
  observations : Table ObservationRecord

/-- The hash that the next event refers to. -/
def lastEventHash (events : List LabEvent) : Hash :=
  (events.getLast?.map (·.eventHash)).getD Hash.zero

/-- A typed method of the reducer. -/
abbrev RuntimeUpdate := EStateM LabError LabRuntime Unit

namespace LabRuntime

section Operations

variable (externals : Externals)

def appendEvent (kind : LabEventKind) (payloadHash : Hash) (runtime : LabRuntime) : LabRuntime :=
  { runtime with
    events := runtime.events ++
      [.new externals (runtime.events.length + 1) runtime.stateEpoch kind payloadHash
        (lastEventHash runtime.events)] }

/-- The end of every typed method: the epoch moves on and an event is appended. -/
def record (kind : LabEventKind) (payload : Canonical) (runtime : LabRuntime) : LabRuntime :=
  appendEvent externals kind (externals.canonicalHash payload)
    { runtime with stateEpoch := epochSucc runtime.stateEpoch }

def new (mission : LabMissionSpec) : Except LabError LabRuntime := do
  mission.validate externals
  pure <| appendEvent externals .missionCreated (externals.canonicalHash (.mission mission))
    { mission
      state := .planned
      stateEpoch := 0
      events := []
      sources := ∅
      claims := ∅
      hypotheses := ∅
      experiments := ∅
      observations := ∅ }

def transitionAfterCompletionGate (next : LabRunState) : RuntimeUpdate := do
  let runtime ← get
  if runtime.state = next then
    pure ()
  else
    refuse (!runtime.state.canTransitionTo next) .invalidTransition
    set (record externals .stateChanged (.state next) { runtime with state := next })

def transition (next : LabRunState) : RuntimeUpdate := do
  let runtime ← get
  refuse (next = .completed ∧ runtime.mission.goalContractJson.isSome) .invalidTransition
  transitionAfterCompletionGate externals next

def recordSource (source : SourceRecord) : RuntimeUpdate := do
  let runtime ← get
  refuse (runtime.state ≠ .planned ∧ runtime.state ≠ .researching) .invalidTransition
  checked source.validate
  refuse (runtime.sources.contains source.sourceId) .invalidRecord
  set { runtime with sources := runtime.sources.insert source.sourceId source }
  if runtime.state = .planned then
    transition externals .researching
  modify (record externals .sourceCaptured (.source source))

/-- The states in which claims, hypotheses and experiments are taken. -/
def acceptsFindings (state : LabRunState) : Bool :=
  state == .researching || state == .experimenting || state == .reviewing

def recordClaim (claim : ClaimRecord) : RuntimeUpdate := do
  let runtime ← get
  refuse (!acceptsFindings runtime.state) .invalidTransition
  checked (claim.validate runtime.sources)
  refuse (runtime.claims.contains claim.claimId) .invalidRecord
  set (record externals .claimRecorded (.claim claim)
    { runtime with claims := runtime.claims.insert claim.claimId claim })

def recordHypothesis (hypothesis : HypothesisRecord) : RuntimeUpdate := do
  let runtime ← get
  refuse (!acceptsFindings runtime.state) .invalidTransition
  checked (hypothesis.validate runtime.claims)
  refuse (runtime.hypotheses.contains hypothesis.hypothesisId) .invalidRecord
  set (record externals .hypothesisRecorded (.hypothesis hypothesis)
    { runtime with
      hypotheses := runtime.hypotheses.insert hypothesis.hypothesisId hypothesis })

def scheduleExperiment (experiment : ExperimentSpec) : RuntimeUpdate := do
  let runtime ← get
  refuse (!acceptsFindings runtime.state) .invalidTransition
  checked (experiment.validate runtime.hypotheses)
  refuse (runtime.experiments.contains experiment.experimentId) .invalidRecord
  set { runtime with
    experiments := runtime.experiments.insert experiment.experimentId experiment }
  if runtime.state = .researching then
    transition externals .experimenting
  modify (record externals .experimentScheduled (.experiment experiment))

def recordObservation (observation : ObservationRecord) : RuntimeUpdate := do
  let runtime ← get
  refuse (runtime.state ≠ .experimenting ∧ runtime.state ≠ .reviewing) .invalidTransition
  checked (observation.validate runtime.experiments runtime.observations)
  refuse (runtime.observations.contains observation.observationId) .invalidRecord
  set (record externals .observationRecorded (.observation observation)
    { runtime with
      observations := runtime.observations.insert observation.observationId observation })

def recordResearchProgram (receipt : ResearchProgramReceipt) : RuntimeUpdate := do
  let runtime ← get
  refuse (runtime.state = .completed ∨ runtime.state = .aborted) .invalidTransition
  checked receipt.validate
  set (record externals .researchProgramExecuted (.researchProgram receipt) runtime)

def recordSecurityEvent (event : SecurityEventRecord) : RuntimeUpdate := do
  let runtime ← get
  refuse (runtime.state = .aborted) .invalidTransition
  checked event.validate
  set (record externals .securityEventRecorded (.securityEvent event) runtime)

def recordBudgetAdmitted (spend : BudgetVector) : LabRuntime → LabRuntime :=
  record externals .budgetAdmitted (.budget spend)

def recordFinalizationEvent (kind : LabEventKind) (runtime : LabRuntime) : LabRuntime :=
  record externals kind (.epoch (epochSucc runtime.stateEpoch)) runtime

end Operations

/-! ### Completeness -/

def observationsOf (runtime : LabRuntime) (experiment : ExperimentSpec) : List ObservationRecord :=
  (valueList runtime.observations).filter
    (·.experimentId == experiment.experimentId)

def cleanReplications (runtime : LabRuntime) (experiment : ExperimentSpec) :
    List ObservationRecord :=
  (valueList runtime.observations).filter fun observation =>
    observation.experimentId == experiment.experimentId && observation.replicationOf.isSome &&
      observation.clean

/-- The records do not yet support a completion. -/
def isIncomplete (runtime : LabRuntime) : Bool :=
  runtime.hypotheses.isEmpty || runtime.experiments.isEmpty || runtime.observations.isEmpty ||
    (valueList runtime.observations).any (!·.valid) ||
    (valueList runtime.experiments).any (fun experiment =>
      (runtime.observationsOf experiment).length < experiment.expectedObservations) ||
    (valueList runtime.experiments).any fun experiment =>
      (runtime.cleanReplications experiment).length < experiment.minCleanReplicates

def reviewAndCompleteAfterCompletionGate (externals : Externals) : RuntimeUpdate := do
  let runtime ← get
  refuse runtime.isIncomplete .incompleteMission
  if runtime.state ≠ .reviewing then
    transition externals .reviewing
  transitionAfterCompletionGate externals .completed

/-! ### Restored reducers -/

def validateSnapshotContents (externals : Externals) (runtime : LabRuntime) :
    Except LabError Unit := do
  runtime.mission.validate externals
  refuseWhen (!verifyEventChain externals runtime.events) .invalidEvent
  let firstEvent ← okOr .invalidEvent runtime.events.head?
  refuseWhen
    (firstEvent.kind ≠ .missionCreated ∨
      firstEvent.payloadHash ≠ externals.canonicalHash (.mission runtime.mission) ∨
      runtime.stateEpoch ≠ (runtime.events.getLast?.map (·.stateEpoch)).getD 0)
    .invalidEvent
  (valueList runtime.sources).forM (·.validate)
  (valueList runtime.claims).forM (·.validate runtime.sources)
  (valueList runtime.hypotheses).forM (·.validate runtime.claims)
  (valueList runtime.experiments).forM (·.validate runtime.hypotheses)
  (valueList runtime.observations).forM
    (·.validate runtime.experiments runtime.observations)
  refuseWhen (runtime.state == .completed && runtime.isIncomplete) .incompleteMission

end LabRuntime

end Aegis.Lab
