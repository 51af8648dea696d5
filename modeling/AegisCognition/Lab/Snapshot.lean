import AegisCognition.Lab.Controller

/-!
# Snapshots

A controller is written out as JSON and read back. What is read back is not trusted: the
reducer, the budget, the index of projected records, the goal bindings and the retained
payloads are all checked again before the controller is handed out.
-/

namespace Aegis.Lab

open Foundation
open Replay (Hash)

/-- The serialisation of a controller, which the lab takes from its libraries. -/
structure Codec where
  toString : LabController → Option String
  fromStr : String → Option LabController

namespace LabController

/-! ### What is wrong with an entry of the index -/

section Entries

variable (c : LabController)

def experimentIsInvalid (entry : String × ProjectionExperiment) : Bool :=
  isBlank entry.1 || isBlank entry.2.hypothesisId || entry.2.preregisteredSeeds.size < 5 ||
    !c.knowsHypothesis entry.2.hypothesisId

/-- A replication without the observation that it repeats, or of another kind. -/
def replicationIsInvalid (observation : ProjectionObservation) : Bool :=
  observation.replicationOf.any fun parentId =>
    match c.index.observations[parentId]? with
    | none => true
    | some parent =>
        parent.experimentId != observation.experimentId ||
          parent.environmentHash == observation.environmentHash || !observation.clean

def observationIsInvalid (entry : String × ProjectionObservation) : Bool :=
  isBlank entry.1 || isBlank entry.2.experimentId || isBlank entry.2.environmentHash ||
    !c.knowsExperiment entry.2.experimentId || c.replicationIsInvalid entry.2

def experimentExecutionAdmissionIsInvalid
    (entry : String × ProjectionExperimentExecutionAdmission) : Bool :=
  isBlank entry.1 || isBlank entry.2.admissionId || isBlank entry.2.experimentId ||
    entry.2.attempt == 0 || !c.knowsExperiment entry.2.experimentId ||
    !isHexDigest entry.2.inputHash || !isHexDigest entry.2.policyHash

def skillAdmissionIsInvalid (entry : String × ProjectionSkillAdmission) : Bool :=
  !isHexDigest entry.1 || isBlank entry.2.skillId || isBlank entry.2.version ||
    entry.2.missionId != c.mission.missionId

end Entries

def toolExecutionAdmissionIsInvalid (entry : String × ProjectionToolExecutionAdmission) : Bool :=
  isBlank entry.1 || isBlank entry.2.admissionId || isBlank entry.2.toolName ||
    entry.2.attempt == 0 || entry.2.leaseId == 0 || isBlank entry.2.effectClass ||
    !(["actor", "observer"].contains entry.2.actorRole) ||
    isBlank entry.2.expectedObservationSchema || isBlank entry.2.stopRule ||
    !isHexDigest entry.2.inputHash || !isHexDigest entry.2.policyHash

/-- An admission under a blank key or with a blank id. -/
def admissionIsBlank (entry : String × String) : Bool :=
  isBlank entry.1 || isBlank entry.2

def researchProgramAdmissionIsInvalid (entry : String × String) : Bool :=
  !isHexDigest entry.1 || isBlank entry.2

/-! ### The checks -/

section Checks

variable (externals : Externals) (c : LabController)

def validateIndex : Except LabError Unit := do
  refuseWhen
    (c.index.sources.toList.any isBlank || c.index.claims.toList.any isBlank ||
      c.index.hypotheses.toList.any isBlank)
    .invalidEvent
  refuseWhen (c.index.experiments.toList.any c.experimentIsInvalid) .invalidEvent
  refuseWhen (c.index.observations.toList.any c.observationIsInvalid) .invalidEvent
  refuseWhen
    (c.index.experimentExecutionAdmissions.toList.any c.experimentExecutionAdmissionIsInvalid)
    .invalidEvent
  refuseWhen (c.index.toolExecutionAdmissions.toList.any toolExecutionAdmissionIsInvalid)
    .invalidEvent
  refuseWhen
    (c.index.experimentExecutions.toList.any isBlank || c.index.toolExecutions.toList.any isBlank ||
      c.index.cancellations.toList.any isBlank ||
      c.index.cancellationAdmissions.toList.any admissionIsBlank)
    .invalidEvent
  refuseWhen
    (c.index.browserActions.toList.any isBlank || c.index.browserObservations.toList.any isBlank ||
      c.index.browserActionAdmissions.toList.any admissionIsBlank ||
      c.index.browserObservationAdmissions.toList.any admissionIsBlank ||
      c.index.skillExecutions.toList.any (!isHexDigest ·))
    .invalidEvent
  refuseWhen (c.index.skillAdmissions.toList.any c.skillAdmissionIsInvalid) .invalidEvent

/-- There is at most one manifest, and it still passes the checks that it passed. -/
def validateManifest : Except LabError Unit := do
  let manifestEvents := c.runtime.events.filter (·.kind == .executionCellManifestRecorded)
  refuseWhen (1 < manifestEvents.length) .invalidEvent
  match manifestEvents.head? with
  | none => pure ()
  | some event =>
      let payload ← okOr .invalidEvent c.payloads[event.sequence]?
      let index ← validateProjectionPayload externals c event.kind payload
      let _ ← validateProjectionBinding externals { c with index } event payload

/-- One goal-bound event, read for the execution binding that it carries. -/
def readSnapshotBinding (snapshotBinding : Option ProjectionExecutionBinding) (event : LabEvent) :
    Except LabError (Option ProjectionExecutionBinding) := do
  let payload ← okOr .invalidEvent c.payloads[event.sequence]?
  let object ← okOr .invalidEvent payload.asObject
  let parsed ← (validateGoalEventBinding externals c event.kind object).mapError
    fun _ => .invalidEvent
  match parsed with
  | none => pure snapshotBinding
  | some binding =>
      refuseWhen (snapshotBinding.any (· != binding)) .invalidEvent
      pure (some binding)

def goalBoundEvents : List LabEvent :=
  c.runtime.events.filter fun event => isGoalBoundEventKind event.kind

/-- A payload outside the log, or not the one whose digest its event carries. -/
def payloadIsInvalid (entry : Nat × Json) : Bool :=
  entry.1 == 0 ||
    match c.runtime.events[entry.1 - 1]? with
    | none => true
    | some event =>
        entry.2.asObject.isNone || event.payloadHash != projectionPayloadHash externals entry.2

def validateProjectionSnapshot : Except LabError Unit := do
  c.validateIndex
  c.validateManifest externals
  let snapshotBinding ← c.goalBoundEvents.foldlM (c.readSnapshotBinding externals) none
  refuseWhen (snapshotBinding ≠ c.executionBinding) .invalidEvent
  refuseWhen
    (c.index.researchPrograms.toList.any (!isHexDigest ·) ||
      c.index.researchProgramAdmissions.toList.any researchProgramAdmissionIsInvalid ||
      c.payloads.toList.any (c.payloadIsInvalid externals))
    .invalidEvent
  refuseWhen
    (c.runtime.state == .completed && !goalCompletionEvidenceIsSuccessful externals c)
    .invalidEvent

/-- The budget, as far as it is checked on its own. The sum of the pools may overflow, which
stops the process. -/
def budgetIsValid : Option Bool :=
  c.budget.snapshotValid.map fun valid =>
    valid && c.budget.explorationRemaining.fitsWithin c.mission.budgetPolicy.total &&
      c.budget.finalizationRemaining.fitsWithin c.mission.budgetPolicy.total &&
      c.budget.recoveryRemaining.fitsWithin c.mission.budgetPolicy.total

/-- The checks of a controller that was read back. `none` is a process that stopped. -/
def restore : Option (Except LabError LabController) :=
  match c.runtime.validateSnapshotContents externals with
  | .error error => some (.error error)
  | .ok () =>
      if c.mission.maxSteps < c.steps || !c.externalAttemptBudgetValid then
        some (.error .invalidEvent)
      else
        c.budgetIsValid.map fun valid => do
          refuseWhen (!valid) .invalidEvent
          c.validateProjectionSnapshot externals
          pure c

end Checks

def snapshotJson (codec : Codec) (c : LabController) : Except LabError String :=
  okOr .invalidEvent (codec.toString c)

def fromSnapshotJson (externals : Externals) (codec : Codec) (snapshot : String) :
    Option (Except LabError LabController) :=
  match codec.fromStr snapshot with
  | none => some (.error .invalidEvent)
  | some c => c.restore externals

end LabController

end Aegis.Lab
