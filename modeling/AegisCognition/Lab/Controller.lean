import AegisCognition.Lab.Payload

/-!
# The lab controller

The controller is the single writer around the reducer. The methods of this module are the
ones its callers have: typed records, state changes, exploration steps, the finalization
boundary, and events and records that come through the projection bridge. `Completed` can
be entered in four ways, and a mission with a goal contract has to pass the completion gate
on each of them.
-/

namespace Aegis.Lab

open Foundation LabRuntime
open Replay (Hash)

/-! ### The completion gate -/

section Gate

variable (externals : Externals) (c : LabController)

def projectedStateText (event : LabEvent) : Option String :=
  ((c.payloads[event.sequence]?).bind (·.get? "state")).bind Json.asStr

/-- The state that a logged state change stands for: the one that its payload names, or else
the one whose digest it carries. -/
def loggedState (event : LabEvent) : Option LabRunState :=
  ((projectedStateText c event).bind LabRunState.ofName).or
    (LabRunState.all.find? fun state =>
      event.payloadHash == externals.canonicalHash (.state state))

/-- One event of the log, read for the state that it leads to. -/
def followLoggedState (state : LabRunState) (event : LabEvent) : Option LabRunState :=
  if event.kind ≠ .stateChanged then some state else
    (loggedState externals c event).bind fun next =>
      if state ≠ next ∧ !state.canTransitionTo next then none else some next

def goalVerificationWasRecordedWhileReviewing (sequence : Nat) : Bool :=
  (c.runtime.events.takeWhile (·.sequence < sequence)).foldlM (followLoggedState externals c)
    .planned == some .reviewing

/-- The event logs the entry into `Completed`. -/
def logsCompletion (event : LabEvent) : Bool :=
  event.kind == .stateChanged &&
    (event.payloadHash == externals.canonicalHash (.state .completed) ||
      projectedStateText c event == some "completed")

def completedSequence : Option Nat :=
  (c.runtime.events.reverse.find? (logsCompletion externals c)).map (·.sequence)

/-- The payload of a retained goal verification. -/
def goalVerificationPayload (event : LabEvent) : Option Json :=
  if event.kind ≠ .reviewRecorded then none else
    (c.payloads[event.sequence]?).filter isGoalVerification

def lastGoalVerification : Option (LabEvent × Json) :=
  c.runtime.events.reverse.findSome? fun event =>
    (goalVerificationPayload c event).map fun payload => (event, payload)

/-- The verification still passes every check that was made when it came in. -/
def goalVerificationHolds (event : LabEvent) (payload : Json) : Bool :=
  match payload.asObject with
  | none => false
  | some object =>
      event.payloadHash == projectionPayloadHash externals payload &&
        (validateGoalVerificationRecord externals c object).toOption.isSome &&
        (validateProjectionBinding externals c event payload).toOption.isSome &&
        ((object.object? "verification").bind (·.bool? "evidence_complete")) == some true

/-- The verification came before the entry into `Completed`, if there was one. -/
def precedesCompletion (event : LabEvent) : Bool :=
  c.runtime.state != .completed || (completedSequence externals c).any (event.sequence < ·)

def goalCompletionEvidenceIsSuccessful : Bool :=
  c.mission.goalContractJson.isNone ||
    (lastGoalVerification c).any fun (event, payload) =>
      precedesCompletion externals c event &&
        goalVerificationWasRecordedWhileReviewing externals c event.sequence &&
        goalVerificationHolds externals c event payload

end Gate

/-! ### Methods -/

abbrev ControllerUpdate := EStateM LabError LabController Unit

namespace LabController

section Operations

variable (externals : Externals)

def new (mission : LabMissionSpec) : Except LabError LabController := do
  let budget ← (BudgetLedger.new mission.budgetPolicy).mapError .contract
  let runtime ← LabRuntime.new externals mission
  pure
    { runtime, budget
      finalization := .initial
      steps := 0
      index := .empty
      executionBinding := none
      payloads := ∅ }

def onRuntime (update : RuntimeUpdate) : ControllerUpdate :=
  zoom (·.runtime) (fun runtime c => { c with runtime }) update

def externalAttempts (c : LabController) : Nat :=
  c.runtime.events.countP fun event => isExternalAdmissionKind event.kind

def externalAttemptBudgetValid (c : LabController) : Bool :=
  c.mission.maxExternalAttempts.all (c.externalAttempts ≤ ·)

def externalAttemptBudgetAllows (c : LabController) (kind : LabEventKind) : Bool :=
  c.mission.maxExternalAttempts.all fun bound =>
    !isExternalAdmissionKind kind || c.externalAttempts < bound

/-- The mission may take another exploration step. -/
def explores (c : LabController) : Bool :=
  c.steps < c.mission.maxSteps && c.finalization.explorationAllowed &&
    c.runtime.state != .completed && c.runtime.state != .aborted

def admitExploration (expectedStateEpoch : UInt64) (spend : BudgetVector) : ControllerUpdate := do
  let c ← get
  refuse (c.runtime.stateEpoch ≠ expectedStateEpoch ∨ !c.explores) .invalidTransition
  let budget ← checked ((c.budget.consumeExploration spend).mapError .contract)
  set { c with
    budget
    steps := saturatingAdd u32Max c.steps 1
    runtime := c.runtime.recordBudgetAdmitted externals spend }

def beginFinalization : ControllerUpdate := do
  let c ← get
  let finalization ← checked (c.finalization.begin.mapError .contract)
  set { c with
    finalization
    runtime := c.runtime.recordFinalizationEvent externals .finalizationStarted }

def reopenForCriticalGap : ControllerUpdate := do
  let c ← get
  let finalization ← checked (c.finalization.reopenForCriticalGap.mapError .contract)
  set { c with
    finalization
    runtime := c.runtime.recordFinalizationEvent externals .finalizationReopened }

def transition (next : LabRunState) : ControllerUpdate := do
  let c ← get
  if next = .completed then
    refuse (!goalCompletionEvidenceIsSuccessful externals c) .invalidTransition
    onRuntime (transitionAfterCompletionGate externals next)
  else
    onRuntime (LabRuntime.transition externals next)

def reviewAndComplete : ControllerUpdate := do
  let c ← get
  refuse (!goalCompletionEvidenceIsSuccessful externals c) .invalidTransition
  refuse (!c.finalization.finalizerAllowed) .invalidTransition
  onRuntime (reviewAndCompleteAfterCompletionGate externals)

/-! ### The projection bridge -/

section

variable (c : LabController) (event : LabEvent)

def continuesLog : Bool :=
  event.sequence == c.runtime.events.length + 1 &&
    event.previousEventHash == lastEventHash c.runtime.events &&
    c.runtime.stateEpoch ≤ event.stateEpoch && event.isValid externals

def validateProjectionEvent : Except LabError Unit :=
  refuseWhen (!c.continuesLog externals event) .invalidEvent

/-- The event at the end of the log, with its epoch. -/
def retain : LabController :=
  { c with
    runtime := { c.runtime with
      stateEpoch := event.stateEpoch, events := c.runtime.events ++ [event] } }

end

def admitProjectionExploration (expectedStateEpoch : UInt64) (spend : BudgetVector)
    (event : LabEvent) : ControllerUpdate := do
  let c ← get
  refuse
    (event.kind ≠ .budgetAdmitted ∨ c.runtime.stateEpoch ≠ expectedStateEpoch ∨
      event.stateEpoch ≠ epochSucc expectedStateEpoch ∨ !c.explores ∨
      event.payloadHash ≠ externals.canonicalHash (.budget spend))
    .invalidTransition
  checked (c.validateProjectionEvent externals event)
  let budget ← checked ((c.budget.consumeExploration spend).mapError .contract)
  set (retain { c with budget, steps := saturatingAdd u32Max c.steps 1 } event)

/-- The kinds whose payload carries identity, provenance or effects. -/
def needsPayload : LabEventKind → Bool
  | .executionCellManifestRecorded | .sourceCaptured | .claimRecorded | .hypothesisRecorded
  | .experimentScheduled | .experimentExecutionAdmitted | .experimentExecutionRecorded
  | .toolExecutionAdmitted | .toolExecutionRecorded | .observationRecorded
  | .browserActionAdmitted | .browserActionRecorded | .browserObservationAdmitted
  | .browserObservationRecorded | .researchProgramAdmitted | .researchProgramExecuted
  | .skillAdmissionRecorded | .skillExecutionRecorded | .cancellationAdmitted
  | .cancellationRecorded | .budgetAdmitted => true
  | _ => false

/-- The state that a projected event leads to. The caller names the state; it is not read
from the event. -/
def projectedState (c : LabController) (kind : LabEventKind)
    (projectionState : Option LabRunState) : Except LabError LabRunState :=
  if kind ≠ .stateChanged then .ok c.runtime.state else do
    let next ← okOr .invalidEvent projectionState
    refuseWhen (c.runtime.state ≠ next ∧ !c.runtime.state.canTransitionTo next) .invalidTransition
    refuseWhen (next = .completed ∧ !goalCompletionEvidenceIsSuccessful externals c)
      .invalidTransition
    pure next

def projectedFinalization (boundary : FinalizationBoundary) :
    LabEventKind → Except LabError FinalizationBoundary
  | .finalizationStarted => boundary.begin.mapError .contract
  | .finalizationReopened => boundary.reopenForCriticalGap.mapError .contract
  | _ => .ok boundary

def withState (c : LabController) (state : LabRunState) : LabController :=
  { c with runtime := { c.runtime with state } }

def admitProjectionEvent (event : LabEvent) (projectionState : Option LabRunState) :
    ControllerUpdate := do
  let c ← get
  if event.sequence = 1 ∧ c.runtime.events = [event] then
    pure ()
  else
    refuse (needsPayload event.kind) .invalidRecord
    checked (c.validateProjectionEvent externals event)
    let state ← checked (c.projectedState externals event.kind projectionState)
    set (c.withState state)
    let finalization ← checked (projectedFinalization c.finalization event.kind)
    modify fun c => retain { c with finalization } event

/-- The binding of a run is set by the first event that carries one. -/
def bindExecution (c : LabController) (binding : Option ProjectionExecutionBinding) :
    Except LabError LabController :=
  match binding, c.executionBinding with
  | none, _ => .ok c
  | some binding, none => .ok { c with executionBinding := some binding }
  | some binding, some existing => do
      refuseWhen (existing ≠ binding) .invalidRecord
      pure c

def admitProjectionRecordMut (c : LabController) (event : LabEvent) (payloadJson : String)
    (projectionState : Option LabRunState) : Except LabError LabController := do
  refuseWhen (!c.externalAttemptBudgetAllows event.kind) .invalidTransition
  let payload ← okOr .invalidRecord (externals.fromStr payloadJson)
  refuseWhen (event.payloadHash ≠ projectionPayloadHash externals payload) .invalidEvent
  c.validateProjectionEvent externals event
  refuseWhen
    (c.mission.goalContractJson.isSome && (event.kind == .reviewRecorded &&
      isGoalVerification payload) && c.runtime.state != .reviewing)
    .invalidTransition
  refuseWhen (!projectionStateAllows c.runtime.state event.kind) .invalidTransition
  let index ← validateProjectionPayload externals c event.kind payload
  let c := { c with index }
  let binding ← validateProjectionBinding externals c event payload
  let c ← c.bindExecution binding
  let runtime ← syncProjectionRecordToRuntime c.runtime event.kind payload
  let c := { c with runtime }
  let state ← c.projectedState externals event.kind projectionState
  let c := c.withState state
  let finalization ← projectedFinalization c.finalization event.kind
  let c := { c with finalization, payloads := c.payloads.insert event.sequence payload }
  pure (c.retain event)

/-- The record is checked and applied on a copy of the controller. -/
def admitProjectionRecord (event : LabEvent) (payloadJson : String)
    (projectionState : Option LabRunState) : ControllerUpdate := do
  let c ← get
  let candidate ← checked (c.admitProjectionRecordMut externals event payloadJson projectionState)
  set candidate

end Operations

end LabController

/-! ### Calls -/

inductive Call
  | transition (next : LabRunState)
  | reviewAndComplete
  | recordSource (source : SourceRecord)
  | recordClaim (claim : ClaimRecord)
  | recordHypothesis (hypothesis : HypothesisRecord)
  | scheduleExperiment (experiment : ExperimentSpec)
  | recordObservation (observation : ObservationRecord)
  | recordResearchProgram (receipt : ResearchProgramReceipt)
  | recordSecurityEvent (event : SecurityEventRecord)
  | admitExploration (expectedStateEpoch : UInt64) (spend : BudgetVector)
  | beginFinalization
  | reopenForCriticalGap
  | admitProjectionExploration (expectedStateEpoch : UInt64) (spend : BudgetVector)
      (event : LabEvent)
  | admitProjectionEvent (event : LabEvent) (projectionState : Option LabRunState)
  | admitProjectionRecord (event : LabEvent) (payloadJson : String)
      (projectionState : Option LabRunState)

open LabController in
section

variable (externals : Externals)

/-- The method behind a call. -/
def method : Call → ControllerUpdate
  | .transition next => LabController.transition externals next
  | .reviewAndComplete => reviewAndComplete externals
  | .recordSource source => onRuntime (recordSource externals source)
  | .recordClaim claim => onRuntime (recordClaim externals claim)
  | .recordHypothesis hypothesis => onRuntime (recordHypothesis externals hypothesis)
  | .scheduleExperiment experiment => onRuntime (scheduleExperiment externals experiment)
  | .recordObservation observation =>
      onRuntime (recordObservation externals observation)
  | .recordResearchProgram receipt =>
      onRuntime (recordResearchProgram externals receipt)
  | .recordSecurityEvent event => onRuntime (recordSecurityEvent externals event)
  | .admitExploration expectedStateEpoch spend =>
      admitExploration externals expectedStateEpoch spend
  | .beginFinalization => beginFinalization externals
  | .reopenForCriticalGap => reopenForCriticalGap externals
  | .admitProjectionExploration expectedStateEpoch spend event =>
      admitProjectionExploration externals expectedStateEpoch spend event
  | .admitProjectionEvent event projectionState =>
      admitProjectionEvent externals event projectionState
  | .admitProjectionRecord event payloadJson projectionState =>
      admitProjectionRecord externals event payloadJson projectionState

/-- The controller after a call, whether it succeeds or fails. -/
def step (c : LabController) (call : Call) : LabController :=
  after (method externals call) c

/-- The call returns without an error. -/
def accepts (c : LabController) (call : Call) : Bool :=
  succeeds (method externals call) c

/-- The controller after these calls. -/
def reached (start : LabController) (calls : List Call) : LabController :=
  run (step externals) start calls

end

end Aegis.Lab
