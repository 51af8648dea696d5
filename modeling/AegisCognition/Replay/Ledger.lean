import AegisCognition.Replay.Record
import AegisCognition.Replay.Protocol

/-!
# The run event ledger

A ledger grows by its append operations and is rebuilt from a list of events by replay.
The two are written separately: an append passes its own prerequisites to a common
routine, replay keeps a list of kinds for each rule. An append returns its result
together with the ledger it leaves behind, also when it fails.
-/

namespace Aegis.Replay

open Foundation

inductive ReplayLedgerError where
  | invalidEvent
  | missingPriorContextPack
  | missingPriorGoalIntake
  | missingPriorLlmResponse
  | missingPriorToolCall
  | missingPriorPolicyDecision
  | hashChainMismatch

/-- The flags and last values of a ledger: the shared ones and two of its own. -/
structure LedgerFlags extends ReplayFlags where
  hasBrowserObservationPacketRecorded : Bool := false
  lastBrowserObservationPacketHash : Hash := Hash.zero

structure RunEventLedger extends LedgerFlags where
  runId : RunId
  events : List RunEvent := []

/-- The result of a fallible operation and the state it leaves. -/
abbrev AppendResult := Except ReplayLedgerError RunEvent × RunEventLedger

/-- The five prerequisite arguments of the common append routine. -/
structure Prerequisites where
  goalIntake : Bool := false
  contextPack : Bool := false
  llmResponse : Bool := false
  toolCall : Bool := false
  policyDecision : Bool := false

namespace RunEventLedger

def new (runId : RunId) : RunEventLedger := { runId }

section Replay

/-- The local variables of the replay loop. -/
structure ReplayLocals extends LedgerFlags where
  index : Nat := 0
  previousEventHash : Hash := Hash.zero

variable (blake3 : Hasher)

def replayRecord (locals : ReplayLocals) (event : RunEvent) :
    Except ReplayLedgerError ReplayLocals :=
  match event.kind with
  | .goalIntakeRecorded => .ok { locals with hasGoalIntakeRecorded := true }
  | .contextPackBuilt => .ok { locals with hasContextPackBuilt := true }
  | .llmResponseReceived => .ok { locals with hasLlmResponseReceived := true }
  | .toolCallRequested =>
    .ok { locals with
      hasPendingToolCall := true
      hasToolCompletionRecorded := false
      lastToolCallId := event.subjectId
      lastToolCallEventId := event.eventId
      lastToolIrHash := event.primaryHash }
  | .toolCallCompleted =>
    match event.secondaryHash with
    | none => .error .invalidEvent
    | some evidenceHash =>
      .ok { locals with
        hasPendingToolCall := false
        hasToolCompletionRecorded := true
        lastToolExecutionEvidenceHash := evidenceHash }
  | .policyDecisionRecorded =>
    match event.secondaryHash with
    | none => .error .invalidEvent
    | some toolIrHash =>
      .ok { locals with
        hasPolicyDecisionRecorded := true
        lastPolicyEventId := event.eventId
        lastPolicyProofTraceHash := event.primaryHash
        lastPolicyToolIrHash := toolIrHash }
  | .browserObservationPacketRecorded =>
    .ok { locals with
      hasBrowserObservationPacketRecorded := true
      lastBrowserObservationPacketHash := event.primaryHash }
  | _ => .ok locals

/-- One iteration of the replay loop. -/
def replayEvent (runId : RunId) (locals : ReplayLocals) (event : RunEvent) :
    Except ReplayLedgerError ReplayLocals :=
  if !event.isValid blake3 || event.runId != runId ||
      event.eventId != BitVec.ofNat 64 locals.index + 1 then
    .error .invalidEvent
  else if event.previousEventHash != locals.previousEventHash then
    .error .hashChainMismatch
  else if event.kind.requiresGoalIntake && !locals.hasGoalIntakeRecorded then
    .error .missingPriorGoalIntake
  else if event.kind == .goalIntakeRecorded && locals.hasGoalIntakeRecorded then
    .error .invalidEvent
  else if event.kind.requiresContextPack && !locals.hasContextPackBuilt then
    .error .missingPriorContextPack
  else if event.kind.requiresLlmResponse && !locals.hasLlmResponseReceived then
    .error .missingPriorLlmResponse
  else if event.kind == .toolCallRequested && locals.hasPendingToolCall then
    .error .invalidEvent
  else if event.kind == .toolCallCompleted && !locals.hasPendingToolCall then
    .error .missingPriorToolCall
  else if event.kind == .memoryCommitRecorded && !locals.hasToolCompletionRecorded then
    .error .invalidEvent
  else if event.kind.requiresPolicyDecision && !locals.hasPolicyDecisionRecorded then
    .error .missingPriorPolicyDecision
  else do
    checkWhen (event.kind == .toolCallCompleted)
      (locals.checkCompletion blake3 event .invalidEvent .invalidEvent)
    checkWhen (event.kind == .memoryCommitRecorded)
      (locals.checkMemoryCommit blake3 event .invalidEvent .invalidEvent)
    let locals ← replayRecord locals event
    return { locals with
      index := locals.index + 1
      previousEventHash := event.eventHash }

def fromEvents (runId : RunId) (events : List RunEvent) :
    Except ReplayLedgerError RunEventLedger := do
  let locals ← events.foldlM (replayEvent blake3 runId) {}
  return { toLedgerFlags := locals.toLedgerFlags, runId, events }

end Replay

section Append

variable (ledger : RunEventLedger)

def lastHash : Hash :=
  ledger.events.getLast?.elim Hash.zero RunEvent.eventHash

/-- The chain check that a writer makes before it writes a ledger. -/
def verifyHashChain (blake3 : Hasher) : Bool :=
  let rec links (previous : Hash) : List RunEvent → Bool
    | [] => true
    | event :: events =>
      event.previousEventHash == previous && event.isValid blake3 && links event.eventHash events
  links Hash.zero ledger.events

def nextEventId : EventId :=
  BitVec.ofNat 64 ledger.events.length + 1

variable (blake3 : Hasher)

section

variable (event : RunEvent)

def validateToolCallCompleted : Except ReplayLedgerError Unit :=
  match event.secondaryHash with
  | none => .error .invalidEvent
  | some evidenceHash =>
    if event.subjectId != ledger.lastToolCallId then .error .invalidEvent
    else if ledger.lastPolicyEventId ≤ ledger.lastToolCallEventId then
      .error .missingPriorPolicyDecision
    else if ledger.lastToolIrHash != ledger.lastPolicyToolIrHash then .error .invalidEvent
    else if event.primaryHash != toolCallCompletionBindingHash blake3 event.subjectId
        ledger.lastToolIrHash ledger.lastPolicyProofTraceHash evidenceHash then
      .error .invalidEvent
    else .ok ()

def validateMemoryCommitRecorded : Except ReplayLedgerError Unit :=
  if !ledger.hasToolCompletionRecorded || ledger.hasPendingToolCall || event.subjectId == 0 ||
      !nonzeroHash ledger.lastToolExecutionEvidenceHash then
    .error .invalidEvent
  else
    match event.secondaryHash with
    | none => .error .invalidEvent
    | some bindingHash =>
      if bindingHash != memoryCommitBindingHash blake3 event.subjectId
          ledger.lastToolExecutionEvidenceHash event.primaryHash then
        .error .invalidEvent
      else .ok ()

/-- The checks of an append that read the ledger and change nothing. -/
def appendChecks (requires : Prerequisites) : Except ReplayLedgerError Unit :=
  if !event.isValid blake3 then .error .invalidEvent
  else if event.runId != ledger.runId || event.eventId != ledger.nextEventId then
    .error .invalidEvent
  else if event.previousEventHash != ledger.lastHash then .error .hashChainMismatch
  else if requires.goalIntake && !ledger.hasGoalIntakeRecorded then
    .error .missingPriorGoalIntake
  else if requires.contextPack && !ledger.hasContextPackBuilt then
    .error .missingPriorContextPack
  else if requires.llmResponse && !ledger.hasLlmResponseReceived then
    .error .missingPriorLlmResponse
  else if requires.toolCall && !ledger.hasPendingToolCall then .error .missingPriorToolCall
  else if requires.policyDecision && !ledger.hasPolicyDecisionRecorded then
    .error .missingPriorPolicyDecision
  else do
    checkWhen (event.kind == .toolCallCompleted) (ledger.validateToolCallCompleted blake3 event)
    checkWhen (event.kind == .memoryCommitRecorded)
      (ledger.validateMemoryCommitRecorded blake3 event)

/-- The event is pushed onto the ledger and returned. -/
def push : AppendResult :=
  (.ok event, { ledger with events := ledger.events ++ [event] })

/-- The state change of an append. Some fields are assigned before the last refusal, so
the ledger returned with an error may differ from the one before. -/
def appendRecord : AppendResult :=
  match event.kind with
  | .goalIntakeRecorded =>
    if ledger.hasGoalIntakeRecorded then (.error .invalidEvent, ledger)
    else push { ledger with hasGoalIntakeRecorded := true } event
  | .contextPackBuilt => push { ledger with hasContextPackBuilt := true } event
  | .llmResponseReceived => push { ledger with hasLlmResponseReceived := true } event
  | .toolCallRequested =>
    if ledger.hasPendingToolCall then (.error .invalidEvent, ledger)
    else
      push
        { ledger with
          hasPendingToolCall := true
          hasToolCompletionRecorded := false
          lastToolCallId := event.subjectId
          lastToolCallEventId := event.eventId
          lastToolIrHash := event.primaryHash }
        event
  | .toolCallCompleted =>
    let ledger :=
      { ledger with hasPendingToolCall := false, hasToolCompletionRecorded := true }
    match event.secondaryHash with
    | none => (.error .invalidEvent, ledger)
    | some evidenceHash =>
      push { ledger with lastToolExecutionEvidenceHash := evidenceHash } event
  | .policyDecisionRecorded =>
    let ledger :=
      { ledger with
        hasPolicyDecisionRecorded := true
        lastPolicyEventId := event.eventId
        lastPolicyProofTraceHash := event.primaryHash }
    match event.secondaryHash with
    | none => (.error .invalidEvent, ledger)
    | some toolIrHash => push { ledger with lastPolicyToolIrHash := toolIrHash } event
  | .browserObservationPacketRecorded =>
    push
      { ledger with
        hasBrowserObservationPacketRecorded := true
        lastBrowserObservationPacketHash := event.primaryHash }
      event
  | _ => push ledger event

def append (requires : Prerequisites) : AppendResult :=
  match ledger.appendChecks blake3 event requires with
  | .error error => (.error error, ledger)
  | .ok () => ledger.appendRecord event

end

end Append

end RunEventLedger

end Aegis.Replay
