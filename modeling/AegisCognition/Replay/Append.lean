import AegisCognition.Replay.Ledger

/-!
# The append operations

Every way a live ledger grows. Each operation makes its own checks, builds its event at
the end of the ledger, and passes the prerequisites of its kind to the common routine.
-/

namespace Aegis.Replay

open Foundation RunEvent

namespace RunEventLedger

section Operations

variable (blake3 : Hasher) (ledger : RunEventLedger)

def appendContextPackBuilt (packId : SubjectId) (tokenCount : BitVec 32)
    (contextPackDigest : Hash) : AppendResult :=
  let event := contextPackBuilt blake3 ledger.nextEventId ledger.runId packId tokenCount
    contextPackDigest ledger.lastHash
  ledger.append blake3 event { goalIntake := true }

def appendGoalIntakeRecorded (proof : Checked GoalIntakeProof) : AppendResult :=
  if !proof.valid || ledger.hasGoalIntakeRecorded then (.error .invalidEvent, ledger)
  else
    let event := goalIntakeRecorded blake3 ledger.nextEventId ledger.runId proof.record
      ledger.lastHash
    ledger.append blake3 event {}

def appendContextPackCandidateProofRecorded (proof : Checked ContextPackCandidateProof) :
    AppendResult :=
  if !proof.valid then (.error .invalidEvent, ledger)
  else
    let event := contextPackCandidateProofRecorded blake3 ledger.nextEventId ledger.runId
      proof.record ledger.lastHash
    ledger.append blake3 event { goalIntake := true, contextPack := true }

def appendTaskSelectionProofRecorded (proof : Checked TaskSelectionProof) : AppendResult :=
  if !proof.valid then (.error .invalidEvent, ledger)
  else
    let event := taskSelectionProofRecorded blake3 ledger.nextEventId ledger.runId
      proof.record ledger.lastHash
    ledger.append blake3 event { goalIntake := true }

def appendBrowserObservationPacketRecorded (packet : Checked BrowserObservationPacket) :
    AppendResult :=
  if !packet.valid then (.error .invalidEvent, ledger)
  else
    let event := browserObservationPacketRecorded blake3 ledger.nextEventId ledger.runId
      packet.record ledger.lastHash
    ledger.append blake3 event { goalIntake := true }

def appendLlmResponseReceived (responseHash rawTextRefHash : Hash) : AppendResult :=
  let event := llmResponseReceived blake3 ledger.nextEventId ledger.runId responseHash
    rawTextRefHash ledger.lastHash
  ledger.append blake3 event { goalIntake := true, contextPack := true }

def appendBudgetAdmittedLlmResponseReceived (responseHash rawTextRefHash : Hash)
    (proof : ProviderRouteAdmissionProof) : AppendResult :=
  if proof.proofHash == Hash.zero || proof.requiredTokens == 0 then (.error .invalidEvent, ledger)
  else
    let event := budgetAdmittedLlmResponseReceived blake3 ledger.nextEventId ledger.runId
      responseHash rawTextRefHash proof ledger.lastHash
    ledger.append blake3 event { goalIntake := true, contextPack := true }

def appendLlmDerivedToolCallRequested (callId : SubjectId) (typedToolIrHash : Hash) :
    AppendResult :=
  let event := toolCallRequested blake3 ledger.nextEventId ledger.runId callId
    typedToolIrHash ledger.lastHash
  ledger.append blake3 event { goalIntake := true, llmResponse := true }

def appendToolCallCompleted (callId : SubjectId) (evidence : ToolExecutionEvidence) :
    AppendResult :=
  if !evidence.isValid blake3 then (.error .invalidEvent, ledger)
  else
    let event := toolCallCompleted blake3 ledger.nextEventId ledger.runId callId evidence
      ledger.lastHash
    ledger.append blake3 event { goalIntake := true, toolCall := true, policyDecision := true }

def appendMemoryCommitRecorded (proof : Checked ToolMemoryCommitProof) : AppendResult :=
  if !proof.valid || !nonzeroHash ledger.lastToolExecutionEvidenceHash then
    (.error .invalidEvent, ledger)
  else
    let event := memoryCommitRecorded blake3 ledger.nextEventId ledger.runId
      proof.record.sessionId proof.record ledger.lastToolExecutionEvidenceHash ledger.lastHash
    ledger.append blake3 event { goalIntake := true }

def appendPolicyDecisionRecorded (policyTraceId : SubjectId)
    (policyProofTraceHash typedToolIrHash : Hash) : AppendResult :=
  let event := policyDecisionRecorded blake3 ledger.nextEventId ledger.runId
    policyTraceId policyProofTraceHash typedToolIrHash ledger.lastHash
  ledger.append blake3 event { goalIntake := true }

def appendPolicyDecisionRecordedAfterBrowserObservation (policyTraceId : SubjectId)
    (policyProofTraceHash typedToolIrHash browserObservationPacketHash : Hash) : AppendResult :=
  if !ledger.hasBrowserObservationPacketRecorded ||
      !nonzeroHash browserObservationPacketHash ||
      ledger.lastBrowserObservationPacketHash != browserObservationPacketHash then
    (.error .invalidEvent, ledger)
  else
    ledger.appendPolicyDecisionRecorded blake3 policyTraceId policyProofTraceHash typedToolIrHash

def appendApprovalTokenRecorded (approvalId : SubjectId)
    (approvalTokenHash reviewPacketHash : Hash) (expiresAtMs : BitVec 64) : AppendResult :=
  let event := approvalTokenRecorded blake3 ledger.nextEventId ledger.runId approvalId
    approvalTokenHash reviewPacketHash expiresAtMs ledger.lastHash
  ledger.append blake3 event { goalIntake := true, policyDecision := true }

def appendOperatorReviewArtifactRecorded (artifactId : SubjectId)
    (signingTargetHash artifactHash : Hash) : AppendResult :=
  let event := operatorReviewArtifactRecorded blake3 ledger.nextEventId ledger.runId
    artifactId signingTargetHash artifactHash ledger.lastHash
  ledger.append blake3 event { goalIntake := true, policyDecision := true }

def appendColdVectorExpansionRecorded (expansionId : SubjectId)
    (record : Checked ColdVectorExpansionReplayRecord) : AppendResult :=
  if !record.valid then (.error .invalidEvent, ledger)
  else
    let event := coldVectorExpansionRecorded blake3 ledger.nextEventId ledger.runId
      expansionId record.record ledger.lastHash
    ledger.append blake3 event { goalIntake := true }

def appendAgenticEvidenceExecutionRecorded (executionId : SubjectId)
    (record : Checked AgenticEvidenceExecutionRecord) : AppendResult :=
  if executionId == 0 || !record.valid then (.error .invalidEvent, ledger)
  else
    let event := agenticEvidenceExecutionRecorded blake3 ledger.nextEventId ledger.runId
      executionId record.record ledger.lastHash
    ledger.append blake3 event { goalIntake := true }

/-- The verdict is the run's validity for the program it is appended with. -/
def appendAgenticEvidenceSdkRunRecorded (executionId : SubjectId)
    (sdkRun : Checked AgenticEvidenceSdkRun) : AppendResult :=
  if executionId == 0 || !sdkRun.valid then (.error .invalidEvent, ledger)
  else
    let event := agenticEvidenceSdkRunRecorded blake3 ledger.nextEventId ledger.runId
      executionId sdkRun.record ledger.lastHash
    ledger.append blake3 event { goalIntake := true }

def appendSkillAdmissionRecorded (admission : Checked SkillAdmissionRecord)
    (admitted : Checked AdmittedSkillRecord) : AppendResult :=
  if !admission.valid || !admitted.valid ||
      admitted.record.admissionHash != admission.record.admissionHash ||
      admitted.record.packageHash != admission.record.packageHash then
    (.error .invalidEvent, ledger)
  else
    let event := skillAdmissionRecorded blake3 ledger.nextEventId ledger.runId
      admission.record admitted.record ledger.lastHash
    ledger.append blake3 event { goalIntake := true }

def appendBrowserOpsBenchVerificationRecorded
    (proof : Checked BrowserOpsBenchVerificationProof) : AppendResult :=
  if !proof.valid then (.error .invalidEvent, ledger)
  else
    let event := browserOpsBenchVerificationRecorded blake3 ledger.nextEventId
      ledger.runId proof.record ledger.lastHash
    ledger.append blake3 event { goalIntake := true }

def appendClusterCandidateAccepted (workId : SubjectId)
    (workerResultHash replayBindingHash : Hash) : AppendResult :=
  if workId == 0 || !nonzeroHash workerResultHash || !nonzeroHash replayBindingHash then
    (.error .invalidEvent, ledger)
  else
    let event := clusterCandidateAccepted blake3 ledger.nextEventId ledger.runId workId
      workerResultHash replayBindingHash ledger.lastHash
    ledger.append blake3 event { goalIntake := true }

def appendShadowSealRecorded (sealId : SubjectId) (batch : Checked ShadowSealBatchReceipt) :
    AppendResult :=
  if sealId == 0 || !batch.valid then (.error .invalidEvent, ledger)
  else
    let event := shadowSealRecorded blake3 ledger.nextEventId ledger.runId sealId
      batch.record ledger.lastHash
    ledger.append blake3 event { goalIntake := true }

def appendCircuitBreakerTripped (requestId : SubjectId)
    (evidenceHash responseFingerprintHash : Hash) : AppendResult :=
  let event := circuitBreakerTripped blake3 ledger.nextEventId ledger.runId requestId
    evidenceHash responseFingerprintHash ledger.lastHash
  ledger.append blake3 event { goalIntake := true, llmResponse := true }

def appendContextFoldRecorded (record : Checked ContextFoldRecord) : AppendResult :=
  if !record.valid then (.error .invalidEvent, ledger)
  else
    let event := contextFoldRecorded blake3 ledger.nextEventId ledger.runId
      record.record.activeTaskId record.record ledger.lastHash
    ledger.append blake3 event { goalIntake := true, contextPack := true }

def appendCheckpointSealed (checkpointId : SubjectId) (checkpointHash : Hash) : AppendResult :=
  let event := checkpointSealed blake3 ledger.nextEventId ledger.runId checkpointId
    checkpointHash ledger.lastHash
  ledger.append blake3 event { goalIntake := true }

def appendLabEventRecorded (labEvent : Checked LabEvent) : AppendResult :=
  if !labEvent.valid then (.error .invalidEvent, ledger)
  else
    let event := labEventRecorded blake3 ledger.nextEventId ledger.runId
      labEvent.record.eventHash labEvent.record.payloadHash ledger.lastHash
    ledger.append blake3 event {}

end Operations

end RunEventLedger

/-- One call of an append operation with its arguments. -/
inductive AppendCall where
  | contextPackBuilt (packId : SubjectId) (tokenCount : BitVec 32) (contextPackDigest : Hash)
  | goalIntakeRecorded (proof : Checked GoalIntakeProof)
  | contextPackCandidateProofRecorded (proof : Checked ContextPackCandidateProof)
  | taskSelectionProofRecorded (proof : Checked TaskSelectionProof)
  | browserObservationPacketRecorded (packet : Checked BrowserObservationPacket)
  | llmResponseReceived (responseHash rawTextRefHash : Hash)
  | budgetAdmittedLlmResponseReceived (responseHash rawTextRefHash : Hash)
      (proof : ProviderRouteAdmissionProof)
  | llmDerivedToolCallRequested (callId : SubjectId) (typedToolIrHash : Hash)
  | toolCallCompleted (callId : SubjectId) (evidence : ToolExecutionEvidence)
  | memoryCommitRecorded (proof : Checked ToolMemoryCommitProof)
  | policyDecisionRecorded (policyTraceId : SubjectId)
      (policyProofTraceHash typedToolIrHash : Hash)
  | policyDecisionRecordedAfterBrowserObservation (policyTraceId : SubjectId)
      (policyProofTraceHash typedToolIrHash browserObservationPacketHash : Hash)
  | approvalTokenRecorded (approvalId : SubjectId) (approvalTokenHash reviewPacketHash : Hash)
      (expiresAtMs : BitVec 64)
  | operatorReviewArtifactRecorded (artifactId : SubjectId)
      (signingTargetHash artifactHash : Hash)
  | coldVectorExpansionRecorded (expansionId : SubjectId)
      (record : Checked ColdVectorExpansionReplayRecord)
  | agenticEvidenceExecutionRecorded (executionId : SubjectId)
      (record : Checked AgenticEvidenceExecutionRecord)
  | agenticEvidenceSdkRunRecorded (executionId : SubjectId)
      (sdkRun : Checked AgenticEvidenceSdkRun)
  | skillAdmissionRecorded (admission : Checked SkillAdmissionRecord)
      (admitted : Checked AdmittedSkillRecord)
  | browserOpsBenchVerificationRecorded (proof : Checked BrowserOpsBenchVerificationProof)
  | clusterCandidateAccepted (workId : SubjectId) (workerResultHash replayBindingHash : Hash)
  | shadowSealRecorded (sealId : SubjectId) (batch : Checked ShadowSealBatchReceipt)
  | circuitBreakerTripped (requestId : SubjectId) (evidenceHash responseFingerprintHash : Hash)
  | contextFoldRecorded (record : Checked ContextFoldRecord)
  | checkpointSealed (checkpointId : SubjectId) (checkpointHash : Hash)
  | labEventRecorded (labEvent : Checked LabEvent)

namespace RunEventLedger

variable (blake3 : Hasher)

def perform (ledger : RunEventLedger) : AppendCall → AppendResult
  | .contextPackBuilt packId tokenCount digest =>
    ledger.appendContextPackBuilt blake3 packId tokenCount digest
  | .goalIntakeRecorded proof => ledger.appendGoalIntakeRecorded blake3 proof
  | .contextPackCandidateProofRecorded proof =>
    ledger.appendContextPackCandidateProofRecorded blake3 proof
  | .taskSelectionProofRecorded proof => ledger.appendTaskSelectionProofRecorded blake3 proof
  | .browserObservationPacketRecorded packet =>
    ledger.appendBrowserObservationPacketRecorded blake3 packet
  | .llmResponseReceived response rawText =>
    ledger.appendLlmResponseReceived blake3 response rawText
  | .budgetAdmittedLlmResponseReceived response rawText proof =>
    ledger.appendBudgetAdmittedLlmResponseReceived blake3 response rawText proof
  | .llmDerivedToolCallRequested callId toolIr =>
    ledger.appendLlmDerivedToolCallRequested blake3 callId toolIr
  | .toolCallCompleted callId evidence => ledger.appendToolCallCompleted blake3 callId evidence
  | .memoryCommitRecorded proof => ledger.appendMemoryCommitRecorded blake3 proof
  | .policyDecisionRecorded traceId trace toolIr =>
    ledger.appendPolicyDecisionRecorded blake3 traceId trace toolIr
  | .policyDecisionRecordedAfterBrowserObservation traceId trace toolIr packet =>
    ledger.appendPolicyDecisionRecordedAfterBrowserObservation blake3 traceId trace toolIr packet
  | .approvalTokenRecorded approvalId token review expiresAtMs =>
    ledger.appendApprovalTokenRecorded blake3 approvalId token review expiresAtMs
  | .operatorReviewArtifactRecorded artifactId target artifact =>
    ledger.appendOperatorReviewArtifactRecorded blake3 artifactId target artifact
  | .coldVectorExpansionRecorded expansionId record =>
    ledger.appendColdVectorExpansionRecorded blake3 expansionId record
  | .agenticEvidenceExecutionRecorded executionId record =>
    ledger.appendAgenticEvidenceExecutionRecorded blake3 executionId record
  | .agenticEvidenceSdkRunRecorded executionId sdkRun =>
    ledger.appendAgenticEvidenceSdkRunRecorded blake3 executionId sdkRun
  | .skillAdmissionRecorded admission admitted =>
    ledger.appendSkillAdmissionRecorded blake3 admission admitted
  | .browserOpsBenchVerificationRecorded proof =>
    ledger.appendBrowserOpsBenchVerificationRecorded blake3 proof
  | .clusterCandidateAccepted workId result binding =>
    ledger.appendClusterCandidateAccepted blake3 workId result binding
  | .shadowSealRecorded sealId batch => ledger.appendShadowSealRecorded blake3 sealId batch
  | .circuitBreakerTripped requestId evidence fingerprint =>
    ledger.appendCircuitBreakerTripped blake3 requestId evidence fingerprint
  | .contextFoldRecorded record => ledger.appendContextFoldRecorded blake3 record
  | .checkpointSealed checkpointId checkpoint =>
    ledger.appendCheckpointSealed blake3 checkpointId checkpoint
  | .labEventRecorded labEvent => ledger.appendLabEventRecorded blake3 labEvent

/-- The ledger after a call, whether it succeeded or not. -/
def step (ledger : RunEventLedger) (call : AppendCall) : RunEventLedger :=
  (ledger.perform blake3 call).2

end RunEventLedger

/-- The prerequisites that the append operations of a kind pass. No operation produces
the three kinds without an entry. -/
def RunEventKind.prerequisites : RunEventKind → Option Prerequisites
  | missionCompiled | configChanged | workCancelled => none
  | goalIntakeRecorded | labEventRecorded => some {}
  | llmResponseReceived | contextFoldRecorded | contextPackCandidateProofRecorded =>
    some { goalIntake := true, contextPack := true }
  | toolCallRequested | circuitBreakerTripped => some { goalIntake := true, llmResponse := true }
  | toolCallCompleted => some { goalIntake := true, toolCall := true, policyDecision := true }
  | approvalTokenRecorded | operatorReviewArtifactRecorded =>
    some { goalIntake := true, policyDecision := true }
  | contextPackBuilt | taskSelectionProofRecorded | browserObservationPacketRecorded
  | memoryCommitRecorded | policyDecisionRecorded | coldVectorExpansionRecorded
  | agenticEvidenceExecutionRecorded | skillAdmissionRecorded
  | browserOpsBenchVerificationRecorded | clusterCandidateAccepted | shadowSealRecorded
  | checkpointSealed => some { goalIntake := true }

end Aegis.Replay
