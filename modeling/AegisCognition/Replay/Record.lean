import AegisCognition.Replay.Event

/-!
# What events are made from

The proofs and receipts that the ledger turns into events. Each record holds the fields
that reach an event or one of its binding hashes. A record whose validity another
component decides arrives with that component's verdict, so nothing below depends on how
the verdict is reached.
-/

namespace Aegis.Replay

open Foundation

/-- A record together with the answer of its own validity check. -/
structure Checked (α : Type) where
  record : α
  valid : Bool

structure GoalIntakePacket where
  goalId : SubjectId
  rawGoalRefHash : Hash
  normalizedGoalHash : Hash
  policyWindowHash : Hash
  packetHash : Hash

structure GoalIntakeProof where
  packet : GoalIntakePacket
  initialIrCanonicalHash : Hash
  rootTaskHash : Hash
  proofHash : Hash

structure ContextPackCandidateProof where
  activeTaskId : SubjectId
  contextPackDigest : Hash
  proofHash : Hash

structure TaskSelectionProof where
  selectedTaskId : SubjectId
  readyQueueHash : Hash
  proofHash : Hash

structure BrowserWitnessProof where
  browserSessionHash : Hash
  redactionPolicyHash : Hash
  policyWindowHash : Hash
  proofHash : Hash

structure BrowserObservationPacket where
  actionId : SubjectId
  rawArtifactManifestHash : Hash
  actionTraceHash : Hash
  proof : BrowserWitnessProof
  modalityBundleHash : Hash
  collectorProvenanceHash : Hash
  packetHash : Hash

structure ProviderRouteAdmissionProof where
  requestHash : Hash
  requiredTokens : BitVec 32
  selectedProviderHash : Hash
  throttledProviderHashes : List Hash
  admittedProviderOrderingHash : Hash
  budgetLedgerHash : Hash
  routePolicyHash : Hash
  decisionHash : Hash
  proofHash : Hash

inductive ToolExecutorKind where
  | wasmtime
  | browser
  | chrome
  | computer
  | host

def ToolExecutorKind.toU8 : ToolExecutorKind → UInt8
  | wasmtime => 1
  | browser => 2
  | chrome => 3
  | computer => 4
  | host => 5

inductive ToolExecutionStatus where
  | succeeded
  | failed
  | blocked
  deriving DecidableEq

def ToolExecutionStatus.toU8 : ToolExecutionStatus → UInt8
  | succeeded => 1
  | failed => 2
  | blocked => 3

structure ToolExecutionEvidence where
  typedToolIrHash : Hash
  policyProofTraceHash : Hash
  toolOutputHash : Hash
  physicalEvidenceHash : Hash
  executorKind : ToolExecutorKind
  status : ToolExecutionStatus
  evidenceHash : Hash

structure ToolMemoryCommitProof where
  sessionId : SubjectId
  proofHash : Hash

structure ColdVectorExpansionReplayRecord where
  candidateListHash : Hash
  recordHash : Hash

structure AgenticEvidenceExecutionRecord where
  programHash : Hash
  indexEpochHash : Hash
  stepCount : BitVec 32
  fuelUsed : BitVec 32
  candidateCount : BitVec 32
  candidateListHash : Hash
  traceHash : Hash
  recordHash : Hash

structure AgenticEvidenceSdkManifest where
  programHash : Hash
  indexEpochHash : Hash
  maxFuel : BitVec 32
  stepCount : BitVec 32
  requiredPrimitiveHash : Hash
  requiresLexicalIndex : Bool
  requiresExactIndex : Bool
  requiresBitmapFilter : Bool
  lexicalIndexHash : Hash
  exactIndexHash : Hash
  bitmapFilterHash : Hash
  manifestHash : Hash

structure CandidateStateCapsule where
  capsuleId : SubjectId
  indexEpochHash : Hash
  candidateCount : BitVec 32
  candidateListHash : Hash
  coldVectorReplayRecordHash : Hash
  agenticEvidenceExecutionRecordHash : Hash
  payloadByteLen : BitVec 32
  payloadHash : Hash
  capsuleHash : Hash

structure AgenticEvidenceSdkRun where
  manifest : AgenticEvidenceSdkManifest
  executionRecord : AgenticEvidenceExecutionRecord
  capsule : CandidateStateCapsule
  runHash : Hash

structure SkillAdmissionRecord where
  packageHash : Hash
  wasmModuleHash : Hash
  wasmtimeArtifactHash : Hash
  wasmtimeAstFingerprint : BitVec 64
  fuelConsumed : BitVec 64
  regressionReportHash : Hash
  pavAcceptanceHash : Hash
  admissionHash : Hash

structure AdmittedSkillRecord where
  skillId : SubjectId
  packageHash : Hash
  admissionHash : Hash
  registryEpoch : BitVec 64
  registryCommitHash : Hash

structure BrowserOpsBenchVerificationProof where
  suiteHash : Hash
  scorecardFileHash : Hash
  verifiedTaskCount : BitVec 64
  verifiedRecordsHash : Hash
  proofHash : Hash

/-- The first half of the proof hash read as a number, with zero avoided. -/
def BrowserOpsBenchVerificationProof.replaySubjectId
    (proof : BrowserOpsBenchVerificationProof) : SubjectId :=
  let value := BitVec.ofNat 128 (ofLeBytes (proof.proofHash.bytes.take 16))
  if value = 0 then 1 else value

structure ShadowSealReceipt where
  slot : BitVec 32
  generation : BitVec 32
  byteLen : BitVec 64
  artifactHash : Hash
  sealHash : Hash

structure ShadowSealBatchReceipt where
  receiptCount : BitVec 64
  totalBytes : BitVec 64
  batchHash : Hash
  receipts : List ShadowSealReceipt

structure ContextFoldRecord where
  activeTaskId : SubjectId
  foldedNodeHash : Hash
  recordHash : Hash

structure LabEvent where
  payloadHash : Hash
  eventHash : Hash

section Binding

variable (blake3 : Hasher)

def u64PayloadHash (label : String) (value : BitVec 64) : Hash :=
  blake3 (utf8Bytes label ++ u64Bytes value)

def approvalTokenBindingHash (reviewPacketHash : Hash) (expiresAtMs : BitVec 64) : Hash :=
  blake3 (utf8Bytes "approval-token-binding-v1" ++ reviewPacketHash.bytes ++
    u64Bytes expiresAtMs)

def browserObservationPacketReplayBindingHash (packet : BrowserObservationPacket) : Hash :=
  blake3 (utf8Bytes "aegis-browser-observation-packet-replay-binding-v1" ++
    packet.packetHash.bytes ++ packet.proof.proofHash.bytes ++ packet.actionTraceHash.bytes ++
    packet.rawArtifactManifestHash.bytes ++ packet.modalityBundleHash.bytes ++
    packet.collectorProvenanceHash.bytes ++ packet.proof.browserSessionHash.bytes ++
    packet.proof.redactionPolicyHash.bytes ++ packet.proof.policyWindowHash.bytes)

def agenticEvidenceSdkRunReplayBindingHash (sdkRun : AgenticEvidenceSdkRun) : Hash :=
  let manifest := sdkRun.manifest
  let record := sdkRun.executionRecord
  let capsule := sdkRun.capsule
  blake3 (utf8Bytes "aegis-agentic-evidence-sdk-run-replay-binding-v1" ++
    sdkRun.runHash.bytes ++ manifest.manifestHash.bytes ++ manifest.programHash.bytes ++
    manifest.indexEpochHash.bytes ++ u64Bytes (manifest.maxFuel.setWidth 64) ++
    u64Bytes (manifest.stepCount.setWidth 64) ++ manifest.requiredPrimitiveHash.bytes ++
    [boolByte manifest.requiresLexicalIndex, boolByte manifest.requiresExactIndex,
      boolByte manifest.requiresBitmapFilter] ++ manifest.lexicalIndexHash.bytes ++
    manifest.exactIndexHash.bytes ++ manifest.bitmapFilterHash.bytes ++
    record.recordHash.bytes ++ record.programHash.bytes ++ record.indexEpochHash.bytes ++
    u64Bytes (record.stepCount.setWidth 64) ++ u64Bytes (record.fuelUsed.setWidth 64) ++
    u64Bytes (record.candidateCount.setWidth 64) ++ record.candidateListHash.bytes ++
    record.traceHash.bytes ++ u128Bytes capsule.capsuleId ++ capsule.indexEpochHash.bytes ++
    u64Bytes (capsule.candidateCount.setWidth 64) ++ capsule.candidateListHash.bytes ++
    capsule.coldVectorReplayRecordHash.bytes ++
    capsule.agenticEvidenceExecutionRecordHash.bytes ++
    u64Bytes (capsule.payloadByteLen.setWidth 64) ++ capsule.payloadHash.bytes ++
    capsule.capsuleHash.bytes)

def llmBudgetAdmissionReplayBindingHash (responseHash rawTextRefHash : Hash)
    (proof : ProviderRouteAdmissionProof) : Hash :=
  blake3 (utf8Bytes "aegis-llm-budget-admission-replay-binding-v1" ++ responseHash.bytes ++
    rawTextRefHash.bytes ++ proof.requestHash.bytes ++
    u64Bytes (proof.requiredTokens.setWidth 64) ++ proof.selectedProviderHash.bytes ++
    u64Bytes (BitVec.ofNat 64 proof.throttledProviderHashes.length) ++
    proof.throttledProviderHashes.flatMap Hash.bytes ++
    proof.admittedProviderOrderingHash.bytes ++ proof.budgetLedgerHash.bytes ++
    proof.routePolicyHash.bytes ++ proof.decisionHash.bytes ++ proof.proofHash.bytes)

def shadowSealReplayBindingHash (sealId : SubjectId) (batch : ShadowSealBatchReceipt) : Hash :=
  blake3 (utf8Bytes "aegis-shadow-seal-replay-binding-v1" ++ u128Bytes sealId ++
    u64Bytes batch.receiptCount ++ u64Bytes batch.totalBytes ++ batch.batchHash.bytes ++
    batch.receipts.flatMap fun receipt =>
      u32Bytes receipt.slot ++ u32Bytes receipt.generation ++ u64Bytes receipt.byteLen ++
        receipt.artifactHash.bytes ++ receipt.sealHash.bytes)

def goalIntakeReplayBindingHash (proof : GoalIntakeProof) : Hash :=
  blake3 (utf8Bytes "aegis-goal-intake-replay-binding-v1" ++ proof.packet.packetHash.bytes ++
    proof.packet.rawGoalRefHash.bytes ++ proof.packet.normalizedGoalHash.bytes ++
    proof.packet.policyWindowHash.bytes ++ proof.rootTaskHash.bytes ++
    proof.initialIrCanonicalHash.bytes ++ proof.proofHash.bytes)

def skillAdmissionReplayBindingHash (admission : SkillAdmissionRecord)
    (admitted : AdmittedSkillRecord) : Hash :=
  blake3 (utf8Bytes "aegis-skill-admission-replay-binding-v1" ++ u128Bytes admitted.skillId ++
    admission.packageHash.bytes ++ admission.wasmModuleHash.bytes ++
    admission.wasmtimeArtifactHash.bytes ++ u64Bytes admission.wasmtimeAstFingerprint ++
    u64Bytes admission.fuelConsumed ++ admission.regressionReportHash.bytes ++
    admission.pavAcceptanceHash.bytes ++ admission.admissionHash.bytes ++
    admitted.packageHash.bytes ++ admitted.admissionHash.bytes ++
    u64Bytes admitted.registryEpoch ++ admitted.registryCommitHash.bytes)

def browserOpsBenchVerificationReplayBindingHash
    (proof : BrowserOpsBenchVerificationProof) : Hash :=
  blake3 (utf8Bytes "aegis-browser-ops-bench-verification-replay-binding-v1" ++
    u128Bytes proof.replaySubjectId ++ proof.proofHash.bytes ++ proof.suiteHash.bytes ++
    proof.scorecardFileHash.bytes ++ proof.verifiedRecordsHash.bytes ++
    u64Bytes proof.verifiedTaskCount)

def toolExecutionEvidenceHash (typedToolIrHash policyProofTraceHash toolOutputHash : Hash)
    (physicalEvidenceHash : Hash) (executorKind : ToolExecutorKind)
    (status : ToolExecutionStatus) : Hash :=
  blake3 (utf8Bytes "aegis-tool-execution-evidence-v1" ++ typedToolIrHash.bytes ++
    policyProofTraceHash.bytes ++ toolOutputHash.bytes ++ physicalEvidenceHash.bytes ++
    [executorKind.toU8, status.toU8])

namespace ToolExecutionEvidence

def isValid (evidence : ToolExecutionEvidence) : Bool :=
  nonzeroHash evidence.typedToolIrHash && nonzeroHash evidence.policyProofTraceHash &&
    nonzeroHash evidence.toolOutputHash && nonzeroHash evidence.physicalEvidenceHash &&
    nonzeroHash evidence.evidenceHash &&
    evidence.evidenceHash == toolExecutionEvidenceHash blake3 evidence.typedToolIrHash
      evidence.policyProofTraceHash evidence.toolOutputHash evidence.physicalEvidenceHash
      evidence.executorKind evidence.status

def completionBindingHash (evidence : ToolExecutionEvidence) (callId : SubjectId) : Hash :=
  toolCallCompletionBindingHash blake3 callId evidence.typedToolIrHash
    evidence.policyProofTraceHash evidence.evidenceHash

end ToolExecutionEvidence

end Binding

namespace RunEvent

variable (blake3 : Hasher) (eventId : EventId) (runId : RunId)

def goalIntakeRecorded (proof : GoalIntakeProof) (previous : Hash) : RunEvent :=
  new blake3 eventId runId .goalIntakeRecorded proof.packet.goalId proof.proofHash
    (some (goalIntakeReplayBindingHash blake3 proof)) previous

def contextPackBuilt (packId : SubjectId) (tokenCount : BitVec 32) (contextPackDigest : Hash)
    (previous : Hash) : RunEvent :=
  new blake3 eventId runId .contextPackBuilt packId contextPackDigest
    (some (u64PayloadHash blake3 "context-pack-token-count" (tokenCount.setWidth 64))) previous

def llmResponseReceived (responseHash rawTextRefHash previous : Hash) : RunEvent :=
  new blake3 eventId runId .llmResponseReceived 0 responseHash (some rawTextRefHash) previous

def budgetAdmittedLlmResponseReceived (responseHash rawTextRefHash : Hash)
    (proof : ProviderRouteAdmissionProof) (previous : Hash) : RunEvent :=
  new blake3 eventId runId .llmResponseReceived (proof.requiredTokens.setWidth 128) responseHash
    (some (llmBudgetAdmissionReplayBindingHash blake3 responseHash rawTextRefHash proof)) previous

def contextPackCandidateProofRecorded (proof : ContextPackCandidateProof)
    (previous : Hash) : RunEvent :=
  new blake3 eventId runId .contextPackCandidateProofRecorded proof.activeTaskId proof.proofHash
    (some proof.contextPackDigest) previous

def taskSelectionProofRecorded (proof : TaskSelectionProof) (previous : Hash) : RunEvent :=
  new blake3 eventId runId .taskSelectionProofRecorded proof.selectedTaskId proof.proofHash
    (some proof.readyQueueHash) previous

def browserObservationPacketRecorded (packet : BrowserObservationPacket)
    (previous : Hash) : RunEvent :=
  new blake3 eventId runId .browserObservationPacketRecorded packet.actionId packet.packetHash
    (some (browserObservationPacketReplayBindingHash blake3 packet)) previous

def toolCallRequested (callId : SubjectId) (typedToolIrHash previous : Hash) : RunEvent :=
  new blake3 eventId runId .toolCallRequested callId typedToolIrHash none previous

def toolCallCompleted (callId : SubjectId) (evidence : ToolExecutionEvidence)
    (previous : Hash) : RunEvent :=
  new blake3 eventId runId .toolCallCompleted callId (evidence.completionBindingHash blake3 callId)
    (some evidence.evidenceHash) previous

def policyDecisionRecorded (policyTraceId : SubjectId)
    (policyProofTraceHash typedToolIrHash previous : Hash) : RunEvent :=
  new blake3 eventId runId .policyDecisionRecorded policyTraceId policyProofTraceHash
    (some typedToolIrHash) previous

def approvalTokenRecorded (approvalId : SubjectId) (approvalTokenHash reviewPacketHash : Hash)
    (expiresAtMs : BitVec 64) (previous : Hash) : RunEvent :=
  new blake3 eventId runId .approvalTokenRecorded approvalId approvalTokenHash
    (some (approvalTokenBindingHash blake3 reviewPacketHash expiresAtMs)) previous

def operatorReviewArtifactRecorded (artifactId : SubjectId)
    (signingTargetHash artifactHash previous : Hash) : RunEvent :=
  new blake3 eventId runId .operatorReviewArtifactRecorded artifactId signingTargetHash
    (some artifactHash) previous

def coldVectorExpansionRecorded (expansionId : SubjectId)
    (record : ColdVectorExpansionReplayRecord) (previous : Hash) : RunEvent :=
  new blake3 eventId runId .coldVectorExpansionRecorded expansionId record.recordHash
    (some record.candidateListHash) previous

def agenticEvidenceExecutionRecorded (executionId : SubjectId)
    (record : AgenticEvidenceExecutionRecord) (previous : Hash) : RunEvent :=
  new blake3 eventId runId .agenticEvidenceExecutionRecorded executionId record.recordHash
    (some record.candidateListHash) previous

def agenticEvidenceSdkRunRecorded (executionId : SubjectId) (sdkRun : AgenticEvidenceSdkRun)
    (previous : Hash) : RunEvent :=
  new blake3 eventId runId .agenticEvidenceExecutionRecorded executionId sdkRun.runHash
    (some (agenticEvidenceSdkRunReplayBindingHash blake3 sdkRun)) previous

def skillAdmissionRecorded (admission : SkillAdmissionRecord) (admitted : AdmittedSkillRecord)
    (previous : Hash) : RunEvent :=
  new blake3 eventId runId .skillAdmissionRecorded admitted.skillId admitted.registryCommitHash
    (some (skillAdmissionReplayBindingHash blake3 admission admitted)) previous

def browserOpsBenchVerificationRecorded (proof : BrowserOpsBenchVerificationProof)
    (previous : Hash) : RunEvent :=
  new blake3 eventId runId .browserOpsBenchVerificationRecorded proof.replaySubjectId
    proof.proofHash (some (browserOpsBenchVerificationReplayBindingHash blake3 proof)) previous

def clusterCandidateAccepted (workId : SubjectId)
    (workerResultHash replayBindingHash previous : Hash) : RunEvent :=
  new blake3 eventId runId .clusterCandidateAccepted workId workerResultHash
    (some replayBindingHash) previous

def shadowSealRecorded (sealId : SubjectId) (batch : ShadowSealBatchReceipt)
    (previous : Hash) : RunEvent :=
  new blake3 eventId runId .shadowSealRecorded sealId batch.batchHash
    (some (shadowSealReplayBindingHash blake3 sealId batch)) previous

def circuitBreakerTripped (requestId : SubjectId)
    (evidenceHash responseFingerprintHash previous : Hash) : RunEvent :=
  new blake3 eventId runId .circuitBreakerTripped requestId evidenceHash
    (some responseFingerprintHash) previous

def contextFoldRecorded (activeTaskId : SubjectId) (record : ContextFoldRecord)
    (previous : Hash) : RunEvent :=
  new blake3 eventId runId .contextFoldRecorded activeTaskId record.recordHash
    (some record.foldedNodeHash) previous

def memoryCommitRecorded (sessionId : SubjectId) (proof : ToolMemoryCommitProof)
    (toolExecutionEvidenceHash previous : Hash) : RunEvent :=
  new blake3 eventId runId .memoryCommitRecorded sessionId proof.proofHash
    (some (memoryCommitBindingHash blake3 sessionId toolExecutionEvidenceHash proof.proofHash))
    previous

def checkpointSealed (checkpointId : SubjectId) (checkpointHash previous : Hash) : RunEvent :=
  new blake3 eventId runId .checkpointSealed checkpointId checkpointHash none previous

def labEventRecorded (labEventHash labPayloadHash previous : Hash) : RunEvent :=
  new blake3 eventId runId .labEventRecorded (eventId.setWidth 128) labEventHash
    (some labPayloadHash) previous

end RunEvent

end Aegis.Replay
