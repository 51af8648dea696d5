import AegisCognition.Gateway.Browser
import AegisCognition.Replay.Append

/-!
# The tool execution gateway

Every call of the gateway checks its arguments, records an attempt in the run's ledger and returns
a receipt. The sandbox is a parameter: its configuration, and what it answers to a binary and a
fuel limit. A call is followed with the ledger and the executions it has asked for, so that its
outcome shows both also when it fails.
-/

namespace Aegis.Gateway

open Foundation Replay BrowserCollectorEvidenceEnvelope

inductive TrapReason where
  | emptyArtifact
  | fuelExhausted
  | invariantViolation
  | pavBelowThreshold
  | noConsensus

def trapReasonTag : TrapReason → UInt8
  | .emptyArtifact => 1
  | .fuelExhausted => 2
  | .invariantViolation => 3
  | .pavBelowThreshold => 4
  | .noConsensus => 5

structure PhysicalArtifact where
  artifactHash : Hash
  astFingerprint : BitVec 64
  fuelConsumed : BitVec 64
  bytesChanged : BitVec 64
  deriving DecidableEq

inductive SandboxBackendKind where
  | deterministic
  | wasmtime
  deriving DecidableEq

def SandboxBackendKind.toU8 : SandboxBackendKind → UInt8
  | deterministic => 0
  | wasmtime => 1

structure SandboxBackendConfig where
  backend : SandboxBackendKind
  epochInterruptionRequired : Bool
  networkIsolated : Bool
  maxMemoryPages : BitVec 32

def SandboxBackendConfig.isHardened (config : SandboxBackendConfig) : Bool :=
  config.networkIsolated && 0 < config.maxMemoryPages &&
    (config.backend == .deterministic || config.epochInterruptionRequired)

structure SandboxResult where
  artifact : PhysicalArtifact
  backend : SandboxBackendKind
  fuelConsumed : BitVec 64

def SandboxResult.isValid (result : SandboxResult) : Bool :=
  0 < result.fuelConsumed && result.artifact.fuelConsumed == result.fuelConsumed

/-- A sandbox as the gateway sees it. -/
structure WasmExecutionSandbox where
  backendConfig : SandboxBackendConfig
  executeWasmBinary : List UInt8 → BitVec 64 → Except TrapReason SandboxResult

structure ToolExecutionArtifactEvidence where
  artifactHash : Hash
  astFingerprint : BitVec 64
  fuelConsumed : BitVec 64
  bytesChanged : BitVec 64
  evidenceHash : Hash

structure ToolExecutionReceipt where
  callId : SubjectId
  typedToolIrHash : Hash
  policyProofTraceHash : Hash
  toolOutputHash : Hash
  physicalEvidenceHash : Hash
  artifactEvidence : Option ToolExecutionArtifactEvidence
  toolExecutionEvidence : ToolExecutionEvidence
  requestEventHash : Hash
  policyEventHash : Hash
  completionEventHash : Hash
  browserObservationEventHash : Option Hash

structure BrowserGatewayExecutionProof where
  packet : BrowserObservationPacket
  policyFacts : PolicyFacts
  policyTrace : PolicyProofTrace
  receipt : ToolExecutionReceipt
  browserActionPlanHash : Option Hash
  proofHash : Hash

/-- The ledger, and the executions asked of the sandbox so far. -/
structure Session where
  ledger : RunEventLedger
  executions : List (List UInt8 × BitVec 64) := []

/-- The result of a call and the session it leaves. -/
abbrev Outcome (α : Type) := Except TrapReason α × Session

def Session.trap {α : Type} (session : Session) : Outcome α :=
  (.error .invariantViolation, session)

/-- One append of a call, and the rest of the call with the event it returned. A refused append
ends the call; what the earlier ones wrote stays. -/
def Session.record {α : Type} (session : Session) (append : RunEventLedger → AppendResult)
    (next : RunEvent → Session → Outcome α) : Outcome α :=
  match append session.ledger with
  | (.error _, ledger) => { session with ledger }.trap
  | (.ok event, ledger) => next event { session with ledger }

variable {Path : Type} (host : Host Path) (blake3 : Hasher)

section Hashing

def toolPhysicalEvidenceHash (callId : SubjectId) (typedToolIrHash policyProofTraceHash : Hash)
    (toolOutputHash : Hash) (fuelConsumed : BitVec 64) (backend : SandboxBackendKind)
    (maxMemoryPages : BitVec 32) (wasmBytes : List UInt8) : Hash :=
  blake3 (utf8Bytes "aegis-tool-physical-evidence-v1" ++ u128Bytes callId ++
    typedToolIrHash.bytes ++ policyProofTraceHash.bytes ++ toolOutputHash.bytes ++
    u64Bytes fuelConsumed ++ [backend.toU8] ++ u32Bytes maxMemoryPages ++
    (blake3 wasmBytes).bytes)

def toolFailureOutputHash (trapReason : TrapReason) (wasmBytes : List UInt8)
    (fuelLimit : BitVec 64) (backend : SandboxBackendKind) (maxMemoryPages : BitVec 32) : Hash :=
  blake3 (utf8Bytes "aegis-tool-failure-output-v1" ++ [trapReasonTag trapReason] ++
    u64Bytes fuelLimit ++ [backend.toU8] ++ u32Bytes maxMemoryPages ++ (blake3 wasmBytes).bytes)

def toolExecutionArtifactEvidenceHash (artifactHash : Hash)
    (astFingerprint fuelConsumed bytesChanged : BitVec 64) : Hash :=
  blake3 (utf8Bytes "aegis-tool-execution-artifact-evidence-v1" ++ artifactHash.bytes ++
    u64Bytes astFingerprint ++ u64Bytes fuelConsumed ++ u64Bytes bytesChanged)

def browserToolPhysicalEvidenceHash (callId : SubjectId)
    (typedToolIrHash policyProofTraceHash : Hash) (packet : BrowserObservationPacket) : Hash :=
  blake3 (utf8Bytes "aegis-browser-tool-physical-evidence-v1" ++ u128Bytes callId ++
    typedToolIrHash.bytes ++ policyProofTraceHash.bytes ++ packet.packetHash.bytes ++
    packet.proof.proofHash.bytes ++ packet.actionTrace.traceHash.bytes ++
    packet.rawArtifactManifestHash.bytes ++ packet.modalityBundleHash.bytes ++
    packet.collectorProvenanceHash.bytes ++
    (browserObservationPacketReplayBindingHash blake3 packet.toReplay).bytes)

def browserGatewayExecutionProofHash (packet : BrowserObservationPacket) (facts : PolicyFacts)
    (policyTrace : PolicyProofTrace) (receipt : ToolExecutionReceipt)
    (browserActionPlanHash : Option Hash) : Hash :=
  blake3 (utf8Bytes "aegis-browser-gateway-execution-proof-v1" ++ packet.packetHash.bytes ++
    facts.factsHash.bytes ++ (policyTrace.computeHash blake3).bytes ++
    receipt.requestEventHash.bytes ++ optionalHashBytes receipt.browserObservationEventHash ++
    receipt.policyEventHash.bytes ++ receipt.completionEventHash.bytes ++
    receipt.toolExecutionEvidence.evidenceHash.bytes ++ receipt.physicalEvidenceHash.bytes ++
    optionalHashBytes browserActionPlanHash)

end Hashing

namespace ToolExecutionArtifactEvidence

def fromArtifact (artifact : PhysicalArtifact) : ToolExecutionArtifactEvidence where
  artifactHash := artifact.artifactHash
  astFingerprint := artifact.astFingerprint
  fuelConsumed := artifact.fuelConsumed
  bytesChanged := artifact.bytesChanged
  evidenceHash := toolExecutionArtifactEvidenceHash blake3 artifact.artifactHash
    artifact.astFingerprint artifact.fuelConsumed artifact.bytesChanged

def isValid (evidence : ToolExecutionArtifactEvidence) : Bool :=
  nonzeroHash evidence.artifactHash && 0 < evidence.fuelConsumed && 0 < evidence.bytesChanged &&
    evidence.evidenceHash == toolExecutionArtifactEvidenceHash blake3 evidence.artifactHash
      evidence.astFingerprint evidence.fuelConsumed evidence.bytesChanged &&
    nonzeroHash evidence.evidenceHash

end ToolExecutionArtifactEvidence

/-- The constructor of the ledger's execution evidence: its hash is computed last. -/
def toolExecutionEvidence (typedToolIrHash policyProofTraceHash toolOutputHash : Hash)
    (physicalEvidenceHash : Hash) (executorKind : ToolExecutorKind)
    (status : ToolExecutionStatus) : ToolExecutionEvidence :=
  { typedToolIrHash, policyProofTraceHash, toolOutputHash, physicalEvidenceHash, executorKind
    status
    evidenceHash := toolExecutionEvidenceHash blake3 typedToolIrHash policyProofTraceHash
      toolOutputHash physicalEvidenceHash executorKind status }

/-- The executors whose attempts include an observation packet. -/
def isBrowserExecutor : ToolExecutorKind → Bool
  | .browser | .chrome | .computer => true
  | .wasmtime | .host => false

namespace ToolExecutionReceipt

def artifactEvidenceMatchesStatus (receipt : ToolExecutionReceipt) : Bool :=
  match receipt.toolExecutionEvidence.status, receipt.artifactEvidence with
  | .succeeded, some artifactEvidence =>
    artifactEvidence.isValid blake3 && artifactEvidence.artifactHash == receipt.toolOutputHash &&
      artifactEvidence.artifactHash == receipt.toolExecutionEvidence.toolOutputHash
  | .succeeded, none => isBrowserExecutor receipt.toolExecutionEvidence.executorKind
  | .failed, none => true
  | _, _ => false

def hasValidFields (receipt : ToolExecutionReceipt) : Bool :=
  0 < receipt.callId && nonzeroHash receipt.typedToolIrHash &&
    nonzeroHash receipt.policyProofTraceHash && nonzeroHash receipt.toolOutputHash &&
    nonzeroHash receipt.physicalEvidenceHash &&
    receipt.toolExecutionEvidence.toolOutputHash == receipt.toolOutputHash &&
    receipt.toolExecutionEvidence.physicalEvidenceHash == receipt.physicalEvidenceHash &&
    receipt.artifactEvidenceMatchesStatus blake3 &&
    (receipt.toolExecutionEvidence.isValid blake3 &&
      receipt.toolExecutionEvidence.typedToolIrHash == receipt.typedToolIrHash &&
      receipt.toolExecutionEvidence.policyProofTraceHash == receipt.policyProofTraceHash) &&
    nonzeroHash receipt.requestEventHash && nonzeroHash receipt.policyEventHash &&
    nonzeroHash receipt.completionEventHash &&
    receipt.browserObservationEventHash.all nonzeroHash &&
    receipt.browserObservationEventHash.isSome ==
      isBrowserExecutor receipt.toolExecutionEvidence.executorKind

def isValidFor (receipt : ToolExecutionReceipt) (ir : TypedToolIR) (proof : PolicyProofTrace) :
    Bool :=
  ir.isValid blake3 && proof.isReplayConsistentWith blake3 ir && receipt.hasValidFields blake3 &&
    0 < receipt.callId && receipt.typedToolIrHash == ir.canonicalHash &&
    receipt.policyProofTraceHash == proof.computeHash blake3

end ToolExecutionReceipt

def BrowserGatewayExecutionProof.isValidFor (proof : BrowserGatewayExecutionProof)
    (ledgerRunId : SubjectId) (ir : TypedToolIR) (policyVersionHash : Hash)
    (expectedPolicyWindowHash expectedBrowserSessionHash : Hash)
    (expectedRedactionPolicyHash : Hash) : Bool :=
  0 < ledgerRunId && ir.isValid blake3 && nonzeroHash policyVersionHash &&
    proof.packet.runId == ledgerRunId &&
    proof.packet.isValidStagingPacketFor blake3 expectedPolicyWindowHash
      expectedBrowserSessionHash expectedRedactionPolicyHash &&
    proof.policyFacts.isValid blake3 &&
    proof.policyFacts.policyVersionHash == policyVersionHash &&
    proof.policyFacts.stagingProofRefHash == some proof.packet.packetHash &&
    proof.policyFacts.stagingEvidenceKind == some .isolatedBrowserSession &&
    proof.policyTrace.isReplayConsistentWith blake3 ir && proof.policyTrace.decision == .allow &&
    proof.policyTrace.policyVersionHash == proof.policyFacts.policyVersionHash &&
    proof.policyTrace.factsHash == proof.policyFacts.factsHash &&
    proof.receipt.isValidFor blake3 ir proof.policyTrace &&
    proof.receipt.toolOutputHash == proof.packet.packetHash &&
    proof.receipt.browserObservationEventHash.isSome &&
    proof.browserActionPlanHash.all nonzeroHash &&
    proof.proofHash == browserGatewayExecutionProofHash blake3 proof.packet proof.policyFacts
      proof.policyTrace proof.receipt proof.browserActionPlanHash &&
    nonzeroHash proof.proofHash

section Wasm

/-- What the gateway makes of the sandbox's answer: the output hash, the fuel and the backend that
the evidence names, the artifact, and the status. -/
def sandboxReport (config : SandboxBackendConfig) (wasmBytes : List UInt8)
    (fuelLimit : BitVec 64) : Except TrapReason SandboxResult →
    Hash × BitVec 64 × SandboxBackendKind × Option ToolExecutionArtifactEvidence ×
      ToolExecutionStatus
  | .ok result =>
    if result.isValid then
      (result.artifact.artifactHash, result.fuelConsumed, result.backend,
        some (ToolExecutionArtifactEvidence.fromArtifact blake3 result.artifact), .succeeded)
    else
      (toolFailureOutputHash blake3 .invariantViolation wasmBytes fuelLimit config.backend
        config.maxMemoryPages, 0, config.backend, none, .failed)
  | .error trapReason =>
    (toolFailureOutputHash blake3 trapReason wasmBytes fuelLimit config.backend
      config.maxMemoryPages, 0, config.backend, none, .failed)

def executeWasmWithReplay (session : Session) (sandbox : WasmExecutionSandbox)
    (callId policyTraceId : SubjectId) (ir : TypedToolIR) (proof : PolicyProofTrace)
    (wasmBytes : List UInt8) (fuelLimit : BitVec 64) : Outcome ToolExecutionReceipt :=
  if callId == 0 || policyTraceId == 0 || !ir.isValid blake3 ||
      !proof.isReplayConsistentWith blake3 ir || proof.decision != .allow || fuelLimit == 0 ||
      wasmBytes.isEmpty then
    session.trap
  else if !sandbox.backendConfig.isHardened then session.trap
  else
    session.record (·.appendLlmDerivedToolCallRequested blake3 callId ir.canonicalHash)
      fun requestEvent session =>
    let policyProofTraceHash := proof.computeHash blake3
    session.record (·.appendPolicyDecisionRecorded blake3 policyTraceId policyProofTraceHash
      ir.canonicalHash) fun policyEvent session =>
    let session :=
      { session with executions := session.executions ++ [(wasmBytes, fuelLimit)] }
    let (toolOutputHash, fuelConsumed, backend, artifactEvidence, status) :=
      sandboxReport blake3 sandbox.backendConfig wasmBytes fuelLimit
        (sandbox.executeWasmBinary wasmBytes fuelLimit)
    let physicalEvidenceHash := toolPhysicalEvidenceHash blake3 callId ir.canonicalHash
      policyProofTraceHash toolOutputHash fuelConsumed backend
      sandbox.backendConfig.maxMemoryPages wasmBytes
    let evidence := toolExecutionEvidence blake3 ir.canonicalHash policyProofTraceHash
      toolOutputHash physicalEvidenceHash .wasmtime status
    session.record (·.appendToolCallCompleted blake3 callId evidence)
      fun completionEvent session =>
    (.ok
      { callId, policyProofTraceHash, toolOutputHash, physicalEvidenceHash, artifactEvidence
        typedToolIrHash := ir.canonicalHash
        toolExecutionEvidence := evidence
        requestEventHash := requestEvent.eventHash
        policyEventHash := policyEvent.eventHash
        completionEventHash := completionEvent.eventHash
        browserObservationEventHash := none },
      session)

end Wasm

section Browser

def browserExecutorKind : BrowserCollectorKind → ToolExecutorKind
  | .chromeExtension => .chrome
  | .computerUse => .computer
  | .inAppBrowser | .playwrightCdp => .browser

def executeBrowserObservationWithReplay (session : Session) (callId policyTraceId : SubjectId)
    (ir : TypedToolIR) (facts : PolicyFacts) (proof : PolicyProofTrace)
    (packet : BrowserObservationPacket) : Outcome ToolExecutionReceipt :=
  if callId == 0 || policyTraceId == 0 || !ir.isValid blake3 ||
      !(ir.capability == .browser || ir.capability == .computer) ||
      !proof.isReplayConsistentWith blake3 ir || proof.decision != .allow ||
      !facts.isValid blake3 || proof.policyVersionHash != facts.policyVersionHash ||
      proof.factsHash != facts.factsHash || !facts.hasStagingEnvironment ||
      facts.stagingProofRefHash != some packet.packetHash ||
      facts.stagingEvidenceKind != some .isolatedBrowserSession || !packet.isValid blake3 ||
      packet.runId != session.ledger.runId || packet.actionId != callId ||
      packet.proof.sideEffectClass != ir.sideEffect then
    session.trap
  else
    session.record (·.appendLlmDerivedToolCallRequested blake3 callId ir.canonicalHash)
      fun requestEvent session =>
    session.record (·.appendBrowserObservationPacketRecorded blake3
      { record := packet.toReplay, valid := packet.isValid blake3 }) fun packetEvent session =>
    let policyProofTraceHash := proof.computeHash blake3
    session.record (·.appendPolicyDecisionRecordedAfterBrowserObservation blake3 policyTraceId
      policyProofTraceHash ir.canonicalHash packet.packetHash) fun policyEvent session =>
    let toolOutputHash := packet.packetHash
    let physicalEvidenceHash := browserToolPhysicalEvidenceHash blake3 callId ir.canonicalHash
      policyProofTraceHash packet
    let evidence := toolExecutionEvidence blake3 ir.canonicalHash policyProofTraceHash
      toolOutputHash physicalEvidenceHash (browserExecutorKind packet.collectorKind) .succeeded
    session.record (·.appendToolCallCompleted blake3 callId evidence)
      fun completionEvent session =>
    if packetEvent.primaryHash != packet.packetHash then session.trap
    else
      (.ok
        { callId, policyProofTraceHash, toolOutputHash, physicalEvidenceHash
          typedToolIrHash := ir.canonicalHash
          artifactEvidence := none
          toolExecutionEvidence := evidence
          requestEventHash := requestEvent.eventHash
          policyEventHash := policyEvent.eventHash
          completionEventHash := completionEvent.eventHash
          browserObservationEventHash := some packetEvent.eventHash },
        session)

section

variable (session : Session) (policyTraceId : SubjectId) (ir : TypedToolIR)

/-- The end that the envelope call and the two plan calls share: the facts that the packet stands
for, the kernel's decision on them, the recorded attempt, and the proof assembled from it. -/
def executeBrowserPacketWithReplay (packet : BrowserObservationPacket) (policyVersionHash : Hash)
    (hasValidApproval : Bool) (policyWindowHash browserSessionHash redactionPolicyHash : Hash)
    (browserActionPlanHash : Option Hash) : Outcome BrowserGatewayExecutionProof :=
  match packet.isolatedBrowserPolicyFacts blake3 policyVersionHash hasValidApproval
      policyWindowHash browserSessionHash redactionPolicyHash with
  | none => session.trap
  | some policyFacts =>
    let policyTrace := evaluate blake3 ir policyFacts
    match executeBrowserObservationWithReplay blake3 session packet.actionId policyTraceId ir
        policyFacts policyTrace packet with
    | (.error reason, session) => (.error reason, session)
    | (.ok receipt, session) =>
      let proof : BrowserGatewayExecutionProof :=
        { packet, policyFacts, policyTrace, receipt, browserActionPlanHash
          proofHash := browserGatewayExecutionProofHash blake3 packet policyFacts policyTrace
            receipt browserActionPlanHash }
      if !proof.isValidFor blake3 session.ledger.runId ir policyVersionHash policyWindowHash
          browserSessionHash redactionPolicyHash then
        session.trap
      else (.ok proof, session)

def executeBrowserEnvelopeWithReplay (envelope : BrowserCollectorEvidenceEnvelope)
    (actionTrace : BrowserActionTrace) (sideEffectClass : SideEffectClass)
    (policyVersionHash : Hash) (hasValidApproval : Bool) :
    Outcome BrowserGatewayExecutionProof :=
  if !envelope.isValid blake3 || envelope.runId != session.ledger.runId ||
      envelope.actionId == 0 || sideEffectClass != ir.sideEffect ||
      !nonzeroHash policyVersionHash then
    session.trap
  else
    match envelope.toObservationPacket blake3 actionTrace sideEffectClass with
    | none => session.trap
    | some packet =>
      executeBrowserPacketWithReplay blake3 session policyTraceId ir packet policyVersionHash
        hasValidApproval envelope.policyWindowHash envelope.browserSessionHash
        envelope.redactionPolicyHash none

def executeBrowserFilePathRefsWithReplay (collectorKind : BrowserCollectorKind)
    (actionTrace : BrowserActionTrace) (sequenceNumber observedAtUnixMs : BitVec 64)
    (collectorConfigHash collectorCapabilityHash : Hash)
    (browserSessionHash redactionPolicyHash : Hash)
    (artifactPathRefs : List (BrowserArtifactFilePathRef Path)) (policyVersionHash : Hash)
    (hasValidApproval : Bool) : Outcome BrowserGatewayExecutionProof :=
  match fromFilePathRefs host blake3
      { collectorKind, sequenceNumber, observedAtUnixMs, collectorConfigHash
        collectorCapabilityHash, browserSessionHash, redactionPolicyHash
        runId := session.ledger.runId
        actionId := actionTrace.actionId
        policyWindowHash := actionTrace.policyWindowHash }
      artifactPathRefs with
  | .error _ => session.trap
  | .ok envelope =>
    executeBrowserEnvelopeWithReplay blake3 session policyTraceId ir envelope actionTrace
      ir.sideEffect policyVersionHash hasValidApproval

def executeBrowserLiveManifestWithReplay (manifest : BrowserLiveCollectorManifest Path)
    (actionTrace : BrowserActionTrace) (policyVersionHash : Hash) (hasValidApproval : Bool) :
    Outcome BrowserGatewayExecutionProof :=
  if !manifest.bindsActionTrace host blake3 actionTrace ||
      manifest.runId != session.ledger.runId then
    session.trap
  else
    match manifest.toEnvelope host blake3 with
    | .error _ => session.trap
    | .ok envelope =>
      executeBrowserEnvelopeWithReplay blake3 session policyTraceId ir envelope actionTrace
        ir.sideEffect policyVersionHash hasValidApproval

/-- The part that the two plan calls share once the envelope is read. -/
def executeBrowserPlanEnvelopeWithReplay (envelope : BrowserCollectorEvidenceEnvelope)
    (actionTrace : BrowserActionTrace) (plan : BrowserActionPlanRecord)
    (policyVersionHash : Hash) (hasValidApproval : Bool) :
    Outcome BrowserGatewayExecutionProof :=
  match envelope.toObservationPacket blake3 actionTrace ir.sideEffect with
  | none => session.trap
  | some packet =>
    if !plan.isValidForPacket blake3 ir.canonicalHash packet then session.trap
    else
      executeBrowserPacketWithReplay blake3 session policyTraceId ir packet policyVersionHash
        hasValidApproval plan.policyWindowHash plan.browserSessionHash plan.redactionPolicyHash
        (some plan.planHash)

def executeBrowserActionPlanFilePathRefsWithReplay (collectorKind : BrowserCollectorKind)
    (plan : BrowserActionPlanRecord) (observedAtUnixMs : BitVec 64)
    (collectorConfigHash collectorCapabilityHash : Hash)
    (artifactPathRefs : List (BrowserArtifactFilePathRef Path)) (policyVersionHash : Hash)
    (hasValidApproval : Bool) : Outcome BrowserGatewayExecutionProof :=
  match plan.toActionTrace blake3 with
  | none => session.trap
  | some actionTrace =>
    if plan.runId != session.ledger.runId || plan.typedToolIrHash != ir.canonicalHash ||
        plan.sequenceNumber == 0 || !nonzeroHash plan.planHash then
      session.trap
    else
      match fromFilePathRefs host blake3
          { collectorKind, observedAtUnixMs, collectorConfigHash, collectorCapabilityHash
            runId := session.ledger.runId
            actionId := plan.actionId
            sequenceNumber := plan.sequenceNumber
            browserSessionHash := plan.browserSessionHash
            redactionPolicyHash := plan.redactionPolicyHash
            policyWindowHash := plan.policyWindowHash }
          artifactPathRefs with
      | .error _ => session.trap
      | .ok envelope =>
        executeBrowserPlanEnvelopeWithReplay blake3 session policyTraceId ir envelope actionTrace
          plan policyVersionHash hasValidApproval

def executeBrowserActionPlanLiveManifestWithReplay (manifest : BrowserLiveCollectorManifest Path)
    (plan : BrowserActionPlanRecord)
    (policyVersionHash : Hash) (hasValidApproval : Bool) :
    Outcome BrowserGatewayExecutionProof :=
  match plan.toActionTrace blake3 with
  | none => session.trap
  | some actionTrace =>
    if !manifest.bindsPlan host blake3 plan || manifest.runId != session.ledger.runId ||
        plan.typedToolIrHash != ir.canonicalHash || !nonzeroHash policyVersionHash then
      session.trap
    else
      match manifest.toEnvelope host blake3 with
      | .error _ => session.trap
      | .ok envelope =>
        executeBrowserPlanEnvelopeWithReplay blake3 session policyTraceId ir envelope actionTrace
          plan policyVersionHash hasValidApproval

end

end Browser

def replayEventsAreBound (receipt : ToolExecutionReceipt) (events : List RunEvent) : Bool :=
  events.any (·.eventHash == receipt.requestEventHash) &&
    events.any (·.eventHash == receipt.policyEventHash) &&
    events.any (·.eventHash == receipt.completionEventHash) &&
    receipt.browserObservationEventHash.all fun hash => events.any (·.eventHash == hash)

end Aegis.Gateway
