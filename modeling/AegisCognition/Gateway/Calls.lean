import AegisCognition.Gateway.AllOrNothing

/-!
# Runs of appends and gateway calls

The calls that start from browser evidence reduce to an observation call, and the proof they
assemble from its receipt passes the check they end with. With them every call of the gateway is
covered, on every ledger that appends and gateway calls can reach.
-/

namespace Aegis.Gateway

open Foundation Replay
open BrowserCollectorEvidenceEnvelope BrowserGatewayExecutionProof Hash

inductive GatewayCall (Path : Type) where
  | wasm (sandbox : WasmExecutionSandbox) (callId policyTraceId : SubjectId) (ir : TypedToolIR)
      (proof : PolicyProofTrace) (wasmBytes : List UInt8) (fuelLimit : BitVec 64)
  | browserObservation (callId policyTraceId : SubjectId) (ir : TypedToolIR)
      (facts : PolicyFacts) (proof : PolicyProofTrace) (packet : BrowserObservationPacket)
  | browserEnvelope (policyTraceId : SubjectId) (ir : TypedToolIR)
      (envelope : BrowserCollectorEvidenceEnvelope) (actionTrace : BrowserActionTrace)
      (sideEffectClass : SideEffectClass) (policyVersionHash : Hash) (hasValidApproval : Bool)
  | browserFilePathRefs (policyTraceId : SubjectId) (ir : TypedToolIR)
      (collectorKind : BrowserCollectorKind) (actionTrace : BrowserActionTrace)
      (sequenceNumber observedAtUnixMs : BitVec 64)
      (collectorConfigHash collectorCapabilityHash : Hash)
      (browserSessionHash redactionPolicyHash : Hash)
      (artifactPathRefs : List (BrowserArtifactFilePathRef Path)) (policyVersionHash : Hash)
      (hasValidApproval : Bool)
  | browserLiveManifest (policyTraceId : SubjectId) (ir : TypedToolIR)
      (manifest : BrowserLiveCollectorManifest Path) (actionTrace : BrowserActionTrace)
      (policyVersionHash : Hash) (hasValidApproval : Bool)
  | browserActionPlanFilePathRefs (policyTraceId : SubjectId) (ir : TypedToolIR)
      (collectorKind : BrowserCollectorKind) (plan : BrowserActionPlanRecord)
      (observedAtUnixMs : BitVec 64) (collectorConfigHash collectorCapabilityHash : Hash)
      (artifactPathRefs : List (BrowserArtifactFilePathRef Path)) (policyVersionHash : Hash)
      (hasValidApproval : Bool)
  | browserActionPlanLiveManifest (policyTraceId : SubjectId) (ir : TypedToolIR)
      (manifest : BrowserLiveCollectorManifest Path) (plan : BrowserActionPlanRecord)
      (policyVersionHash : Hash) (hasValidApproval : Bool)

section Browser

variable {blake3 : Hasher} {session : Session} {policyTraceId : SubjectId} {ir : TypedToolIR}

theorem BrowserGatewayExecutionProof.isValidFor_of_attempted (digests : NonzeroDigests blake3)
    {runId : RunId} {callId : SubjectId} {facts : PolicyFacts} {trace : PolicyProofTrace}
    {packet : BrowserObservationPacket} {receipt : ToolExecutionReceipt} {planHash : Option Hash}
    {version window browserSession redaction : Hash}
    (checked : ObservationChecked blake3 runId callId policyTraceId ir facts trace packet)
    (run : runId ≠ 0) (versionOk : nonzeroHash version)
    (versionOf : facts.policyVersionHash = version)
    (staging : packet.isValidStagingPacketFor blake3 window browserSession redaction)
    (valid : receipt.isValidFor blake3 ir trace)
    (output : receipt.toolOutputHash = packet.packetHash)
    (observed : receipt.browserObservationEventHash.isSome)
    (plan : planHash.all nonzeroHash) :
    isValidFor blake3
      { packet, receipt
        policyFacts := facts
        policyTrace := trace
        browserActionPlanHash := planHash
        proofHash := browserGatewayExecutionProofHash blake3 packet facts trace receipt planHash }
      runId ir version window browserSession redaction := by
  have named : 0 < runId := BitVec.pos_iff_ne_zero runId |>.mpr run
  have sealed : nonzeroHash
      (browserGatewayExecutionProofHash blake3 packet facts trace receipt planHash) := digests _
  simp only [isValidFor, named, checked.irValid, versionOk, checked.run, staging,
    checked.factsValid, versionOf, checked.stagingProof, checked.stagingKind, checked.consistent,
    checked.allowed, checked.version, checked.factsBound, valid, output, observed, plan, sealed,
    beq_self_eq_true, decide_true, Bool.and_self]

variable {packet : BrowserObservationPacket} {version window browserSession redaction : Hash}
  {approval : Bool} {planHash : Option Hash}

theorem packet_allOrNothing (digests : NonzeroDigests blake3) (room : HasRoom session.ledger)
    (plan : planHash.all nonzeroHash) :
    AllOrNothing blake3 ⟨packet.actionId, policyTraceId, ir, true⟩ session
      ((executeBrowserPacketWithReplay blake3 session policyTraceId ir packet version approval
        window browserSession redaction planHash).map
          (Except.map fun proof => (proof.receipt, proof.policyTrace)) id) := by
  unfold executeBrowserPacketWithReplay BrowserObservationPacket.isolatedBrowserPolicyFacts
  by_cases staging : nonzeroHash version &&
      packet.isValidStagingPacketFor blake3 window browserSession redaction
  swap
  · simp only [staging, Bool.false_eq_true, if_false]
    rfl
  simp only [staging, if_true]
  obtain ⟨versionOk, staging⟩ := Bool.and_eq_true_iff.mp staging
  obtain trapped | ⟨checked, run, receipt, after, returned, sameRun, output, observed, attempted⟩ :=
    @executeBrowserObservation_cases blake3 session packet.actionId policyTraceId ir
      (PolicyFacts.withStagingEvidence blake3 version approval packet.packetHash
        .isolatedBrowserSession)
      (evaluate blake3 ir (PolicyFacts.withStagingEvidence blake3 version approval
        packet.packetHash .isolatedBrowserSession)) packet digests room
  · rw [trapped]
    rfl
  · have proofOk := isValidFor_of_attempted digests checked run
      versionOk rfl staging attempted.isValidFor output observed plan
    simp only [returned, sameRun, proofOk, Bool.not_true, Bool.false_eq_true, if_false]
    exact attempted

variable {envelope : BrowserCollectorEvidenceEnvelope} {actionTrace : BrowserActionTrace}
  {sideEffectClass : SideEffectClass} {plan : BrowserActionPlanRecord}

theorem BrowserCollectorEvidenceEnvelope.toObservationPacket_actionId
    (made : envelope.toObservationPacket blake3 actionTrace sideEffectClass = some packet) :
    packet.actionId = envelope.actionId := by
  unfold toObservationPacket at made
  split at made
  · cases made
  · simp only [Option.bind_eq_bind, Option.bind_eq_some_iff] at made
    obtain ⟨_, -, _, -, _, -, _, -, _, -, _, -, _, -, _, -, made⟩ := made
    split at made
    · cases made
      rfl
    · cases made

theorem envelope_allOrNothing (digests : NonzeroDigests blake3) (room : HasRoom session.ledger)
    {callId : SubjectId} (action : envelope.actionId = callId) :
    AllOrNothing blake3 ⟨callId, policyTraceId, ir, true⟩ session
      ((executeBrowserEnvelopeWithReplay blake3 session policyTraceId ir envelope actionTrace
        sideEffectClass version approval).map
          (Except.map fun proof => (proof.receipt, proof.policyTrace)) id) := by
  unfold executeBrowserEnvelopeWithReplay
  split
  · rfl
  · cases made : envelope.toObservationPacket blake3 actionTrace sideEffectClass with
    | none => rfl
    | some packet =>
      rw [← action, ← toObservationPacket_actionId made]
      exact packet_allOrNothing digests room rfl

theorem BrowserActionPlanRecord.of_isValidForPacket {irHash : Hash}
    (bound : plan.isValidForPacket blake3 irHash packet) :
    plan.actionId = packet.actionId ∧ nonzeroHash plan.planHash := by
  unfold isValidForPacket toActionTrace at bound
  by_cases valid : plan.isValid blake3
  · simp only [valid, if_true, Bool.and_eq_true, beq_iff_eq] at bound
    simp only [isValid, Bool.and_eq_true] at valid
    exact ⟨bound.1.1.1.1.1.1.2, valid.2⟩
  · simp [valid] at bound

theorem plan_allOrNothing (digests : NonzeroDigests blake3) (room : HasRoom session.ledger) :
    AllOrNothing blake3 ⟨plan.actionId, policyTraceId, ir, true⟩ session
      ((executeBrowserPlanEnvelopeWithReplay blake3 session policyTraceId ir envelope actionTrace
        plan version approval).map
          (Except.map fun proof => (proof.receipt, proof.policyTrace)) id) := by
  unfold executeBrowserPlanEnvelopeWithReplay
  cases made : envelope.toObservationPacket blake3 actionTrace ir.sideEffect with
  | none => rfl
  | some packet =>
    by_cases bound : plan.isValidForPacket blake3 ir.canonicalHash packet
    · obtain ⟨action, planOk⟩ := BrowserActionPlanRecord.of_isValidForPacket bound
      simp only [bound, Bool.not_true, Bool.false_eq_true, if_false]
      rw [action]
      exact packet_allOrNothing digests room planOk
    · simp only [bound, Bool.not_false, if_true]
      rfl

variable {Path : Type} {host : Host Path} {collection : BrowserCollection}
  {pathRefs : List (BrowserArtifactFilePathRef Path)}

theorem BrowserCollectorEvidenceEnvelope.fromFilePathRefs_actionId
    (read : fromFilePathRefs host blake3 collection pathRefs = .ok envelope) :
    envelope.actionId = collection.actionId := by
  simp only [fromFilePathRefs, bind_eq_ok_iff] at read
  obtain ⟨artifacts, -, made⟩ := read
  cases made
  rfl

theorem BrowserLiveCollectorManifest.toEnvelope_actionId
    {manifest : BrowserLiveCollectorManifest Path}
    (read : manifest.toEnvelope host blake3 = .ok envelope) :
    envelope.actionId = manifest.actionId := by
  unfold toEnvelope at read
  split at read
  · cases read
  · exact fromFilePathRefs_actionId read

end Browser

namespace GatewayCall

variable {Path : Type}

/-- What the attempt of a call is about. -/
def subject : GatewayCall Path → AttemptSubject
  | wasm _ callId policyTraceId ir _ _ _ => ⟨callId, policyTraceId, ir, false⟩
  | browserObservation callId policyTraceId ir _ _ _ => ⟨callId, policyTraceId, ir, true⟩
  | browserEnvelope policyTraceId ir envelope _ _ _ _ =>
    ⟨envelope.actionId, policyTraceId, ir, true⟩
  | browserFilePathRefs policyTraceId ir _ actionTrace _ _ _ _ _ _ _ _ _ =>
    ⟨actionTrace.actionId, policyTraceId, ir, true⟩
  | browserLiveManifest policyTraceId ir manifest _ _ _ =>
    ⟨manifest.actionId, policyTraceId, ir, true⟩
  | browserActionPlanFilePathRefs policyTraceId ir _ plan _ _ _ _ _ _ =>
    ⟨plan.actionId, policyTraceId, ir, true⟩
  | browserActionPlanLiveManifest policyTraceId ir _ plan _ _ =>
    ⟨plan.actionId, policyTraceId, ir, true⟩

/-- The call's outcome: the receipt, and the trace that it was given or that the kernel made. -/
def perform (host : Host Path) (blake3 : Hasher) (session : Session) :
    GatewayCall Path → Outcome (ToolExecutionReceipt × PolicyProofTrace)
  | wasm sandbox callId policyTraceId ir proof wasmBytes fuelLimit =>
    (executeWasmWithReplay blake3 session sandbox callId policyTraceId ir proof wasmBytes
      fuelLimit).map (Except.map (·, proof)) id
  | browserObservation callId policyTraceId ir facts proof packet =>
    (executeBrowserObservationWithReplay blake3 session callId policyTraceId ir facts proof
      packet).map (Except.map (·, proof)) id
  | browserEnvelope policyTraceId ir envelope actionTrace sideEffectClass policyVersionHash
      hasValidApproval =>
    (executeBrowserEnvelopeWithReplay blake3 session policyTraceId ir envelope actionTrace
      sideEffectClass policyVersionHash hasValidApproval).map
        (Except.map fun proof => (proof.receipt, proof.policyTrace)) id
  | browserFilePathRefs policyTraceId ir collectorKind actionTrace sequenceNumber
      observedAtUnixMs collectorConfigHash collectorCapabilityHash browserSessionHash
      redactionPolicyHash artifactPathRefs policyVersionHash hasValidApproval =>
    (executeBrowserFilePathRefsWithReplay host blake3 session policyTraceId ir collectorKind
      actionTrace sequenceNumber observedAtUnixMs collectorConfigHash collectorCapabilityHash
      browserSessionHash redactionPolicyHash artifactPathRefs policyVersionHash
      hasValidApproval).map (Except.map fun proof => (proof.receipt, proof.policyTrace)) id
  | browserLiveManifest policyTraceId ir manifest actionTrace policyVersionHash
      hasValidApproval =>
    (executeBrowserLiveManifestWithReplay host blake3 session policyTraceId ir manifest
      actionTrace policyVersionHash hasValidApproval).map
        (Except.map fun proof => (proof.receipt, proof.policyTrace)) id
  | browserActionPlanFilePathRefs policyTraceId ir collectorKind plan observedAtUnixMs
      collectorConfigHash collectorCapabilityHash artifactPathRefs policyVersionHash
      hasValidApproval =>
    (executeBrowserActionPlanFilePathRefsWithReplay host blake3 session policyTraceId ir
      collectorKind plan observedAtUnixMs collectorConfigHash collectorCapabilityHash
      artifactPathRefs policyVersionHash hasValidApproval).map
        (Except.map fun proof => (proof.receipt, proof.policyTrace)) id
  | browserActionPlanLiveManifest policyTraceId ir manifest plan policyVersionHash
      hasValidApproval =>
    (executeBrowserActionPlanLiveManifestWithReplay host blake3 session policyTraceId ir manifest
      plan policyVersionHash hasValidApproval).map
        (Except.map fun proof => (proof.receipt, proof.policyTrace)) id

/-- A sandbox that is reached gives no answer that passes its validity check and yet names the
zero artifact or no changed byte. -/
def SandboxSound (blake3 : Hasher) (ledger : RunEventLedger) : GatewayCall Path → Prop
  | wasm sandbox callId policyTraceId ir proof wasmBytes fuelLimit =>
    WasmCallChecked blake3 sandbox callId policyTraceId ir proof wasmBytes fuelLimit →
      TakesRequest ledger → ReportsChange (sandbox.executeWasmBinary wasmBytes fuelLimit)
  | _ => True

variable {blake3 : Hasher} {host : Host Path} {session : Session}

/-- On every ledger with room for the attempt, a call is all or nothing exactly when the sandbox
that it reaches is sound. -/
theorem perform_allOrNothing_iff (digests : NonzeroDigests blake3)
    (room : HasRoom session.ledger) (call : GatewayCall Path) :
    AllOrNothing blake3 call.subject session (call.perform host blake3 session) ↔
      call.SandboxSound blake3 session.ledger := by
  cases call with
  | wasm => exact wasm_allOrNothing_iff digests room
  | browserObservation => exact iff_of_true (observation_allOrNothing digests room) trivial
  | browserEnvelope => exact iff_of_true (envelope_allOrNothing digests room rfl) trivial
  -- the others first read an envelope, and end before the ledger where they cannot
  | browserFilePathRefs =>
    refine iff_of_true ?_ trivial
    rw [perform]
    unfold executeBrowserFilePathRefsWithReplay
    split
    · rfl
    · rename_i envelope read
      exact envelope_allOrNothing digests room (fromFilePathRefs_actionId read)
  | browserLiveManifest =>
    refine iff_of_true ?_ trivial
    rw [perform]
    unfold executeBrowserLiveManifestWithReplay
    split
    · rfl
    · split
      · rfl
      · rename_i envelope read
        exact envelope_allOrNothing digests room
          (BrowserLiveCollectorManifest.toEnvelope_actionId read)
  | browserActionPlanFilePathRefs _ _ _ plan =>
    refine iff_of_true ?_ trivial
    rw [perform]
    unfold executeBrowserActionPlanFilePathRefsWithReplay
    cases plan.toActionTrace blake3 with
    | none => rfl
    | some actionTrace =>
      dsimp only
      split
      · rfl
      · split
        · rfl
        · exact plan_allOrNothing digests room
  | browserActionPlanLiveManifest _ _ _ plan =>
    refine iff_of_true ?_ trivial
    rw [perform]
    unfold executeBrowserActionPlanLiveManifestWithReplay
    cases plan.toActionTrace blake3 with
    | none => rfl
    | some actionTrace =>
      dsimp only
      split
      · rfl
      · split
        · rfl
        · exact plan_allOrNothing digests room

end GatewayCall

/-- What can happen to a ledger. The files may differ from one gateway call to the next. -/
inductive LedgerOperation (Path : Type) where
  | append (call : AppendCall)
  | gateway (host : Host Path) (call : GatewayCall Path)

/-- The ledger after an operation, whether it succeeded or not. -/
def LedgerOperation.step {Path : Type} (blake3 : Hasher) (ledger : RunEventLedger) :
    LedgerOperation Path → RunEventLedger
  | append call => ledger.step blake3 call
  | gateway host call => (call.perform host blake3 { ledger }).2.ledger

/-- The ledger that a history of operations reaches from the new one. -/
def reachedLedger {Path : Type} (blake3 : Hasher) (runId : RunId)
    (history : List (LedgerOperation Path)) : RunEventLedger :=
  run (LedgerOperation.step blake3) (RunEventLedger.new runId) history

section Sample

/-- BLAKE3 on the inputs of the sample run. -/
def sampleTable : List (List UInt8 × Hash) :=
  let intakeBinding :=
    ofNat 0xe0732a52449ab8729e93af9c9842aaa4f1fb620f050f03e0e952af0dabbbdaf7
  let tokenCount := ofNat 0xda747a91eb923c80b14494114e4d6896f9b4104972f744d245a06950526c8ad8
  let event₁ := ofNat 0xec206c9f3ea45076633bcc33f1c56133ecc4eae3b5465807690c136b02a065d7
  let event₂ := ofNat 0xc09f451af5f48d79944e918e6cc8cdfa20a51f675284cf6fa1789517fe10cdff
  let event₃ := ofNat 0x9909e2048f48ca0cbb862dd74ec16694ea148586f46b93f17cb8912b5659a448
  let event₄ := ofNat 0x95df623632654b2ced3bc3a8e834dad5be1e129fbfb79ebf9889fb4356f8905
  let event₅ := ofNat 0x77e59f81d988399de690e5032dcb5fb5ea300ce3d584269dea7b998334133ad8
  let ir := ofNat 0xee05f7a22a8cb5cf305c6b0169bcf5787ce48470cdda762adc9f0cc73ce0145f
  let trace := ofNat 0x6fb27485ea0478f69829f83cbb714bbb793adfa350c935d30af097347835b20a
  let wasm := ofNat 0x3ac07da580b189a0050c19ec3556c607399a4c97fd6e035221b9305be86e3e00
  let physical := ofNat 0xb49237d5887a9aa8c08ac93f78e164019eb85202626ec46e4eba52d6eb32e8b9
  let evidence := ofNat 0x57beadd1e451d1b9bb10b22788788e4a2533758480a996d87673a7110453c5f9
  let completion :=
    ofNat 0x423a93e62fc4fb2005b3198ea2483e7e3ae359b5168190440521d01346fe105d
  [(utf8Bytes "aegis-goal-intake-replay-binding-v1" ++ (Hash.fill 14).bytes ++
      (Hash.fill 11).bytes ++ (Hash.fill 12).bytes ++ (Hash.fill 13).bytes ++
      (Hash.fill 16).bytes ++ (Hash.fill 15).bytes ++ (Hash.fill 17).bytes, intakeBinding),
    (runEventPreimage 1 7 .goalIntakeRecorded 11 (.fill 17) (some intakeBinding) .zero, event₁),
    (utf8Bytes "context-pack-token-count" ++ u64Bytes 1, tokenCount),
    (runEventPreimage 2 7 .contextPackBuilt 12 (.fill 18) (some tokenCount) event₁, event₂),
    (runEventPreimage 3 7 .llmResponseReceived 0 (.fill 19) (some (.fill 20)) event₂, event₃),
    (u128Bytes 1 ++ u128Bytes 2 ++ [0, 0] ++ (Hash.fill 1).bytes ++ [0] ++
      (Hash.fill 2).bytes ++ (Hash.fill 3).bytes ++ [1, 0, 0, 0, 0], ir),
    (utf8Bytes "policy-proof-trace-v1" ++ (Hash.fill 4).bytes ++ ir.bytes ++
      (Hash.fill 5).bytes ++ [0] ++ u64Bytes 1 ++ u128Bytes 6 ++ [0], trace),
    (runEventPreimage 4 7 .toolCallRequested 21 ir none event₃, event₄),
    (runEventPreimage 5 7 .policyDecisionRecorded 22 trace (some ir) event₄, event₅),
    ([0, 0x61, 0x73, 0x6d], wasm),
    (utf8Bytes "aegis-tool-physical-evidence-v1" ++ u128Bytes 21 ++ ir.bytes ++ trace.bytes ++
      (Hash.fill 6).bytes ++ u64Bytes 5 ++ [0] ++ u32Bytes 1 ++ wasm.bytes, physical),
    (utf8Bytes "aegis-tool-execution-artifact-evidence-v1" ++ (Hash.fill 6).bytes ++
      u64Bytes 1 ++ u64Bytes 5 ++ u64Bytes 4,
      .ofNat 0xa62f488525a9db8317ac75f1ae2d9f4ed0d14830977a3b4dfb62b8cd36550015),
    (utf8Bytes "aegis-tool-execution-evidence-v1" ++ ir.bytes ++ trace.bytes ++
      (Hash.fill 6).bytes ++ physical.bytes ++ [1, 1], evidence),
    (toolCallCompletionPreimage 21 ir trace evidence, completion),
    (runEventPreimage 6 7 .toolCallCompleted 21 completion (some evidence) event₅,
      .ofNat 0x36fc554bada0b01777aab298380c307d9832e82d76790e6885da0efae9fd257d)]

/-- The sample digests, and elsewhere a digest that is not zero. -/
def sampleHasher : Hasher := fun input =>
  (sampleTable.lookup input).getD (.fill 1)

theorem sampleHasher_nonzero : NonzeroDigests sampleHasher := by
  have entries : ∀ entry ∈ sampleTable, nonzeroHash entry.2 := by decide +kernel
  intro input
  unfold sampleHasher
  cases found : sampleTable.lookup input with
  | none => rfl
  | some hash =>
    obtain ⟨before, after, split, -⟩ := List.lookup_eq_some_iff.mp found
    exact entries (input, hash) (by simp [split])

/-- A run that is ready for a tool call: a goal intake, a context pack and a model response. -/
def sampleHistory : List (LedgerOperation String) :=
  [.append (.goalIntakeRecorded
      { record :=
          { packet := ⟨11, .fill 11, .fill 12, .fill 13, .fill 14⟩
            initialIrCanonicalHash := .fill 15
            rootTaskHash := .fill 16
            proofHash := .fill 17 }
        valid := true }),
    .append (.contextPackBuilt 12 1 (.fill 18)),
    .append (.llmResponseReceived (.fill 19) (.fill 20))]

def sampleIr : TypedToolIR where
  schemaVersion := 1
  toolId := 1
  operationId := 2
  capability := .localRead
  sideEffect := .none
  credentialScopeHash := .fill 1
  riskClass := .r0
  preconditionHash := .fill 2
  effectHash := .fill 3
  evidenceContract := ⟨true, false, false, none⟩
  approvalScopeHash := none
  canonicalHash := .ofNat 0xee05f7a22a8cb5cf305c6b0169bcf5787ce48470cdda762adc9f0cc73ce0145f

/-- A sandbox that always answers with the given artifact hash, five units of fuel and four
changed bytes. -/
def sampleSandbox (artifactHash : Hash) : WasmExecutionSandbox where
  backendConfig := ⟨.deterministic, false, true, 1⟩
  executeWasmBinary _ _ := .ok ⟨⟨artifactHash, 1, 5, 4⟩, .deterministic, 5⟩

def sampleCall (artifactHash : Hash) : GatewayCall String :=
  .wasm (sampleSandbox artifactHash) 21 22 sampleIr
    { policyVersionHash := .fill 4
      inputIrHash := sampleIr.canonicalHash
      factsHash := .fill 5
      decision := .allow
      matchedRuleIds := [6]
      counterexampleRefHash := none }
    [0, 0x61, 0x73, 0x6d] 100

def sampleHost : Host String where
  isEmpty := String.isEmpty
  toStringLossy := id
  windows := false
  openFile _ := none

theorem sampleHistory_hasRoom : HasRoom (reachedLedger sampleHasher 7 sampleHistory) := by
  unfold HasRoom
  decide +kernel

theorem sampleHistory_takesRequest : TakesRequest (reachedLedger sampleHasher 7 sampleHistory) :=
  ⟨by decide +kernel, by decide +kernel, by decide +kernel, by decide +kernel⟩

theorem sampleCall_sound {artifactHash : Hash} (named : nonzeroHash artifactHash)
    (ledger : RunEventLedger) : (sampleCall artifactHash).SandboxSound sampleHasher ledger :=
  fun _ _ _ => ⟨named, (by decide : (0 : BitVec 64) < 4)⟩

/-- The zero artifact makes the same call neither all nor nothing. -/
theorem sampleCall_zero_open {ledger : RunEventLedger} (takes : TakesRequest ledger)
    (room : HasRoom ledger) :
    ¬ AllOrNothing sampleHasher (sampleCall .zero).subject { ledger }
      ((sampleCall .zero).perform sampleHost sampleHasher { ledger }) := by
  rw [GatewayCall.perform_allOrNothing_iff sampleHasher_nonzero room]
  intro sound
  have reported := sound ⟨by decide, by decide, by decide +kernel, by decide +kernel, rfl,
    by decide, by decide, by decide⟩ takes (by decide)
  exact absurd reported.1 (by decide)

end Sample

/-- On every ledger that appends and gateway calls reach, each call of the gateway is all or nothing
if and only if the sandbox that it reaches, if any, is sound. -/
theorem gateway_calls_all_or_nothing_iff {Path : Type} (blake3 : Hasher) (runId : RunId)
    (history : List (LedgerOperation Path)) (host : Host Path) (call : GatewayCall Path)
    (digests : NonzeroDigests blake3) (room : HasRoom (reachedLedger blake3 runId history)) :
    AllOrNothing blake3 call.subject { ledger := reachedLedger blake3 runId history }
        (call.perform host blake3 { ledger := reachedLedger blake3 runId history }) ↔
      call.SandboxSound blake3 (reachedLedger blake3 runId history) :=
  GatewayCall.perform_allOrNothing_iff digests room call

example : ((sampleCall (.fill 6)).perform sampleHost sampleHasher
    { ledger := reachedLedger sampleHasher 7 sampleHistory }).1.isOk = true := by decide +kernel

theorem sampleCall_all_or_nothing :
    AllOrNothing sampleHasher (sampleCall (.fill 6)).subject
      { ledger := reachedLedger sampleHasher 7 sampleHistory }
      ((sampleCall (.fill 6)).perform sampleHost sampleHasher
        { ledger := reachedLedger sampleHasher 7 sampleHistory }) := by
  rw [gateway_calls_all_or_nothing_iff sampleHasher 7 sampleHistory sampleHost _
    sampleHasher_nonzero sampleHistory_hasRoom]
  exact sampleCall_sound (by decide) _

/-- A sandbox answers with the zero artifact hash. The completion is then refused, and the request
and the decision stay in the ledger without one. -/
theorem zero_artifact_leaves_attempt_open :
    ∃ (blake3 : Hasher) (runId : RunId) (history : List (LedgerOperation String))
      (host : Host String) (call : GatewayCall String),
      NonzeroDigests blake3 ∧ HasRoom (reachedLedger blake3 runId history) ∧
      ¬ AllOrNothing blake3 call.subject { ledger := reachedLedger blake3 runId history }
        (call.perform host blake3 { ledger := reachedLedger blake3 runId history }) :=
  ⟨sampleHasher, 7, sampleHistory, sampleHost, sampleCall .zero, sampleHasher_nonzero,
    sampleHistory_hasRoom, sampleCall_zero_open sampleHistory_takesRequest sampleHistory_hasRoom⟩

end Aegis.Gateway
